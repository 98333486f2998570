import Mathlib.Data.Nat.Digits.Defs
import EsilLowering.Numeral.Liberal
import EsilLowering.Proofs.Classification
import EsilLowering.Proofs.Lines

/-! # Integers as people write them: the texts that give one

Between white space stands an optional sign and then digits, of any script and also of several, with single
underscores between two of them. The texts that are read as integers are these, as long as they have no more
digits than are read, and the integer is the place value with the sign. -/

namespace EsilLowering

namespace Text

/-- The code points with the property `White_Space`. The four information separators are not among them. -/
def whiteSpaces : List Nat := [
  0x09, 0x0a, 0x0b, 0x0c, 0x0d, 0x20, 0x85, 0xa0, 0x1680, 0x2000, 0x2001, 0x2002, 0x2003, 0x2004, 0x2005,
  0x2006, 0x2007, 0x2008, 0x2009, 0x200a, 0x2028, 0x2029, 0x202f, 0x205f, 0x3000]

/-- A character stands for a digit in some script. -/
def StandsFor (c : Char) (digit : Nat) : Prop := ∃ base ∈ digitZeros, digit < 10 ∧ c.toNat = base + digit

section
variable {c : Char} {digit : Nat}

theorem isSpace_iff : isSpace c = true ↔ c.toNat ∈ whiteSpaces := by
  simp only [isSpace, isBlank, isInformationSeparator, Bool.not_and, Bool.and_eq_true, Bool.or_eq_true,
    decide_eq_true_eq, beq_iff_eq, Bool.not_eq_eq_eq_not, Bool.not_true, decide_eq_false_iff_not, not_le, whiteSpaces,
    List.mem_cons, List.not_mem_nil, or_false]
  omega

theorem decimalDigit?_eq_some : decimalDigit? c = some digit ↔ StandsFor c digit := by
  constructor
  · intro read
    have small := decimalDigit?_lt read
    obtain ⟨base, found, rfl⟩ := Option.map_eq_some_iff.mp read
    have inside := List.find?_some found
    simp only [Bool.and_eq_true, decide_eq_true_eq] at inside
    exact ⟨base, List.mem_of_find?_eq_some found, small, by omega⟩
  · rintro ⟨base, member, small, place⟩
    have apart : ∀ base ∈ digitZeros, ∀ other ∈ digitZeros, base = other ∨ base + 9 < other ∨ other + 9 < base := by
      decide +kernel
    unfold decimalDigit?
    cases found : digitZeros.find? fun base => base ≤ c.toNat && c.toNat ≤ base + 9 with
    | none =>
      have outside := List.find?_eq_none.mp found base member
      simp only [Bool.and_eq_true, decide_eq_true_eq] at outside
      omega
    | some other =>
      have inside := List.find?_some found
      simp only [Bool.and_eq_true, decide_eq_true_eq] at inside
      have := apart base member other (List.mem_of_find?_eq_some found)
      simp only [Option.map_some, Option.some.injEq]
      omega

theorem StandsFor.visible (stands : StandsFor c digit) : isSpace c = false := by
  have apart : ∀ base ∈ digitZeros, ∀ code ∈ whiteSpaces, code < base ∨ base + 9 < code := by decide +kernel
  obtain ⟨base, member, small, place⟩ := stands
  rw [← Bool.not_eq_true, isSpace_iff]
  intro space
  have := apart base member _ space
  omega

theorem StandsFor.ne {other : Char} (stands : StandsFor c digit) (none : decimalDigit? other = none) : c ≠ other := by
  rintro rfl
  cases none.symm.trans (decimalDigit?_eq_some.mpr stands)

end
end Text

namespace Numeral
open Text (StandsFor)

/-- Digits in a row, the most significant first, where a single underscore may stand between two. -/
inductive Grouped : List Char → List Nat → Prop where
  | last {c : Char} {digit : Nat} (stands : StandsFor c digit) : Grouped [c] [digit]
  | next {c : Char} {digit : Nat} {rest : List Char} {digits : List Nat} (stands : StandsFor c digit)
      (more : Grouped rest digits) : Grouped (c :: rest) (digit :: digits)
  | apart {c : Char} {digit : Nat} {rest : List Char} {digits : List Nat} (stands : StandsFor c digit)
      (more : Grouped rest digits) : Grouped (c :: '_' :: rest) (digit :: digits)

/-- Between white space, a text has an optional sign and these digits. -/
def SpellsFreely (negative : Bool) (digits : List Nat) (text : String) : Prop :=
  ∃ before sign body after, text.toList = before ++ (sign ++ body) ++ after ∧
    (∀ c ∈ before ++ after, c.toNat ∈ Text.whiteSpaces) ∧ Sign negative sign ∧ Grouped body digits

/-- A text gives an integer: it spells its digits, and they are not too many. -/
def Gives (text : String) (number : Int) : Prop :=
  ∃ negative digits, SpellsFreely negative digits text ∧ digits.length ≤ digitLimit ∧
    number = withSign negative (Nat.ofDigits 10 digits.reverse)

section
variable {chars body : List Char} {digits : List Nat} {text : String} {number : Int}

/-! ### Digits in a row -/

theorem Grouped.read (grouped : Grouped body digits) (afterDigit : Bool) :
    groupedDigits? afterDigit body = some digits := by
  induction grouped generalizing afterDigit with
  | last stands => simp [groupedDigits?, Text.decimalDigit?_eq_some.mpr stands]
  | next stands more ih => simp [groupedDigits?, Text.decimalDigit?_eq_some.mpr stands, ih]
  | apart stands more ih =>
    have none : Text.decimalDigit? '_' = none := by decide
    simp [groupedDigits?, Text.decimalDigit?_eq_some.mpr stands, none, ih]

/-- What is read where no digit came before is digits in a row, and what is read after a digit continues
such a row. -/
theorem grouped_of_groupedDigits? :
    (groupedDigits? false chars = some digits → Grouped chars digits) ∧
    (groupedDigits? true chars = some digits →
      ∀ c digit, StandsFor c digit → Grouped (c :: chars) (digit :: digits)) := by
  induction chars generalizing digits with
  | nil =>
    refine ⟨(nomatch ·), fun read c digit stands => ?_⟩
    cases read
    exact .last stands
  | cons x rest ih =>
    cases found : Text.decimalDigit? x with
    | some first =>
      have stands := Text.decimalDigit?_eq_some.mp found
      have row (afterDigit : Bool) (read : groupedDigits? afterDigit (x :: rest) = some digits) :
          Grouped (x :: rest) digits := by
        simp only [groupedDigits?, found] at read
        obtain ⟨more, behind, rfl⟩ := Option.map_eq_some_iff.mp read
        exact ih.2 behind x first stands
      exact ⟨row false, fun read c digit before => .next before (row true read)⟩
    | none =>
      refine ⟨fun read => ?_, fun read c digit before => ?_⟩
      · simp [groupedDigits?, found] at read
      · simp only [groupedDigits?, found, and_true, Option.ite_none_right_eq_some] at read
        obtain ⟨rfl, read⟩ := read
        exact .apart before (ih.1 read)

theorem groupedDigits?_eq_some : groupedDigits? false chars = some digits ↔ Grouped chars digits :=
  ⟨grouped_of_groupedDigits?.1, fun grouped => grouped.read false⟩

theorem Grouped.visible (grouped : Grouped body digits) : ∀ c ∈ body, Text.isSpace c = false := by
  have underscore : Text.isSpace '_' = false := by decide
  induction grouped with
  | last stands => simpa using stands.visible
  | next stands more ih => exact List.forall_mem_cons.mpr ⟨stands.visible, ih⟩
  | apart stands more ih =>
    exact List.forall_mem_cons.mpr ⟨stands.visible, List.forall_mem_cons.mpr ⟨underscore, ih⟩⟩

theorem Grouped.unsigned (grouped : Grouped body digits) : ∀ c ∈ body.head?, c ≠ '-' ∧ c ≠ '+' := by
  cases grouped with
  | last stands | next stands | apart stands =>
    rintro c ⟨⟩
    exact ⟨stands.ne (by decide), stands.ne (by decide)⟩

theorem ofDigits_eq (digits : List Nat) : ofDigits digits = Nat.ofDigits 10 digits.reverse := by
  rw [Nat.ofDigits_eq_foldr, List.foldr_reverse, ofDigits]
  simp only [Nat.cast_id, Nat.add_comm]

/-! ### Texts -/

theorem spellsFreely_iff {negative : Bool} :
    let parts := splitSign (Text.trimmed Text.isSpace text.toList)
    SpellsFreely negative digits text ↔ parts.1 = negative ∧ groupedDigits? false parts.2 = some digits := by
  intro parts
  constructor
  · rintro ⟨before, sign, body, after, whole, spaces, hsign, grouped⟩
    obtain ⟨leading, trailing⟩ := List.forall_mem_append.mp fun c member => Text.isSpace_iff.mpr (spaces c member)
    have noSpace : ∀ c ∈ sign ++ body, Text.isSpace c = false := by
      refine List.forall_mem_append.mpr ⟨?_, grouped.visible⟩
      cases hsign with
      | none => exact List.forall_mem_nil _
      | plus | minus => exact List.forall_mem_singleton.mpr (by decide)
    have kept : Text.trimmed Text.isSpace text.toList = sign ++ body := by
      rw [whole, Text.trimmed_between leading trailing]
      exact Text.trimmed_eq_self (fun c first => noSpace c (List.mem_of_mem_head? first))
        (fun c last => noSpace c (List.mem_of_mem_getLast? last))
    have split : parts = (negative, body) := by
      simp only [parts, kept]
      exact splitSign_append hsign grouped.unsigned
    rw [split]
    exact ⟨rfl, groupedDigits?_eq_some.mpr grouped⟩
  · rintro ⟨rfl, read⟩
    obtain ⟨before, after, whole, leading, trailing⟩ := Text.eq_trimmed_between Text.isSpace text.toList
    obtain ⟨sign, hsign, kept⟩ := splitSign_eq (Text.trimmed Text.isSpace text.toList)
    rw [kept] at whole
    refine ⟨before, sign, parts.2, after, whole, fun c member => Text.isSpace_iff.mp ?_, hsign,
      groupedDigits?_eq_some.mp read⟩
    exact (List.mem_append.mp member).elim (leading c) (trailing c)

/-- The texts that are read as integers are those that give one. -/
theorem liberal?_eq_some : liberal? text = some number ↔ Gives text number := by
  unfold Gives liberal?
  simp only [spellsFreely_iff, ofDigits_eq]
  obtain ⟨negative, numeral⟩ := splitSign (Text.trimmed Text.isSpace text.toList)
  cases groupedDigits? false numeral with
  | none => simp
  | some digits =>
    by_cases long : digitLimit < digits.length
    · simp [long]
    · simp [long, Nat.le_of_not_lt long, eq_comm]

end
end Numeral
end EsilLowering
