import EsilLowering.Proofs.DecimalTexts
import EsilLowering.Proofs.TemporaryNames
import Mathlib.Data.List.Induction
import Mathlib.Data.List.Nodup

/-! # Numbers written in base sixteen

The digits of a number in base sixteen are the only ones without a needless zero that give it, so a
number comes back from its text, its sign included. A temporary's name holds such a text: it gives the
index back, and of the temporaries that are handed out no two have one name. -/

namespace EsilLowering
namespace Numeral

/-- Whether a character is a digit of a hexadecimal numeral in lower case. -/
def isHexDigit (c : Char) : Bool := "0123456789abcdef".toList.contains c

/-- Digits of a hexadecimal numeral, and no zero before others. -/
structure PlainHex (digits : List Char) : Prop where
  nonempty : digits ≠ []
  lower : ∀ digit ∈ digits, isHexDigit digit = true
  leading : digits.head? = some '0' → digits = ['0']

/-- The integer that a hexadecimal numeral gives, if the text is one: digits, with a sign before them or
without. -/
def hexadecimal? (text : String) : Option Int :=
  let (negative, digits) := splitSign text.toList
  if digits ≠ [] ∧ digits.all isHexDigit then some (withSign negative (ofHexDigits digits)) else none

section
variable {digit : Char} {digits : List Char} {number : Nat}

/-! ### One digit -/

theorem isHexDigit_digitChar : ∀ value < 16, isHexDigit value.digitChar = true := by decide

theorem digitChar_hexDigitValue (h : isHexDigit digit = true) :
    hexDigitValue digit < 16 ∧ (hexDigitValue digit).digitChar = digit := by
  have all : "0123456789abcdef".toList.all fun c => hexDigitValue c < 16 ∧ (hexDigitValue c).digitChar = c := by decide
  exact of_decide_eq_true (List.all_eq_true.mp all digit (List.contains_iff_mem.mp h))

theorem unsigned_of_isHexDigit (h : isHexDigit digit = true) : digit ≠ '-' ∧ digit ≠ '+' := by
  constructor <;> rintro rfl <;> revert h <;> decide

/-! ### The digits of a number -/

theorem plainHex_toDigits (number : Nat) : PlainHex (Nat.toDigits 16 number) where
  nonempty := Nat.toDigits_ne_nil
  lower := by
    intro digit member
    obtain ⟨value, small, rfl⟩ := digitChar_of_mem_toDigits member
    exact isHexDigit_digitChar value small
  leading := by
    intro zero
    rw [(head_toDigits_eq_zero (by decide) (by decide) number).mp zero]
    rfl

theorem PlainHex.of_concat (plain : PlainHex (digits ++ [digit])) (more : digits ≠ []) :
    PlainHex digits ∧ digits.head? ≠ some '0' := by
  have nonzero : digits.head? ≠ some '0' := by
    intro zero
    have one := congrArg List.length (plain.leading (by rw [List.head?_append_of_ne_nil _ more, zero]))
    rw [List.length_append, List.length_singleton, List.length_singleton] at one
    exact more (List.length_eq_zero_iff.mp (by omega))
  exact ⟨⟨more, fun c member => plain.lower c (List.mem_append_left _ member), fun zero => absurd zero nonzero⟩, nonzero⟩

/-- Digits without a needless zero are those of the number that they give. -/
theorem PlainHex.toDigits_ofHexDigits (plain : PlainHex digits) : Nat.toDigits 16 (ofHexDigits digits) = digits := by
  induction digits using List.reverseRecOn with
  | nil => exact absurd rfl plain.nonempty
  | append_singleton before last ih =>
    obtain ⟨small, back⟩ := digitChar_hexDigitValue (plain.lower last (by simp))
    rw [ofHexDigits_concat]
    by_cases alone : before = []
    · subst alone
      rw [ofHexDigits, List.foldl_nil, Nat.mul_zero, Nat.zero_add, Nat.toDigits_of_lt_base small, back, List.nil_append]
    · obtain ⟨earlier, nonzero⟩ := plain.of_concat alone
      have digits := ih earlier
      -- The digits before the last one begin with no zero, so they give more than nothing.
      have positive : 0 < ofHexDigits before := by
        rw [← digits, Ne, head_toDigits_eq_zero (by decide) (by decide)] at nonzero
        exact Nat.pos_of_ne_zero nonzero
      rw [← Nat.toDigits_append_toDigits (by decide) positive small, digits, Nat.toDigits_of_lt_base small, back]

/-! ### Integers -/

theorem hexadecimal_toList (number : Int) :
    (hexadecimal number).toList = (if number < 0 then ['-'] else []) ++ Nat.toDigits 16 number.natAbs := by
  cases number with
  | ofNat size => simp [hexadecimal]
  | negSucc size => simp [hexadecimal, Int.negSucc_lt_zero]

theorem sign_of_neg (number : Int) : Sign (decide (number < 0)) (if number < 0 then ['-'] else []) := by
  by_cases negative : number < 0
  · rw [decide_eq_true negative, if_pos negative]
    exact .minus
  · rw [decide_eq_false negative, if_neg negative]
    exact .none

theorem hexadecimal?_hexadecimal (number : Int) : hexadecimal? (hexadecimal number) = some number := by
  have plain := plainHex_toDigits number.natAbs
  have unsigned : ∀ c ∈ (Nat.toDigits 16 number.natAbs).head?, c ≠ '-' ∧ c ≠ '+' :=
    fun c first => unsigned_of_isHexDigit (plain.lower c (List.mem_of_mem_head? first))
  simp only [hexadecimal?, hexadecimal_toList, splitSign_append (sign_of_neg number) unsigned, ofHexDigits_toDigits,
    withSign_natAbs]
  exact if_pos ⟨plain.nonempty, List.all_eq_true.mpr plain.lower⟩

end
end Numeral

/-! ### Temporaries -/

/-- The index that a temporary's name gives: what follows the stem, read in base sixteen. -/
def Value.indexOfName? (name : String) : Option Int :=
  (temporaryStem.toList.isPrefixOf? name.toList).bind fun suffix => Numeral.hexadecimal? (String.ofList suffix)

theorem Value.indexOfName?_temporary (index : Int) : indexOfName? (temporary index).name = some index := by
  have suffix : temporaryStem.toList.isPrefixOf? (temporary index).name.toList =
      some (Numeral.hexadecimal index).toList :=
    List.isPrefixOf?_eq_some_iff_append_eq.mpr (String.toList_append ..).symm
  rw [indexOfName?, suffix, Option.bind_some, String.ofList_toList, Numeral.hexadecimal?_hexadecimal]

theorem Value.temporary_name (index : Int) : (temporary index).name =
    "tmp_" ++ (if index < 0 then "-" else "") ++ String.ofList (Nat.toDigits 16 index.natAbs) := by
  apply String.toList_inj.mp
  rw [temporary, String.toList_append, Numeral.hexadecimal_toList]
  split <;> simp [temporaryStem]

example : (Value.temporary (-255)).name = "tmp_-ff" := by decide

theorem Value.temporary_name_inj {index other : Int} (same : (temporary index).name = (temporary other).name) :
    index = other := by
  have indices := congrArg indexOfName? same
  rw [indexOfName?_temporary, indexOfName?_temporary] at indices
  exact Option.some.inj indices

/-- Temporaries are handed out one index after the other. -/
theorem Temporaries.take_eq (temporaries : Temporaries) (count : Nat) :
    temporaries.take count =
      (List.range' (temporaries.last + 1) count).map fun index : Nat => (.temporary (index : Int), index) := by
  induction count generalizing temporaries with
  | zero => rfl
  | succ count ih =>
    rw [List.range'_succ, List.map_cons, take]
    exact congrArg (_ :: ·) (ih _)

/-- The name of a temporary is the stem, a minus if the index is negative, and the hexadecimal digits of its
size, in lower case and without a needless zero: no other text is. It gives the index back, so different
indices have different names. However many temporaries are handed out from the beginning on, their names
differ and give the indices from one on, in order. -/
theorem Value.temporary_names_decoded :
    (∀ (index : Int) (name : String), name = (temporary index).name ↔
      ∃ digits, name = "tmp_" ++ (if index < 0 then "-" else "") ++ String.ofList digits ∧
        Numeral.PlainHex digits ∧ Numeral.ofHexDigits digits = index.natAbs) ∧
    (∀ index : Int, indexOfName? (temporary index).name = some index) ∧
    (∀ index other : Int, index ≠ other → (temporary index).name ≠ (temporary other).name) ∧
    ∀ count : Nat,
      let handed := ({} : Temporaries).take count
      let names := handed.map fun (value, _) => value.name
      handed.map Prod.snd = List.range' 1 count ∧ names.Nodup ∧
        names.map indexOfName? = (List.range' 1 count).map fun index : Nat => some (index : Int) := by
  refine ⟨fun index name => ⟨?_, ?_⟩, indexOfName?_temporary, fun index other differ same => ?_, fun count => ?_⟩
  · rintro rfl
    exact ⟨_, temporary_name index, Numeral.plainHex_toDigits _, Numeral.ofHexDigits_toDigits _⟩
  · rintro ⟨digits, rfl, plain, value⟩
    rw [temporary_name, ← value, plain.toDigits_ofHexDigits]
  · exact differ (temporary_name_inj same)
  · intro handed names
    have hhanded : handed = (List.range' 1 count).map fun index : Nat => (temporary (index : Int), index) :=
      Temporaries.take_eq {} count
    have hnames : names = (List.range' 1 count).map fun index : Nat => (temporary (index : Int)).name := by
      change handed.map _ = _
      rw [hhanded, List.map_map]
      rfl
    refine ⟨?_, ?_, ?_⟩
    · rw [hhanded, List.map_map]
      exact List.map_id _
    · rw [hnames]
      refine List.Nodup.map (fun index other same => ?_) List.nodup_range'
      exact Int.ofNat_inj.mp (temporary_name_inj same)
    · rw [hnames, List.map_map]
      exact List.map_congr_left fun index _ => indexOfName?_temporary index

end EsilLowering
