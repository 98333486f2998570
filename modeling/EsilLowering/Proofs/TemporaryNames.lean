import EsilLowering.Temporaries

/-! # The names of temporaries

A temporary's name ends in its index in base sixteen, which can be read back; so different indices
make different temporaries. -/

namespace EsilLowering
namespace Numeral

/-- The number that a lowercase hexadecimal digit stands for. -/
def hexDigitValue (digit : Char) : Nat :=
  if digit.isDigit then digit.toNat - '0'.toNat else digit.toNat - 'a'.toNat + 10

/-- The number that hexadecimal digits give, the most significant first. -/
def ofHexDigits (digits : List Char) : Nat :=
  digits.foldl (fun number digit => 16 * number + hexDigitValue digit) 0

theorem hexDigitValue_digitChar : ∀ digit < 16, hexDigitValue digit.digitChar = digit := by
  decide

theorem digitChar_of_mem_toDigits {digit : Char} {number : Nat} (h : digit ∈ Nat.toDigits 16 number) :
    ∃ value < 16, digit = value.digitChar := by
  induction number using Nat.base_induction 16 (by omega) with
  | single number hnumber =>
    rw [Nat.toDigits_of_lt_base hnumber, List.mem_singleton] at h
    exact ⟨number, hnumber, h⟩
  | digit number last hlast hpos ih =>
    rw [← Nat.toDigits_append_toDigits (by omega) hpos hlast, Nat.toDigits_of_lt_base hlast] at h
    rcases List.mem_append.mp h with earlier | new
    · exact ih earlier
    · exact ⟨last, hlast, List.mem_singleton.mp new⟩

theorem ofHexDigits_concat (digits : List Char) (digit : Char) :
    ofHexDigits (digits ++ [digit]) = 16 * ofHexDigits digits + hexDigitValue digit := by
  rw [ofHexDigits, List.foldl_append]
  rfl

theorem ofHexDigits_toDigits (number : Nat) : ofHexDigits (Nat.toDigits 16 number) = number := by
  induction number using Nat.base_induction 16 (by omega) with
  | single digit small => simp [Nat.toDigits_of_lt_base small, ofHexDigits, hexDigitValue_digitChar digit small]
  | digit number digit small more ih =>
    rw [← Nat.toDigits_append_toDigits (by omega) more small, Nat.toDigits_of_lt_base small, ofHexDigits_concat, ih,
      hexDigitValue_digitChar digit small]

end Numeral

namespace Value
variable {value : Value} {index : Nat}

/-- The index of a temporary. What only has the name of one has no index. -/
def index? (value : Value) : Option Nat :=
  (some (Numeral.ofHexDigits (value.name.toList.drop temporaryStem.toList.length))).filter
    fun index => value = .temporary (index : Int)

theorem temporary_name_toList (index : Nat) :
    (temporary (index : Int)).name.toList = temporaryStem.toList ++ Nat.toDigits 16 index := by
  rw [← String.toList_ofList (l := Nat.toDigits 16 index), ← String.toList_append]
  rfl

theorem index?_eq_some : value.index? = some index ↔ value = .temporary (index : Int) := by
  rw [index?, Option.filter_eq_some_iff, decide_eq_true_iff]
  constructor
  · exact fun h => h.2
  · rintro rfl
    refine ⟨?_, rfl⟩
    rw [temporary_name_toList, List.drop_left, Numeral.ofHexDigits_toDigits]

theorem temporary_inj {m n : Nat} (h : temporary (m : Int) = temporary (n : Int)) : m = n := by
  have indices : (temporary (m : Int)).index? = (temporary (n : Int)).index? := congrArg index? h
  rw [index?_eq_some.mpr rfl, index?_eq_some.mpr rfl] at indices
  exact Option.some.inj indices

end Value
end EsilLowering
