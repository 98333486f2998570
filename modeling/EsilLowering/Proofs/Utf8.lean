import EsilLowering.Text.Utf8
import Mathlib.Data.List.Basic

/-! # Reading encoded text

The bytes of a text are decoded to the text again, whatever its characters. The bytes of one character are
read in turn: the first one says how many are due and bounds the second, which shuts out overlong forms and
surrogates but no character. -/

namespace EsilLowering.Text.Utf8

section
variable {offset : Nat} {begun : Begun} {rest : List UInt8} {n : Nat}

theorem toNat_tail (n : Nat) : (UInt8.ofNat (n % 64 + 0x80)).toNat = n % 64 + 0x80 := by
  rw [UInt8.toNat_ofNat']
  omega

/-- A byte within bounds adds six bits. -/
theorem decodeFrom_next (low : begun.low ≤ n % 64 + 0x80) (high : n % 64 + 0x80 ≤ begun.high) (due : 1 < begun.due) :
    decodeFrom offset (some begun) (UInt8.ofNat (n % 64 + 0x80) :: rest) =
      decodeFrom (offset + 1) (some
        { bytes := UInt8.ofNat (n % 64 + 0x80) :: begun.bytes
          code := begun.code * 64 + n % 64
          due := begun.due - 1 }) rest := by
  rw [decodeFrom, toNat_tail, if_pos ⟨low, high⟩, Nat.add_sub_cancel]
  exact if_neg (Nat.not_le.mpr due)

/-- The last byte that is due completes the character. -/
theorem decodeFrom_last (low : begun.low ≤ n % 64 + 0x80) (high : n % 64 + 0x80 ≤ begun.high) (due : begun.due = 1) :
    decodeFrom offset (some begun) (UInt8.ofNat (n % 64 + 0x80) :: rest) =
      (decodeFrom (offset + 1) none rest).map (Char.ofNat (begun.code * 64 + n % 64) :: ·) := by
  rw [decodeFrom, toNat_tail, if_pos ⟨low, high⟩, Nat.add_sub_cancel]
  exact if_pos (Nat.le_of_eq due)

theorem decodeFrom_opened {byte : UInt8} (opens : opening byte = some (.inr begun)) :
    decodeFrom offset none (byte :: rest) = decodeFrom (offset + 1) (some begun) rest := by
  rw [decodeFrom, opens]

/-! ### First bytes -/

theorem opening_one (high : n < 0x80) : opening (UInt8.ofNat n) = some (.inl (Char.ofNat n)) := by
  have byte : (UInt8.ofNat n).toNat = n := UInt8.toNat_ofNat_of_lt' (Nat.lt_trans high (by decide))
  rw [opening, byte]
  exact if_pos high

theorem toNat_ofNat_add {base : Nat} (high : n + base < 256) : (UInt8.ofNat (n + base)).toNat = n + base :=
  UInt8.toNat_ofNat_of_lt' high

theorem opening_two (low : 2 ≤ n) (high : n < 0x20) :
    opening (UInt8.ofNat (n + 0xc0)) = some (.inr { bytes := [UInt8.ofNat (n + 0xc0)], code := n, due := 1 }) := by
  simp only [opening, toNat_ofNat_add (show n + 0xc0 < 256 by omega), Nat.add_sub_cancel]
  rw [if_neg (by omega), if_neg (by omega), if_pos (by omega)]

/-- The second byte of three is bounded from below after the least first byte, and from above after the one
that would lead to surrogates. -/
theorem opening_three (high : n < 0x10) :
    opening (UInt8.ofNat (n + 0xe0)) = some (.inr
      { bytes := [UInt8.ofNat (n + 0xe0)], code := n, due := 2
        low := if n = 0 then 0xa0 else 0x80
        high := if n = 0xd then 0x9f else 0xbf }) := by
  simp only [opening, toNat_ofNat_add (show n + 0xe0 < 256 by omega), Nat.add_sub_cancel]
  rw [if_neg (by omega), if_neg (by omega), if_neg (by omega)]
  by_cases least : n = 0
  · subst least
    rfl
  · by_cases surrogates : n = 0xd
    · subst surrogates
      rfl
    · rw [if_neg (by omega), if_neg (by omega), if_pos (by omega), if_neg least, if_neg surrogates]

/-- The second byte of four is bounded from below after the least first byte, and from above after the
greatest. -/
theorem opening_four (high : n < 5) :
    opening (UInt8.ofNat (n + 0xf0)) = some (.inr
      { bytes := [UInt8.ofNat (n + 0xf0)], code := n, due := 3
        low := if n = 0 then 0x90 else 0x80
        high := if n = 4 then 0x8f else 0xbf }) := by
  match n, high with
  | 0, _ | 1, _ | 2, _ | 3, _ | 4, _ => rfl

end

/-! ### Characters and texts -/

theorem decodeFrom_encodeChar (offset : Nat) (c : Char) (rest : List UInt8) :
    ∃ later, decodeFrom offset none (String.utf8EncodeChar c ++ rest) = (decodeFrom later none rest).map (c :: ·) := by
  have valid : c.val.toNat < 0xd800 ∨ 0xdfff < c.val.toNat ∧ c.val.toNat < 0x110000 := c.valid
  have back : Char.ofNat c.val.toNat = c := Char.ofNat_toNat c
  unfold String.utf8EncodeChar
  generalize c.val.toNat = v at valid back ⊢
  by_cases one : v ≤ 0x7f
  · refine ⟨offset + 1, ?_⟩
    rw [if_pos one, List.singleton_append, decodeFrom, opening_one (by omega), back]
  rw [if_neg one]
  by_cases two : v ≤ 0x7ff
  · refine ⟨offset + 2, ?_⟩
    have whole : v / 64 % 32 * 64 + v % 64 = v := by omega
    simp only [if_pos two, List.cons_append, List.nil_append]
    rw [decodeFrom_opened (opening_two (by omega) (by omega)), decodeFrom_last (by simp) (by simp; omega) rfl,
      whole, back]
  rw [if_neg two]
  by_cases three : v ≤ 0xffff
  · refine ⟨offset + 3, ?_⟩
    have low : (if v / 4096 % 16 = 0 then 0xa0 else 0x80) ≤ v / 64 % 64 + 0x80 := by split <;> omega
    have high : v / 64 % 64 + 0x80 ≤ if v / 4096 % 16 = 0xd then 0x9f else 0xbf := by split <;> omega
    have whole : (v / 4096 % 16 * 64 + v / 64 % 64) * 64 + v % 64 = v := by omega
    simp only [if_pos three, List.cons_append, List.nil_append]
    rw [decodeFrom_opened (opening_three (by omega)), decodeFrom_next low high (by simp),
      decodeFrom_last (by simp) (by simp; omega) rfl, whole, back]
  · refine ⟨offset + 4, ?_⟩
    have low : (if v / 262144 % 8 = 0 then 0x90 else 0x80) ≤ v / 4096 % 64 + 0x80 := by split <;> omega
    have high : v / 4096 % 64 + 0x80 ≤ if v / 262144 % 8 = 4 then 0x8f else 0xbf := by split <;> omega
    have whole : ((v / 262144 % 8 * 64 + v / 4096 % 64) * 64 + v / 64 % 64) * 64 + v % 64 = v := by omega
    simp only [if_neg three, List.cons_append, List.nil_append]
    rw [decodeFrom_opened (opening_four (by omega)), decodeFrom_next low high (by simp),
      decodeFrom_next (by simp) (by simp; omega) (by simp), decodeFrom_last (by simp) (by simp; omega) rfl, whole, back]

theorem decodeFrom_encode (offset : Nat) (chars : List Char) :
    decodeFrom offset none (chars.flatMap String.utf8EncodeChar) = .ok chars := by
  induction chars generalizing offset with
  | nil => rfl
  | cons c rest ih =>
    obtain ⟨later, first⟩ := decodeFrom_encodeChar offset c (rest.flatMap String.utf8EncodeChar)
    rw [List.flatMap_cons, first, ih]
    rfl

/-- The bytes of a text hold that text. -/
theorem decode_encode (text : String) : decode (encode text) = .ok text := by
  rw [decode, encode, decodeFrom_encode]
  exact congrArg Except.ok String.ofList_toList

end EsilLowering.Text.Utf8
