/-! # Hexadecimal numerals

Integers in base sixteen with lowercase digits, and the fixed-width form that escapes use. -/

namespace EsilLowering.Numeral

/-- The digits of a number, at least as many as `width` asks for. -/
def hexDigits (width number : Nat) : List Char :=
  (Nat.toDigits 16 number).leftpad width '0'

/-- An integer in base sixteen: a minus sign if it is negative, then the digits of its size. -/
def hexadecimal : Int → String
  | .ofNat n => String.ofList (Nat.toDigits 16 n)
  | .negSucc n => String.ofList ('-' :: Nat.toDigits 16 (n + 1))

end EsilLowering.Numeral
