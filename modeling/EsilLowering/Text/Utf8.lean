import EsilLowering.Numeral.Hexadecimal

/-! # UTF-8

Characters from bytes. Decoding is strict: no overlong forms, no surrogates, nothing past the last
code point. A fault says which bytes are to blame and why. -/

namespace EsilLowering.Text.Utf8

/-- Why bytes are no UTF-8. -/
inductive Reason where
  /-- A byte that opens no character stands where one should begin. -/
  | invalidStart
  /-- A character begun goes on with a byte that cannot follow. -/
  | invalidContinuation
  /-- The bytes end inside a character. -/
  | unexpectedEnd
  deriving DecidableEq, Repr

/-- The first place where bytes are no UTF-8: `bytes` begin at offset `start`. -/
structure Fault where
  start : Nat
  bytes : List UInt8
  reason : Reason
  deriving DecidableEq, Repr

/-- The reason in words. -/
def Reason.message : Reason → String
  | invalidStart => "invalid start byte"
  | invalidContinuation => "invalid continuation byte"
  | unexpectedEnd => "unexpected end of data"

/-- A fault in words: a single byte is named, several are given by their offsets. -/
def Fault.message (fault : Fault) : String :=
  let place := match fault.bytes with
    | [byte] =>
      let digits := String.ofList (Numeral.hexDigits 2 byte.toNat)
      s!"byte 0x{digits} in position {fault.start}"
    | bytes =>
      let last := fault.start + bytes.length - 1
      s!"bytes in position {fault.start}-{last}"
  s!"'utf-8' codec can't decode {place}: {fault.reason.message}"

/-- A character of which some bytes are read: those bytes, newest first, the code point they give so
far, how many more are due, and the range of the next one. -/
structure Begun where
  bytes : List UInt8
  code : Nat
  due : Nat
  low : Nat := 0x80
  high : Nat := 0xbf
  deriving DecidableEq, Repr

/-- What a byte opens: a character of its own, or one with more bytes to come. -/
def opening (byte : UInt8) : Option (Char ⊕ Begun) :=
  let n := byte.toNat
  if n < 0x80 then some (.inl (Char.ofNat n))
  else if n < 0xc2 then none
  else if n < 0xe0 then some (.inr { bytes := [byte], code := n - 0xc0, due := 1 })
  else if n = 0xe0 then some (.inr { bytes := [byte], code := 0, due := 2, low := 0xa0 })
  else if n = 0xed then some (.inr { bytes := [byte], code := 0xd, due := 2, high := 0x9f })
  else if n < 0xf0 then some (.inr { bytes := [byte], code := n - 0xe0, due := 2 })
  else if n = 0xf0 then some (.inr { bytes := [byte], code := 0, due := 3, low := 0x90 })
  else if n < 0xf4 then some (.inr { bytes := [byte], code := n - 0xf0, due := 3 })
  else if n = 0xf4 then some (.inr { bytes := [byte], code := 4, due := 3, high := 0x8f })
  else none

/-- Decodes from an offset on, in the middle of a character if one is begun. -/
def decodeFrom : Nat → Option Begun → List UInt8 → Except Fault (List Char)
  | _, none, [] => .ok []
  | offset, some begun, [] =>
    .error ⟨offset - begun.bytes.length, begun.bytes.reverse, .unexpectedEnd⟩
  | offset, none, byte :: rest =>
    match opening byte with
    | none => .error ⟨offset, [byte], .invalidStart⟩
    | some (.inl c) => (decodeFrom (offset + 1) none rest).map (c :: ·)
    | some (.inr begun) => decodeFrom (offset + 1) (some begun) rest
  | offset, some begun, byte :: rest =>
    if begun.low ≤ byte.toNat ∧ byte.toNat ≤ begun.high then
      let code := begun.code * 64 + (byte.toNat - 0x80)
      if begun.due ≤ 1 then (decodeFrom (offset + 1) none rest).map (Char.ofNat code :: ·)
      else decodeFrom (offset + 1) (some { bytes := byte :: begun.bytes, code, due := begun.due - 1 }) rest
    else .error ⟨offset - begun.bytes.length, begun.bytes.reverse, .invalidContinuation⟩

/-- The text that bytes hold. -/
def decode (bytes : List UInt8) : Except Fault String :=
  (decodeFrom 0 none bytes).map String.ofList

/-- The bytes of a text. -/
def encode (text : String) : List UInt8 :=
  text.toList.flatMap String.utf8EncodeChar

end EsilLowering.Text.Utf8
