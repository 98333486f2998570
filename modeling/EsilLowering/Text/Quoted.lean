import EsilLowering.Numeral.Hexadecimal
import EsilLowering.Text.Printable

/-! # Quoted text

A text between quotes, for messages. The quote is the apostrophe, unless the text holds an apostrophe
and no double quote. The backslash, the quote and every unprintable character are escaped; what is
printable stands as it is. -/

namespace EsilLowering.Text

/-- The quote around a text. -/
def quoteFor (text : String) : Char :=
  if '\'' ∈ text.toList ∧ '"' ∉ text.toList then '"' else '\''

/-- A character inside quotes. -/
def quotedChar (quote c : Char) : List Char :=
  let code (letter : Char) (width : Nat) : List Char :=
    '\\' :: letter :: Numeral.hexDigits width c.toNat
  if c = quote ∨ c = '\\' then ['\\', c]
  else if c = '\n' then ['\\', 'n']
  else if c = '\r' then ['\\', 'r']
  else if c = '\t' then ['\\', 't']
  else if isPrintable c then [c]
  else if c.toNat < 0x100 then code 'x' 2
  else if c.toNat < 0x10000 then code 'u' 4
  else code 'U' 8

/-- A text between quotes. -/
def quoted (text : String) : String :=
  let quote := quoteFor text
  String.ofList (quote :: text.toList.flatMap (quotedChar quote) ++ [quote])

end EsilLowering.Text
