import EsilLowering.Numeral.Decimal
import EsilLowering.Numeral.Hexadecimal

/-! # JSON documents

A document of texts, integers, lists and objects, and its indented form. The form is ASCII throughout:
any other character is written by its UTF-16 units, so a reader gets every text back. A document has no
such form if one of its integers has more digits than are converted to text. -/

namespace EsilLowering

/-- A JSON value. The fields of an object keep their order. -/
inductive Json where
  | text (content : String)
  | integer (number : Int)
  | list (items : List Json)
  | object (fields : List (String × Json))

namespace Json

/-- A UTF-16 unit as an escape. -/
def unitEscape (unit : Nat) : List Char := '\\' :: 'u' :: Numeral.hexDigits 4 unit

/-- A character inside a JSON text. -/
def escapedChar (c : Char) : List Char :=
  let code := c.toNat
  if c = '"' ∨ c = '\\' then ['\\', c]
  else if c = '\n' then ['\\', 'n']
  else if c = '\r' then ['\\', 'r']
  else if c = '\t' then ['\\', 't']
  else if c = '\x08' then ['\\', 'b']
  else if c = '\x0c' then ['\\', 'f']
  else if 0x20 ≤ code ∧ code ≤ 0x7e then [c]
  else if code < 0x10000 then unitEscape code
  else
    let above := code - 0x10000
    unitEscape (0xd800 + above / 0x400) ++ unitEscape (0xdc00 + above % 0x400)

/-- A text between quotes. -/
def quotedText (text : String) : List Char :=
  '"' :: text.toList.flatMap escapedChar ++ ['"']

/-- A new line, indented by two spaces for each level. -/
def newLine (depth : Nat) : List Char := '\n' :: List.replicate (2 * depth) ' '

mutual

/-- A value whose first line is indented already. An integer in it that has no text leaves it without one. -/
def render? (depth : Nat) : Json → Option (List Char)
  | .text content => some (quotedText content)
  | .integer number => (Numeral.text? number).map String.toList
  | .list [] => some ['[', ']']
  | .list (item :: rest) => do
    let first ← render? (depth + 1) item
    let others ← renderItems? (depth + 1) rest
    return '[' :: newLine (depth + 1) ++ first ++ others ++ newLine depth ++ [']']
  | .object [] => some ['\x7b', '\x7d']
  | .object ((name, value) :: rest) => do
    let first ← render? (depth + 1) value
    let others ← renderFields? (depth + 1) rest
    return '\x7b' :: newLine (depth + 1) ++ quotedText name ++ [':', ' '] ++ first ++ others ++ newLine depth ++ ['\x7d']

/-- The items of a list after its first. -/
def renderItems? (depth : Nat) : List Json → Option (List Char)
  | [] => some []
  | item :: rest => do
    let next ← render? depth item
    let others ← renderItems? depth rest
    return ',' :: newLine depth ++ next ++ others

/-- The fields of an object after its first. -/
def renderFields? (depth : Nat) : List (String × Json) → Option (List Char)
  | [] => some []
  | (name, value) :: rest => do
    let next ← render? depth value
    let others ← renderFields? depth rest
    return ',' :: newLine depth ++ quotedText name ++ [':', ' '] ++ next ++ others

end

/-- A document as text. It is written as a whole or not at all. -/
def document? (value : Json) : Option String := (value.render? 0).map String.ofList

end Json
end EsilLowering
