import EsilLowering.Json
import EsilLowering.Proofs.Denotation

/-! # The grammar of JSON

What a JSON text holds is read from its first character on: each part of it gives something and leaves the
characters after it. White space between the parts is of no account. A text holds one value at most. -/

namespace EsilLowering.Json

/-- What a JSON text holds. A number is one integer, of the digits before and after its point, and the
power of ten that goes with it. -/
inductive Reading where
  | null
  | truth (value : Bool)
  | number (significand exponent : Int)
  | text (content : String)
  | list (items : List Reading)
  | object (fields : List (String × Reading))

/-! ### Texts -/

/-- The number that a hexadecimal digit of either case stands for. -/
def hexDigit? (c : Char) : Option Nat :=
  if '0' ≤ c ∧ c ≤ '9' then some (c.toNat - '0'.toNat)
  else if 'a' ≤ c ∧ c ≤ 'f' then some (c.toNat - 'a'.toNat + 10)
  else if 'A' ≤ c ∧ c ≤ 'F' then some (c.toNat - 'A'.toNat + 10)
  else none

/-- A UTF-16 unit in four hexadecimal digits. -/
def unit? : List Char → Option (Nat × List Char)
  | first :: second :: third :: fourth :: rest => do
    let first ← hexDigit? first
    let second ← hexDigit? second
    let third ← hexDigit? third
    let fourth ← hexDigit? fourth
    return (16 * (16 * (16 * first + second) + third) + fourth, rest)
  | _ => none

/-- The character of a unit, or of two escaped units that only together are one. -/
def escapedUnits? (chars : List Char) : Option (Char × List Char) := do
  let (unit, rest) ← unit? chars
  if 0xd800 ≤ unit ∧ unit < 0xdc00 then
    let (low, rest) ← if ['\\', 'u'].isPrefixOf rest then unit? (rest.drop 2) else none
    if 0xdc00 ≤ low ∧ low < 0xe000 then
      some (Char.ofNat (0x10000 + 0x400 * (unit - 0xd800) + (low - 0xdc00)), rest)
    else none
  else if 0xdc00 ≤ unit ∧ unit < 0xe000 then none
  else some (Char.ofNat unit, rest)

/-- The character that a letter after a backslash stands for. -/
def escapedLetter? : Char → Option Char
  | '"' => some '"'
  | '\\' => some '\\'
  | '/' => some '/'
  | 'b' => some '\x08'
  | 'f' => some '\x0c'
  | 'n' => some '\n'
  | 'r' => some '\r'
  | 't' => some '\t'
  | _ => none

/-- The next character of a text: itself, unless it is a control or a quote, or by an escape. -/
def character? : List Char → Option (Char × List Char)
  | [] => none
  | c :: rest =>
    if c = '\\' then
      match rest with
      | [] => none
      | letter :: rest =>
        if letter = 'u' then escapedUnits? rest else (escapedLetter? letter).map fun c => (c, rest)
    else if c = '"' ∨ c.toNat < 0x20 then none
    else some (c, rest)

/-- The characters of a text up to the quote that ends it. -/
inductive ReadsText : List Char → List Char → List Char → Prop
  | done {rest : List Char} : ReadsText ('"' :: rest) [] rest
  | next {chars between rest content : List Char} {c : Char} (character : character? chars = some (c, between))
      (text : ReadsText between content rest) : ReadsText chars (c :: content) rest

/-! ### Literals and numbers -/

/-- The words that stand for values. -/
def literal? (chars : List Char) : Option (Reading × List Char) :=
  if "null".toList.isPrefixOf chars then some (.null, chars.drop 4)
  else if "true".toList.isPrefixOf chars then some (.truth true, chars.drop 4)
  else if "false".toList.isPrefixOf chars then some (.truth false, chars.drop 5)
  else none

/-- A row of digits, as long as can be. -/
def digits? (chars : List Char) : Option (List Char × List Char) :=
  if chars.takeWhile Char.isDigit = [] then none
  else some (chars.takeWhile Char.isDigit, chars.dropWhile Char.isDigit)

/-- The digits before the point. They begin with a zero only if that is all. -/
def whole? (chars : List Char) : Option (List Char × List Char) :=
  (digits? chars).filter fun (digits, _) => digits.head? ≠ some '0' ∨ digits = ['0']

/-- The digits after the point, if there is one. -/
def fraction? (chars : List Char) : Option (List Char × List Char) :=
  if chars.head? = some '.' then digits? (chars.drop 1) else some ([], chars)

/-- The power of ten, if there is one. -/
def exponent? (chars : List Char) : Option (Int × List Char) :=
  if chars.head? = some 'e' ∨ chars.head? = some 'E' then
    let (negative, chars) := Numeral.splitSign (chars.drop 1)
    (digits? chars).map fun (digits, rest) => (Numeral.withSign negative (Numeral.placeValue digits), rest)
  else some (0, chars)

/-- A number behind its sign. -/
def unsigned? (negative : Bool) (chars : List Char) : Option (Reading × List Char) := do
  let (whole, chars) ← whole? chars
  let (fraction, chars) ← fraction? chars
  let (exponent, rest) ← exponent? chars
  let significand := Numeral.withSign negative (Numeral.placeValue (whole ++ fraction))
  return (.number significand (exponent - fraction.length), rest)

def number? (chars : List Char) : Option (Reading × List Char) :=
  if chars.head? = some '-' then unsigned? true (chars.drop 1) else unsigned? false chars

/-- A literal or a number. -/
def atom? (chars : List Char) : Option (Reading × List Char) := literal? chars <|> number? chars

/-! ### Values -/

/-- The characters that count as white space. -/
def blanks : List Char := [' ', '\t', '\n', '\r']

/-- What is left after white space. -/
def skip (chars : List Char) : List Char := chars.dropWhile (· ∈ blanks)

/-- What is read in one go: a value, a field, or all that a list or an object holds together with its end. -/
inductive Phrase where
  | value (reading : Reading)
  | field (member : String × Reading)
  | items (readings : List Reading)
  | fields (members : List (String × Reading))

/-- A phrase stands at the beginning of some characters and leaves the rest. -/
inductive Derives : Phrase → List Char → List Char → Prop
  | atom {chars rest : List Char} {reading : Reading} (read : atom? chars = some (reading, rest)) :
      Derives (.value reading) chars rest
  | text {chars content rest : List Char} (text : ReadsText chars content rest) :
      Derives (.value (.text (String.ofList content))) ('"' :: chars) rest
  | emptyList {chars rest : List Char} (close : skip chars = ']' :: rest) :
      Derives (.value (.list [])) ('[' :: chars) rest
  | list {chars rest : List Char} {readings : List Reading} (items : Derives (.items readings) chars rest) :
      Derives (.value (.list readings)) ('[' :: chars) rest
  | emptyObject {chars rest : List Char} (close : skip chars = '\x7d' :: rest) :
      Derives (.value (.object [])) ('\x7b' :: chars) rest
  | object {chars rest : List Char} {members : List (String × Reading)}
      (fields : Derives (.fields members) chars rest) : Derives (.value (.object members)) ('\x7b' :: chars) rest
  | lastItem {chars after rest : List Char} {reading : Reading}
      (value : Derives (.value reading) (skip chars) after) (close : skip after = ']' :: rest) :
      Derives (.items [reading]) chars rest
  | nextItem {chars after more rest : List Char} {reading : Reading} {readings : List Reading}
      (value : Derives (.value reading) (skip chars) after) (comma : skip after = ',' :: more)
      (items : Derives (.items readings) more rest) :
      Derives (.items (reading :: readings)) chars rest
  | field {chars name after given rest : List Char} {reading : Reading} (text : ReadsText chars name after)
      (colon : skip after = ':' :: given) (value : Derives (.value reading) (skip given) rest) :
      Derives (.field (String.ofList name, reading)) ('"' :: chars) rest
  | lastField {chars after rest : List Char} {member : String × Reading}
      (field : Derives (.field member) (skip chars) after) (close : skip after = '\x7d' :: rest) :
      Derives (.fields [member]) chars rest
  | nextField {chars after more rest : List Char} {member : String × Reading} {members : List (String × Reading)}
      (field : Derives (.field member) (skip chars) after) (comma : skip after = ',' :: more)
      (fields : Derives (.fields members) more rest) :
      Derives (.fields (member :: members)) chars rest

/-- A text holds a value, with white space around it at most. -/
def Holds (text : String) (reading : Reading) : Prop :=
  ∃ rest, Derives (.value reading) (skip text.toList) rest ∧ skip rest = []

/-! ### One value at most -/

theorem ReadsText.unique {chars content rest content' rest' : List Char} (first : ReadsText chars content rest)
    (second : ReadsText chars content' rest') : content' = content ∧ rest' = rest := by
  induction first generalizing content' with
  | done =>
    cases second with
    | done => exact ⟨rfl, rfl⟩
    | next character => cases character
  | next character text ih =>
    cases second with
    | done => cases character
    | next character' text' =>
      cases character.symm.trans character'
      obtain ⟨rfl, rfl⟩ := ih text'
      exact ⟨rfl, rfl⟩

/-- The characters that no value begins with: white space, and those that end or separate values. -/
def nonStarters : List Char := blanks ++ [']', '\x7d', ',', ':']

theorem atom?_ne_some {c : Char} (mark : c ∈ nonStarters ++ ['"', '[', '\x7b']) {rest : List Char}
    {found : Reading × List Char} : atom? (c :: rest) ≠ some found := by
  simp only [nonStarters, blanks, List.cons_append, List.nil_append, List.mem_cons, List.not_mem_nil, or_false] at mark
  rcases mark with rfl | rfl | rfl | rfl | rfl | rfl | rfl | rfl | rfl | rfl | rfl <;> exact nofun

theorem not_value {c : Char} (mark : c ∈ nonStarters) {chars rest : List Char} {reading : Reading} :
    ¬Derives (.value reading) (c :: chars) rest := by
  intro derives
  cases derives with
  | atom read => exact absurd read (atom?_ne_some (List.mem_append_left _ mark))
  | text | emptyList | list | emptyObject | object => exact absurd mark (by decide)

theorem not_items {chars after rest : List Char} {readings : List Reading} (close : skip chars = ']' :: after) :
    ¬Derives (.items readings) chars rest := by
  intro derives
  cases derives with
  | lastItem value | nextItem value =>
    rw [close] at value
    exact not_value (by decide) value

theorem not_fields {chars after rest : List Char} {members : List (String × Reading)}
    (close : skip chars = '\x7d' :: after) : ¬Derives (.fields members) chars rest := by
  intro derives
  cases derives with
  | lastField field | nextField field =>
    rw [close] at field
    cases field

/-- At the same place stands no other phrase of the same kind. -/
def Phrase.OnlyAt (chars rest : List Char) : Phrase → Prop
  | .value reading => ∀ other rest', Derives (.value other) chars rest' → other = reading ∧ rest' = rest
  | .field member => ∀ other rest', Derives (.field other) chars rest' → other = member ∧ rest' = rest
  | .items readings => ∀ others rest', Derives (.items others) chars rest' → others = readings ∧ rest' = rest
  | .fields members => ∀ others rest', Derives (.fields others) chars rest' → others = members ∧ rest' = rest

theorem Derives.onlyAt {phrase : Phrase} {chars rest : List Char} (derives : Derives phrase chars rest) :
    phrase.OnlyAt chars rest := by
  -- The first character, and then the mark after each part, decides how the other reading goes on.
  induction derives with
  | atom read =>
    intro other rest' derives
    cases derives with
    | atom read' =>
      cases read.symm.trans read'
      exact ⟨rfl, rfl⟩
    | text | emptyList | list | emptyObject | object => exact absurd read (atom?_ne_some (by decide))
  | text text =>
    intro other rest' derives
    cases derives with
    | atom read => exact absurd read (atom?_ne_some (by decide))
    | text text' =>
      obtain ⟨rfl, rfl⟩ := text.unique text'
      exact ⟨rfl, rfl⟩
  | emptyList close =>
    intro other rest' derives
    cases derives with
    | atom read => exact absurd read (atom?_ne_some (by decide))
    | emptyList close' =>
      cases close.symm.trans close'
      exact ⟨rfl, rfl⟩
    | list items => exact absurd items (not_items close)
  | list items ih =>
    intro other rest' derives
    cases derives with
    | atom read => exact absurd read (atom?_ne_some (by decide))
    | emptyList close => exact absurd items (not_items close)
    | list items' =>
      obtain ⟨rfl, rfl⟩ := ih _ _ items'
      exact ⟨rfl, rfl⟩
  | emptyObject close =>
    intro other rest' derives
    cases derives with
    | atom read => exact absurd read (atom?_ne_some (by decide))
    | emptyObject close' =>
      cases close.symm.trans close'
      exact ⟨rfl, rfl⟩
    | object fields => exact absurd fields (not_fields close)
  | object fields ih =>
    intro other rest' derives
    cases derives with
    | atom read => exact absurd read (atom?_ne_some (by decide))
    | emptyObject close => exact absurd fields (not_fields close)
    | object fields' =>
      obtain ⟨rfl, rfl⟩ := ih _ _ fields'
      exact ⟨rfl, rfl⟩
  | lastItem value close ih =>
    intro others rest' derives
    cases derives with
    | lastItem value' close' =>
      obtain ⟨rfl, rfl⟩ := ih _ _ value'
      cases close.symm.trans close'
      exact ⟨rfl, rfl⟩
    | nextItem value' comma =>
      obtain ⟨rfl, rfl⟩ := ih _ _ value'
      cases close.symm.trans comma
  | nextItem value comma items ihValue ihItems =>
    intro others rest' derives
    cases derives with
    | lastItem value' close =>
      obtain ⟨rfl, rfl⟩ := ihValue _ _ value'
      cases close.symm.trans comma
    | nextItem value' comma' items' =>
      obtain ⟨rfl, rfl⟩ := ihValue _ _ value'
      cases comma.symm.trans comma'
      obtain ⟨rfl, rfl⟩ := ihItems _ _ items'
      exact ⟨rfl, rfl⟩
  | field text colon value ih =>
    intro other rest' derives
    cases derives with
    | field text' colon' value' =>
      obtain ⟨rfl, rfl⟩ := text.unique text'
      cases colon.symm.trans colon'
      obtain ⟨rfl, rfl⟩ := ih _ _ value'
      exact ⟨rfl, rfl⟩
  | lastField field close ih =>
    intro others rest' derives
    cases derives with
    | lastField field' close' =>
      obtain ⟨rfl, rfl⟩ := ih _ _ field'
      cases close.symm.trans close'
      exact ⟨rfl, rfl⟩
    | nextField field' comma =>
      obtain ⟨rfl, rfl⟩ := ih _ _ field'
      cases close.symm.trans comma
  | nextField field comma fields ihField ihFields =>
    intro others rest' derives
    cases derives with
    | lastField field' close =>
      obtain ⟨rfl, rfl⟩ := ihField _ _ field'
      cases close.symm.trans comma
    | nextField field' comma' fields' =>
      obtain ⟨rfl, rfl⟩ := ihField _ _ field'
      cases comma.symm.trans comma'
      obtain ⟨rfl, rfl⟩ := ihFields _ _ fields'
      exact ⟨rfl, rfl⟩

theorem Holds.unique {text : String} {reading other : Reading} (first : Holds text reading) (second : Holds text other) :
    other = reading := by
  obtain ⟨_, derives, -⟩ := first
  obtain ⟨_, derives', -⟩ := second
  exact (derives.onlyAt _ _ derives').1

end EsilLowering.Json
