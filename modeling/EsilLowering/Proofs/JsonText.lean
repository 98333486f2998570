import EsilLowering.Proofs.JsonGrammar

/-! # What JSON documents hold

A document as text holds what it was made of and nothing else: its texts character for character and its
integers as they are. The text is made of line feeds and printable ASCII alone. -/

namespace EsilLowering

/-! ### Numerals -/

namespace Numeral

theorem hexDigits_succ {width : Nat} (positive : 0 < width) (number : Nat) :
    hexDigits (width + 1) number = hexDigits width (number / 16) ++ [(number % 16).digitChar] := by
  unfold hexDigits
  by_cases single : number < 16
  · have none : number / 16 = 0 := Nat.div_eq_of_lt single
    have padding : List.replicate width '0' = List.replicate (width - 1) '0' ++ ['0'] := by
      rw [← List.replicate_succ', Nat.sub_add_cancel positive]
    rw [none, Nat.mod_eq_of_lt single, Nat.toDigits_of_lt_base single, Nat.toDigits_of_lt_base (by decide)]
    simp [List.leftpad, padding]
  · have last : number % 16 < 16 := Nat.mod_lt _ (by decide)
    have split : Nat.toDigits 16 number = Nat.toDigits 16 (number / 16) ++ [(number % 16).digitChar] := by
      rw [← Nat.toDigits_of_lt_base last, Nat.toDigits_append_toDigits (by decide) (by omega) last, Nat.div_add_mod]
    rw [split]
    simp [List.leftpad]

theorem hexDigits_four {number : Nat} (small : number < 0x10000) :
    hexDigits 4 number = [(number / 4096).digitChar, (number / 256 % 16).digitChar, (number / 16 % 16).digitChar,
      (number % 16).digitChar] := by
  have two : number / 16 / 16 = number / 256 := Nat.div_div_eq_div_mul number 16 16
  have three : number / 256 / 16 = number / 4096 := Nat.div_div_eq_div_mul number 256 16
  have first : number / 4096 < 16 := by omega
  rw [hexDigits_succ (by decide), hexDigits_succ (by decide), hexDigits_succ (by decide), two, three, hexDigits,
    Nat.toDigits_of_lt_base first]
  rfl

end Numeral

namespace Json
open Numeral

section
variable {rest : List Char}

theorem hexDigit?_digitChar : ∀ digit < 16, hexDigit? digit.digitChar = some digit := by
  decide

theorem unit?_hexDigits {number : Nat} (small : number < 0x10000) :
    unit? (hexDigits 4 number ++ rest) = some (number, rest) := by
  rw [hexDigits_four small]
  simp only [List.cons_append, List.nil_append, unit?]
  rw [hexDigit?_digitChar _ (by omega), hexDigit?_digitChar _ (by omega), hexDigit?_digitChar _ (by omega),
    hexDigit?_digitChar _ (by omega)]
  have whole : 16 * (16 * (16 * (number / 4096) + number / 256 % 16) + number / 16 % 16) + number % 16 = number := by
    omega
  simp [whole]

theorem character?_unitEscape (number : Nat) :
    character? (unitEscape number ++ rest) = escapedUnits? (hexDigits 4 number ++ rest) := by
  simp [character?, unitEscape]

theorem character?_single {number : Nat} (small : number < 0x10000) (whole : number < 0xd800 ∨ 0xe000 ≤ number) :
    character? (unitEscape number ++ rest) = some (Char.ofNat number, rest) := by
  have noHigh : ¬(0xd800 ≤ number ∧ number < 0xdc00) := by omega
  have noLow : ¬(0xdc00 ≤ number ∧ number < 0xe000) := by omega
  rw [character?_unitEscape, escapedUnits?, unit?_hexDigits small]
  simp [noHigh, noLow]

theorem character?_pair {above : Nat} (small : above < 0x100000) :
    character? (unitEscape (0xd800 + above / 0x400) ++ unitEscape (0xdc00 + above % 0x400) ++ rest) =
      some (Char.ofNat (0x10000 + above), rest) := by
  have high : 0xd800 ≤ 0xd800 + above / 0x400 ∧ 0xd800 + above / 0x400 < 0xdc00 := by omega
  have low : 0xdc00 ≤ 0xdc00 + above % 0x400 ∧ 0xdc00 + above % 0x400 < 0xe000 := by omega
  have whole : 0x10000 + 0x400 * (0xd800 + above / 0x400 - 0xd800) + (0xdc00 + above % 0x400 - 0xdc00) =
      0x10000 + above := by omega
  have second : (unitEscape (0xdc00 + above % 0x400) ++ rest).drop 2 = hexDigits 4 (0xdc00 + above % 0x400) ++ rest := rfl
  have escaped : ['\\', 'u'].isPrefixOf (unitEscape (0xdc00 + above % 0x400) ++ rest) = true := rfl
  rw [List.append_assoc, character?_unitEscape, escapedUnits?, unit?_hexDigits (by omega)]
  simp only [Option.bind_eq_bind, Option.bind_some]
  rw [if_pos high, if_pos escaped, second, unit?_hexDigits (by omega)]
  simp only [Option.bind_some]
  rw [if_pos low, whole]

theorem character?_escapedChar (c : Char) : character? (escapedChar c ++ rest) = some (c, rest) := by
  have scalar : c.toNat < 0xd800 ∨ 0xdfff < c.toNat ∧ c.toNat < 0x110000 := c.valid
  simp only [escapedChar]
  split_ifs with mark feed ret tab back form printable small
  · rcases mark with rfl | rfl <;> rfl
  · rw [feed]
    rfl
  · rw [ret]
    rfl
  · rw [tab]
    rfl
  · rw [back]
    rfl
  · rw [form]
    rfl
  · obtain ⟨noQuote, noBackslash⟩ := not_or.mp mark
    have noControl : ¬c.toNat < 0x20 := by omega
    simp [character?, noQuote, noBackslash, noControl]
  · rw [character?_single small (by omega), Char.ofNat_toNat]
  · have again : 0x10000 + (c.toNat - 0x10000) = c.toNat := by omega
    rw [character?_pair (by omega), again, Char.ofNat_toNat]

theorem readsText_escaped (chars rest : List Char) :
    ReadsText (chars.flatMap escapedChar ++ '"' :: rest) chars rest := by
  induction chars with
  | nil => exact .done
  | cons c more ih =>
    rw [List.flatMap_cons, List.append_assoc]
    exact .next (character?_escapedChar c) ih

/-! ### Integers -/

/-- No character that a number goes on with comes next. -/
def EndsNumber (rest : List Char) : Prop :=
  ∀ c, rest.head? = some c → c.isDigit = false ∧ c ≠ '.' ∧ c ≠ 'e' ∧ c ≠ 'E'

theorem digits?_toDigits (number : Nat) (ends : EndsNumber rest) :
    digits? (Nat.toDigits 10 number ++ rest) = some (Nat.toDigits 10 number, rest) := by
  have digits : ∀ c ∈ Nat.toDigits 10 number, c.isDigit = true :=
    fun c member => Nat.isDigit_of_mem_toDigits (by decide) (by decide) member
  have more : rest.takeWhile Char.isDigit = [] ∧ rest.dropWhile Char.isDigit = rest := by
    cases rest with
    | nil => exact ⟨rfl, rfl⟩
    | cons c rest => simp [ends c rfl]
  rw [digits?, List.takeWhile_append_of_pos digits, List.dropWhile_append_of_pos digits, more.1, more.2, List.append_nil,
    if_neg Nat.toDigits_ne_nil]

theorem unsigned?_toDigits (negative : Bool) (number : Nat) (ends : EndsNumber rest) :
    unsigned? negative (Nat.toDigits 10 number ++ rest) = some (.number (withSign negative number) 0, rest) := by
  have plain : (Nat.toDigits 10 number).head? ≠ some '0' ∨ Nat.toDigits 10 number = ['0'] := by
    by_cases zero : number = 0
    · subst zero
      exact Or.inr (Nat.toDigits_zero 10)
    · exact Or.inl fun leading => zero ((head_toDigits_eq_zero (by decide) (by decide) number).mp leading)
  have whole : whole? (Nat.toDigits 10 number ++ rest) = some (Nat.toDigits 10 number, rest) := by
    rw [whole?, digits?_toDigits number ends, Option.filter_some, if_pos (by simpa using plain)]
  have fraction : fraction? rest = some ([], rest) := if_neg fun point => (ends _ point).2.1 rfl
  have exponent : exponent? rest = some (0, rest) := by
    refine if_neg ?_
    rintro (lower | upper)
    · exact (ends _ lower).2.2.1 rfl
    · exact (ends _ upper).2.2.2 rfl
  simp [unsigned?, whole, fraction, exponent, placeValue_toDigits]

theorem literal?_eq_none {c : Char} (starts : c = '-' ∨ c.isDigit = true) : literal? (c :: rest) = none := by
  have other : 'n' ≠ c ∧ 't' ≠ c ∧ 'f' ≠ c := by
    refine ⟨?_, ?_, ?_⟩ <;> rintro rfl <;> simp at starts
  simp [literal?, other]

theorem atom?_toString (number : Int) (ends : EndsNumber rest) :
    atom? ((toString number).toList ++ rest) = some (.number number 0, rest) := by
  cases number with
  | ofNat size =>
    -- A digit comes first, so neither a literal nor a minus sign is read.
    obtain ⟨first, others, digits⟩ := List.exists_cons_of_ne_nil (Nat.toDigits_ne_nil (b := 10) (n := size))
    have digit : first.isDigit = true :=
      Nat.isDigit_of_mem_toDigits (b := 10) (n := size) (by decide) (by decide) (digits ▸ List.mem_cons_self)
    have unsigned : ¬((first :: (others ++ rest)).head? = some '-') := by
      rintro ⟨⟩
      cases digit
    have read := unsigned?_toDigits false size ends
    rw [digits] at read
    rw [toString_ofNat, digits, List.cons_append, atom?, literal?_eq_none (Or.inr digit), number?, if_neg unsigned]
    exact read
  | negSucc size =>
    rw [toString_negSucc, List.cons_append, atom?, literal?_eq_none (Or.inl rfl)]
    exact unsigned?_toDigits true (size + 1) ends

/-! ### Documents -/

theorem sizeOf_field_lt {fields : List (String × Json)} {field : String × Json} (member : field ∈ fields) :
    sizeOf field.2 < sizeOf fields := by
  have smaller := List.sizeOf_lt_of_mem member
  rw [Prod.mk.sizeOf_spec] at smaller
  omega

/-- What a document holds. -/
def reading : Json → Reading
  | .text content => .text content
  | .integer number => .number number 0
  | .list items => .list (items.map reading)
  | .object fields => .object (fields.map fun field => (field.1, field.2.reading))
decreasing_by
  · decreasing_tactic
  · rename_i member
    have smaller := sizeOf_field_lt member
    simp only [object.sizeOf_spec]
    omega

theorem json_induction {P : Json → Prop} (text : ∀ content, P (.text content)) (integer : ∀ number, P (.integer number))
    (list : ∀ items, (∀ item ∈ items, P item) → P (.list items))
    (object : ∀ fields, (∀ field ∈ fields, P field.2) → P (.object fields)) : ∀ json, P json
  | .text content => text content
  | .integer number => integer number
  | .list items => list items fun item _ => json_induction text integer list object item
  | .object fields => object fields fun field member =>
    have := sizeOf_field_lt member
    json_induction text integer list object field.2

theorem Derives.skip_eq {given : List Char} {reading : Reading} (derives : Derives (.value reading) given rest) :
    skip given = given := by
  cases given with
  | nil => rfl
  | cons c chars =>
    have visible : c ∉ blanks := fun blank => not_value (List.mem_append_left _ blank) derives
    simp [skip, visible]

theorem skip_newLine (depth : Nat) (chars : List Char) : skip (newLine depth ++ chars) = skip chars := by
  have blank : ∀ c ∈ newLine depth, decide (c ∈ blanks) = true := by
    simp [newLine, blanks]
  rw [skip, List.dropWhile_append_of_pos blank, skip]

theorem endsNumber_cons {c : Char} (ends : c.isDigit = false ∧ c ≠ '.' ∧ c ≠ 'e' ∧ c ≠ 'E') (more : List Char) :
    EndsNumber (c :: more) := by
  rintro _ ⟨⟩
  exact ends

/-! ### Rendering -/

section
variable {item : Json} {items : List Json} {field : String × Json} {fields : List (String × Json)} {depth : Nat}
  {chars : List Char} {number : Int}

theorem render?_integer : (integer number).render? depth = some chars ↔
    FitsText number ∧ chars = (toString number).toList := by
  simp only [render?, Option.map_eq_some_iff, text?_eq_some]
  constructor
  · rintro ⟨text, ⟨fits, rfl⟩, rfl⟩
    exact ⟨fits, rfl⟩
  · rintro ⟨fits, rfl⟩
    exact ⟨_, ⟨fits, rfl⟩, rfl⟩

theorem renderItems?_cons : renderItems? depth (item :: items) = some chars ↔
    ∃ next others, item.render? depth = some next ∧ renderItems? depth items = some others ∧
      chars = ',' :: (newLine depth ++ (next ++ others)) := by
  simp [renderItems?, Option.bind_eq_some_iff, eq_comm (a := chars)]

theorem render?_list : (list (item :: items)).render? depth = some chars ↔
    ∃ next others, item.render? (depth + 1) = some next ∧ renderItems? (depth + 1) items = some others ∧
      chars = '[' :: (newLine (depth + 1) ++ (next ++ (others ++ (newLine depth ++ [']'])))) := by
  simp [render?, Option.bind_eq_some_iff, eq_comm (a := chars)]

theorem renderFields?_cons : renderFields? depth (field :: fields) = some chars ↔
    ∃ next others, field.2.render? depth = some next ∧ renderFields? depth fields = some others ∧
      chars = ',' :: (newLine depth ++ (quotedText field.1 ++ (':' :: ' ' :: (next ++ others)))) := by
  simp [renderFields?, Option.bind_eq_some_iff, eq_comm (a := chars)]

theorem render?_object : (object (field :: fields)).render? depth = some chars ↔
    ∃ next others, field.2.render? (depth + 1) = some next ∧ renderFields? (depth + 1) fields = some others ∧
      chars = '\x7b' :: (newLine (depth + 1) ++ (quotedText field.1 ++ (':' :: ' ' ::
        (next ++ (others ++ (newLine depth ++ ['\x7d'])))))) := by
  simp [render?, Option.bind_eq_some_iff, eq_comm (a := chars)]

end

/-- Every integer of a document has not too many digits. -/
def FitsText : Json → Prop
  | .text _ => True
  | .integer number => Numeral.FitsText number
  | .list items => ∀ item ∈ items, item.FitsText
  | .object fields => ∀ field ∈ fields, field.2.FitsText
decreasing_by
  · decreasing_tactic
  · rename_i member
    have smaller := sizeOf_field_lt member
    simp only [object.sizeOf_spec]
    omega

/-- Two parts are joined exactly if there are both. -/
theorem exists_joined {Part Rest : List Char → Prop} (join : List Char → List Char → List Char) :
    (∃ chars next others, Part next ∧ Rest others ∧ chars = join next others) ↔
      (∃ next, Part next) ∧ ∃ others, Rest others := by
  constructor
  · rintro ⟨chars, next, others, part, rest, rfl⟩
    exact ⟨⟨next, part⟩, others, rest⟩
  · rintro ⟨⟨next, part⟩, others, rest⟩
    exact ⟨_, next, others, part, rest, rfl⟩

theorem exists_renderItems? {items : List Json} {depth : Nat}
    (each : ∀ item ∈ items, (∃ chars, item.render? depth = some chars) ↔ item.FitsText) :
    (∃ chars, renderItems? depth items = some chars) ↔ ∀ item ∈ items, item.FitsText := by
  induction items with
  | nil => simp [renderItems?]
  | cons item rest ih =>
    obtain ⟨here, later⟩ := List.forall_mem_cons.mp each
    rw [List.forall_mem_cons, ← here, ← ih later]
    simp only [renderItems?_cons]
    exact exists_joined _

theorem exists_renderFields? {fields : List (String × Json)} {depth : Nat}
    (each : ∀ field ∈ fields, (∃ chars, field.2.render? depth = some chars) ↔ field.2.FitsText) :
    (∃ chars, renderFields? depth fields = some chars) ↔ ∀ field ∈ fields, field.2.FitsText := by
  induction fields with
  | nil => simp [renderFields?]
  | cons field rest ih =>
    obtain ⟨here, later⟩ := List.forall_mem_cons.mp each
    rw [List.forall_mem_cons, ← here, ← ih later]
    simp only [renderFields?_cons]
    exact exists_joined _

/-- A value is written exactly if all its integers are. -/
theorem exists_render? (json : Json) (depth : Nat) : (∃ chars, json.render? depth = some chars) ↔ json.FitsText := by
  induction json using json_induction generalizing depth with
  | text content => simp [render?, FitsText]
  | integer number => simp [render?_integer, FitsText]
  | list items ih =>
    cases items with
    | nil => simp [render?, FitsText]
    | cons first others =>
      obtain ⟨here, later⟩ := List.forall_mem_cons.mp ih
      have behind := exists_renderItems? fun item member => later item member (depth + 1)
      rw [FitsText, List.forall_mem_cons, ← here (depth + 1), ← behind]
      simp only [render?_list]
      exact exists_joined _
  | object fields ih =>
    cases fields with
    | nil => simp [render?, FitsText]
    | cons first others =>
      obtain ⟨here, later⟩ := List.forall_mem_cons.mp ih
      have behind := exists_renderFields? fun field member => later field member (depth + 1)
      rw [FitsText, List.forall_mem_cons, ← here (depth + 1), ← behind]
      simp only [render?_object]
      exact exists_joined _

/-! ### Reading back -/

/-- What a document is written as holds it, whatever comes next. -/
def Legible (json : Json) : Prop :=
  ∀ depth chars rest, json.render? depth = some chars → EndsNumber rest →
    Derives (.value json.reading) (chars ++ rest) rest

theorem Legible.onNewLine {json : Json} (legible : json.Legible) {depth : Nat} {chars : List Char}
    (written : json.render? depth = some chars) (ends : EndsNumber rest) :
    Derives (.value json.reading) (skip (newLine depth ++ (chars ++ rest))) rest := by
  have value := legible depth chars rest written ends
  rw [skip_newLine, value.skip_eq]
  exact value

theorem readsText_quotedText (content : String) (rest : List Char) :
    ∃ chars, quotedText content ++ rest = '"' :: chars ∧ ReadsText chars content.toList rest :=
  ⟨content.toList.flatMap escapedChar ++ '"' :: rest, by simp [quotedText], readsText_escaped content.toList rest⟩

theorem legible_text (content : String) : (text content).Legible := by
  intro depth chars rest written ends
  obtain rfl : quotedText content = chars := by simpa [render?] using written
  obtain ⟨chars, quoted, read⟩ := readsText_quotedText content rest
  have value := Derives.text read
  rw [String.ofList_toList, ← quoted] at value
  rw [reading]
  exact value

theorem derives_items {first : Json} {others : List Json} (legible : ∀ item ∈ first :: others, item.Legible)
    {depth : Nat} {next behind : List Char} (written : first.render? depth = some next)
    (more : renderItems? depth others = some behind) (outer : Nat) (rest : List Char) :
    Derives (.items ((first :: others).map reading))
      (newLine depth ++ (next ++ (behind ++ (newLine outer ++ ']' :: rest)))) rest := by
  obtain ⟨here, later⟩ := List.forall_mem_cons.mp legible
  induction others generalizing first next behind with
  | nil =>
    obtain rfl : [] = behind := by simpa [renderItems?] using more
    have close : skip (newLine outer ++ ']' :: rest) = ']' :: rest := skip_newLine outer (']' :: rest)
    exact .lastItem (here.onNewLine written (endsNumber_cons (by decide) _)) close
  | cons second others ih =>
    obtain ⟨following, last, written', more', rfl⟩ := renderItems?_cons.mp more
    obtain ⟨onward, remaining⟩ := List.forall_mem_cons.mp later
    have items := ih later written' more' onward remaining
    have joined : ',' :: (newLine depth ++ (following ++ last)) ++ (newLine outer ++ ']' :: rest) =
        ',' :: (newLine depth ++ (following ++ (last ++ (newLine outer ++ ']' :: rest)))) := by simp
    rw [joined]
    exact .nextItem (here.onNewLine written (endsNumber_cons (by decide) _)) rfl items

theorem derives_field {name : String} {json : Json} (legible : json.Legible) {depth : Nat} {chars : List Char}
    (written : json.render? depth = some chars) (ends : EndsNumber rest) :
    Derives (.field (name, json.reading))
      (skip (newLine depth ++ (quotedText name ++ (':' :: ' ' :: (chars ++ rest))))) rest := by
  obtain ⟨quoted, quoted_eq, read⟩ := readsText_quotedText name (':' :: ' ' :: (chars ++ rest))
  have value := legible depth chars rest written ends
  have given : skip (' ' :: (chars ++ rest)) = chars ++ rest := value.skip_eq
  have field := Derives.field read rfl (given.symm ▸ value)
  rw [String.ofList_toList] at field
  rw [skip_newLine, quoted_eq]
  exact field

theorem derives_fields {first : String × Json} {others : List (String × Json)}
    (legible : ∀ field ∈ first :: others, field.2.Legible) {depth : Nat} {next behind : List Char}
    (written : first.2.render? depth = some next) (more : renderFields? depth others = some behind)
    (outer : Nat) (rest : List Char) :
    Derives (.fields ((first :: others).map fun field => (field.1, field.2.reading)))
      (newLine depth ++ (quotedText first.1 ++ (':' :: ' ' :: (next ++
        (behind ++ (newLine outer ++ '\x7d' :: rest)))))) rest := by
  obtain ⟨here, later⟩ := List.forall_mem_cons.mp legible
  induction others generalizing first next behind with
  | nil =>
    obtain rfl : [] = behind := by simpa [renderFields?] using more
    have close : skip (newLine outer ++ '\x7d' :: rest) = '\x7d' :: rest := skip_newLine outer ('\x7d' :: rest)
    exact .lastField (derives_field here written (endsNumber_cons (by decide) _)) close
  | cons second others ih =>
    obtain ⟨following, last, written', more', rfl⟩ := renderFields?_cons.mp more
    obtain ⟨onward, remaining⟩ := List.forall_mem_cons.mp later
    have fields := ih later written' more' onward remaining
    have joined : ',' :: (newLine depth ++ (quotedText second.1 ++ (':' :: ' ' :: (following ++ last)))) ++
        (newLine outer ++ '\x7d' :: rest) =
        ',' :: (newLine depth ++ (quotedText second.1 ++ (':' :: ' ' :: (following ++
          (last ++ (newLine outer ++ '\x7d' :: rest)))))) := by simp
    rw [joined]
    exact .nextField (derives_field here written (endsNumber_cons (by decide) _)) rfl fields

theorem legible (json : Json) : json.Legible := by
  induction json using json_induction with
  | text content => exact legible_text content
  | integer number =>
    intro depth chars rest written ends
    obtain ⟨-, rfl⟩ := render?_integer.mp written
    rw [reading]
    exact .atom (atom?_toString number ends)
  | list items ih =>
    intro depth chars rest written ends
    rw [reading]
    cases items with
    | nil =>
      obtain rfl : ['[', ']'] = chars := by simpa [render?] using written
      exact .emptyList rfl
    | cons first others =>
      obtain ⟨next, behind, written', more, rfl⟩ := render?_list.mp written
      have items := derives_items ih written' more depth rest
      simpa using Derives.list items
  | object fields ih =>
    intro depth chars rest written ends
    rw [reading]
    cases fields with
    | nil =>
      obtain rfl : ['\x7b', '\x7d'] = chars := by simpa [render?] using written
      exact .emptyObject rfl
    | cons first others =>
      obtain ⟨next, behind, written', more, rfl⟩ := render?_object.mp written
      have fields := derives_fields ih written' more depth rest
      simpa using Derives.object fields

theorem document?_holds {json : Json} {document : String} (written : json.document? = some document) :
    Holds document json.reading := by
  obtain ⟨chars, rendered, rfl⟩ := Option.map_eq_some_iff.mp written
  have value := legible json 0 chars [] rendered (fun _ none => nomatch none)
  refine ⟨[], ?_, rfl⟩
  rw [String.toList_ofList, ← List.append_nil chars, value.skip_eq]
  exact value

theorem document?_holds_iff {json : Json} {document : String} (written : json.document? = some document)
    {other : Reading} : Holds document other ↔ other = json.reading :=
  ⟨(document?_holds written).unique, (· ▸ document?_holds written)⟩

theorem exists_document? (json : Json) : (∃ document, json.document? = some document) ↔ json.FitsText := by
  simp [document?, ← exists_render? json 0]

/-! ### The characters of a document -/

/-- A line feed or a printable character of ASCII. -/
def IsPlain (c : Char) : Prop := c = '\n' ∨ 0x20 ≤ c.toNat ∧ c.toNat ≤ 0x7e

instance (c : Char) : Decidable (IsPlain c) := inferInstanceAs (Decidable (_ ∨ _))

theorem isPlain_two {first second : Char} (hfirst : IsPlain first) (hsecond : IsPlain second) :
    ∀ c ∈ [first, second], IsPlain c := by
  simp [hfirst, hsecond]

theorem isPlain_unitEscape {number : Nat} (small : number < 0x10000) : ∀ c ∈ unitEscape number, IsPlain c := by
  have digit : ∀ digit < 16, IsPlain digit.digitChar := by decide
  rw [unitEscape, hexDigits_four small]
  simp only [List.forall_mem_cons]
  refine ⟨by decide, by decide, digit _ ?_, digit _ ?_, digit _ ?_, digit _ ?_, by simp⟩ <;> omega

theorem isPlain_escapedChar (c : Char) : ∀ c' ∈ escapedChar c, IsPlain c' := by
  have scalar : c.toNat < 0xd800 ∨ 0xdfff < c.toNat ∧ c.toNat < 0x110000 := c.valid
  simp only [escapedChar]
  split_ifs with mark feed ret tab back form printable small
  · rcases mark with rfl | rfl <;> exact isPlain_two (by decide) (by decide)
  · exact isPlain_two (by decide) (by decide)
  · exact isPlain_two (by decide) (by decide)
  · exact isPlain_two (by decide) (by decide)
  · exact isPlain_two (by decide) (by decide)
  · exact isPlain_two (by decide) (by decide)
  · simpa [IsPlain] using Or.inr printable
  · exact isPlain_unitEscape small
  · exact List.forall_mem_append.mpr ⟨isPlain_unitEscape (by omega), isPlain_unitEscape (by omega)⟩

theorem isPlain_quotedText (content : String) : ∀ c ∈ quotedText content, IsPlain c := by
  have inside : ∀ c ∈ content.toList.flatMap escapedChar, IsPlain c := by
    intro c member
    obtain ⟨source, -, escaped⟩ := List.mem_flatMap.mp member
    exact isPlain_escapedChar source c escaped
  have close : ∀ c ∈ ['"'], IsPlain c := List.forall_mem_singleton.mpr (by decide)
  exact List.forall_mem_cons.mpr ⟨by decide, List.forall_mem_append.mpr ⟨inside, close⟩⟩

theorem isPlain_toString (number : Int) : ∀ c ∈ (toString number).toList, IsPlain c := by
  have digits (size : Nat) : ∀ c ∈ Nat.toDigits 10 size, IsPlain c := by
    intro c member
    have digit := Nat.isDigit_of_mem_toDigits (by decide) (by decide) member
    obtain ⟨low, high⟩ := Char.isDigit_iff_toNat.mp digit
    change 0x30 ≤ c.toNat at low
    change c.toNat ≤ 0x39 at high
    exact Or.inr (by omega)
  cases number with
  | ofNat size =>
    rw [toString_ofNat]
    exact digits size
  | negSucc size =>
    rw [toString_negSucc]
    exact List.forall_mem_cons.mpr ⟨by decide, digits (size + 1)⟩

theorem isPlain_newLine (depth : Nat) : ∀ c ∈ newLine depth, IsPlain c := by
  refine List.forall_mem_cons.mpr ⟨by decide, fun c member => ?_⟩
  rw [List.eq_of_mem_replicate member]
  decide

theorem isPlain_renderItems? {items : List Json} {depth : Nat}
    (plain : ∀ item ∈ items, ∀ chars, item.render? depth = some chars → ∀ c ∈ chars, IsPlain c) {chars : List Char}
    (written : renderItems? depth items = some chars) : ∀ c ∈ chars, IsPlain c := by
  induction items generalizing chars with
  | nil =>
    obtain rfl : [] = chars := by simpa [renderItems?] using written
    exact List.forall_mem_nil _
  | cons item rest ih =>
    obtain ⟨here, later⟩ := List.forall_mem_cons.mp plain
    obtain ⟨next, others, written', more, rfl⟩ := renderItems?_cons.mp written
    simp only [List.forall_mem_append, List.forall_mem_cons]
    exact ⟨by decide, isPlain_newLine depth, here next written', ih later more⟩

theorem isPlain_renderFields? {fields : List (String × Json)} {depth : Nat}
    (plain : ∀ field ∈ fields, ∀ chars, field.2.render? depth = some chars → ∀ c ∈ chars, IsPlain c)
    {chars : List Char} (written : renderFields? depth fields = some chars) : ∀ c ∈ chars, IsPlain c := by
  induction fields generalizing chars with
  | nil =>
    obtain rfl : [] = chars := by simpa [renderFields?] using written
    exact List.forall_mem_nil _
  | cons field rest ih =>
    obtain ⟨here, later⟩ := List.forall_mem_cons.mp plain
    obtain ⟨next, others, written', more, rfl⟩ := renderFields?_cons.mp written
    simp only [List.forall_mem_append, List.forall_mem_cons]
    exact ⟨by decide, isPlain_newLine depth, isPlain_quotedText field.1, by decide, by decide, here next written',
      ih later more⟩

theorem isPlain_render? (json : Json) {depth : Nat} {chars : List Char} (written : json.render? depth = some chars) :
    ∀ c ∈ chars, IsPlain c := by
  induction json using json_induction generalizing depth chars with
  | text content =>
    obtain rfl : quotedText content = chars := by simpa [render?] using written
    exact isPlain_quotedText content
  | integer number =>
    obtain ⟨-, rfl⟩ := render?_integer.mp written
    exact isPlain_toString number
  | list items ih =>
    cases items with
    | nil =>
      obtain rfl : ['[', ']'] = chars := by simpa [render?] using written
      exact isPlain_two (by decide) (by decide)
    | cons first others =>
      obtain ⟨here, later⟩ := List.forall_mem_cons.mp ih
      obtain ⟨next, behind, written', more, rfl⟩ := render?_list.mp written
      have plain := isPlain_renderItems? (fun item member _ written => later item member written) more
      simp only [List.forall_mem_append, List.forall_mem_cons]
      exact ⟨by decide, isPlain_newLine (depth + 1), here written', plain, isPlain_newLine depth, by decide, by simp⟩
  | object fields ih =>
    cases fields with
    | nil =>
      obtain rfl : ['\x7b', '\x7d'] = chars := by simpa [render?] using written
      exact isPlain_two (by decide) (by decide)
    | cons first others =>
      obtain ⟨here, later⟩ := List.forall_mem_cons.mp ih
      obtain ⟨next, behind, written', more, rfl⟩ := render?_object.mp written
      have plain := isPlain_renderFields? (fun field member _ written => later field member written) more
      simp only [List.forall_mem_append, List.forall_mem_cons]
      exact ⟨by decide, isPlain_newLine (depth + 1), isPlain_quotedText first.1, by decide, by decide, here written',
        plain, isPlain_newLine depth, by decide, by simp⟩

end
end Json
end EsilLowering
