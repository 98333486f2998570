import Mathlib.Data.List.Basic
import Mathlib.Data.List.TakeWhile
import EsilLowering.CommandLine.Run

/-! # Expressions among lines

What a line holds is found without the blanks around it, so a break that is a blank itself makes a
difference only between two characters that are kept. A text is cut at common breaks alone, or at wide ones
as well. Both ways find the same expressions exactly if no wide break stands inside an expression, and no
part of a comment after one is an expression. -/

namespace EsilLowering

/-- A list with separators is built up from its end, one separator at a time, each with what stands before
it up to the one before. -/
theorem splitOnP_induction {α : Type} {p : α → Bool} {P : List α → Prop}
    (whole : ∀ xs, (∀ x ∈ xs, p x = false) → P xs)
    (cut : ∀ xs separator ys, (∀ x ∈ xs, p x = false) → p separator = true → P ys → P (xs ++ separator :: ys))
    (xs : List α) : P xs := by
  suffices h : ∀ before, (∀ x ∈ before, p x = false) → P (before ++ xs) from h [] (by simp)
  induction xs with
  | nil =>
    intro before none
    rw [List.append_nil]
    exact whole before none
  | cons x rest ih =>
    intro before none
    cases separates : p x with
    | true => exact cut before x rest none separates (ih [] (by simp))
    | false =>
      rw [List.append_cons]
      refine ih _ fun y member => ?_
      rcases List.mem_append.mp member with old | new
      · exact none y old
      · rw [List.mem_singleton.mp new]
        exact separates

theorem of_mem_splitOnP {α : Type} {p : α → Bool} {xs part : List α} (h : part ∈ xs.splitOnP p) :
    (∀ x ∈ part, p x = false) ∧ ∀ x ∈ part, x ∈ xs := by
  induction xs using splitOnP_induction (p := p) with
  | whole xs none =>
    rw [List.splitOnP_eq_singleton none, List.mem_singleton] at h
    subst h
    exact ⟨none, fun _ => id⟩
  | cut xs separator ys none separates ih =>
    rw [List.splitOnP_append_cons_of_forall_mem none separator separates] at h
    rcases List.mem_cons.mp h with rfl | later
    · exact ⟨none, fun x member => List.mem_append_left _ member⟩
    · obtain ⟨none', member'⟩ := ih later
      exact ⟨none', fun x member => List.mem_append_right _ (List.mem_cons_of_mem _ (member' x member))⟩

/-- To cut after a change is to change the parts of a cut at what the change makes a separator. -/
theorem splitOnP_map {α β : Type} (f : α → β) (p : β → Bool) (xs : List α) :
    (xs.map f).splitOnP p = (xs.splitOnP fun x => p (f x)).map (List.map f) := by
  induction xs with
  | nil => rfl
  | cons x rest ih =>
    rw [List.map_cons, List.splitOnP_cons_eq_if_modifyHead, List.splitOnP_cons_eq_if_modifyHead, ih]
    split
    · rfl
    · cases rest.splitOnP fun x => p (f x) <;> rfl

namespace Text

/-! ### Blanks -/

section
variable {test : Char → Bool} {chars more : List Char}

theorem trimmed_cons {c : Char} (blank : test c = true) : trimmed test (c :: chars) = trimmed test chars := by
  rw [trimmed, List.dropWhile_cons_of_pos blank, trimmed]

theorem trimmed_append (blank : ∀ c ∈ more, test c = true) : trimmed test (chars ++ more) = trimmed test chars := by
  have none : more.dropWhile test = [] := List.dropWhile_eq_nil_iff.mpr blank
  have backward : ∀ c ∈ more.reverse, test c = true := fun c member => blank c (List.mem_reverse.mp member)
  simp only [trimmed]
  rw [List.dropWhile_append]
  split
  · rename_i empty
    rw [none, List.isEmpty_iff.mp empty]
  · rw [List.reverse_append, List.dropWhile_append_of_pos backward]

theorem trimmed_between {before after : List Char} (leading : ∀ c ∈ before, test c = true)
    (trailing : ∀ c ∈ after, test c = true) : trimmed test (before ++ chars ++ after) = trimmed test chars := by
  rw [trimmed_append trailing, trimmed, List.dropWhile_append_of_pos leading, trimmed]

theorem trimmed_eq_self (first : ∀ c ∈ chars.head?, test c = false) (last : ∀ c ∈ chars.getLast?, test c = false) :
    trimmed test chars = chars := by
  have kept {chars : List Char} (first : ∀ c ∈ chars.head?, test c = false) : chars.dropWhile test = chars := by
    cases chars with
    | nil => rfl
    | cons c rest => exact List.dropWhile_cons_of_neg (by simp [first c rfl])
  have back : ∀ c ∈ chars.reverse.head?, test c = false := by
    rw [List.head?_reverse]
    exact last
  rw [trimmed, kept first, kept back, List.reverse_reverse]

/-- What comes first and is no blank stays first. -/
theorem trimmed_cons_of_visible {c : Char} (visible : test c = false) (chars : List Char) :
    ∃ rest, trimmed test (c :: chars) = c :: rest := by
  have stays : (c :: chars).dropWhile test = c :: chars := List.dropWhile_cons_of_neg (by simp [visible])
  rw [trimmed, stays, List.reverse_cons, List.dropWhile_append]
  split
  · exact ⟨[], by simp [visible]⟩
  · exact ⟨_, by rw [List.reverse_append]; rfl⟩

/-- A text is what is left of it between blanks. -/
theorem eq_trimmed_between (test : Char → Bool) (chars : List Char) :
    ∃ before after, chars = before ++ trimmed test chars ++ after ∧ (∀ c ∈ before, test c = true) ∧
      ∀ c ∈ after, test c = true := by
  refine ⟨chars.takeWhile test, ((chars.dropWhile test).reverse.takeWhile test).reverse, ?_,
    fun c => List.mem_takeWhile_imp, fun c member => List.mem_takeWhile_imp (List.mem_reverse.mp member)⟩
  rw [trimmed, List.append_assoc, ← List.reverse_append, List.takeWhile_append_dropWhile, List.reverse_reverse,
    List.takeWhile_append_dropWhile]

end

/-- A text with a line feed in place of every wide break. -/
def narrowBreaks (text : String) : String :=
  String.ofList (text.toList.map fun c => if isWideBreak c then '\n' else c)

/-- Breaks are unified only from the first carriage return on. -/
theorem unifyBreaks_append {chars : List Char} (none : '\r' ∉ chars) (more : List Char) :
    unifyBreaks (chars ++ more) = chars ++ unifyBreaks more := by
  induction chars with
  | nil => rfl
  | cons c rest ih =>
    have other : c ≠ '\r' := fun same => none (same ▸ List.mem_cons_self)
    rw [List.cons_append, unifyBreaks, if_neg other, ih fun member => none (List.mem_cons_of_mem c member)]
    · rfl
    · exact fun _ same => absurd same other

/-- A text without carriage returns has common breaks only where it has line feeds. -/
theorem unifyBreaks_eq_self {chars : List Char} (none : '\r' ∉ chars) : unifyBreaks chars = chars := by
  have whole := unifyBreaks_append none []
  rwa [unifyBreaks, List.append_nil] at whole

end Text

namespace CommandLine

/-! ### Expressions -/

/-- The expressions among the parts of a text between wide breaks. -/
def wideExpressions (chars : List Char) : List String :=
  expressionsOfLines ((chars.splitOnP Text.isWideBreak).map String.ofList)

/-- Both ways to cut a text take a line alike: there is no wide break in what is left of it without blanks,
or neither it nor any part of it is an expression. -/
def TakenAlike (line : String) : Prop :=
  (∀ c ∈ (Text.trim line).toList, Text.isWideBreak c = false) ∨
    expressionsOfLines [line] = [] ∧ expressionsOfLines (Text.wideLines line) = []

instance (line : String) : Decidable (TakenAlike line) :=
  have : Decidable (∀ c ∈ (Text.trim line).toList, Text.isWideBreak c = false) := List.decidableBAll _ _
  inferInstanceAs (Decidable (_ ∨ _))

section
variable {line : String} {lines more : List String} {chars before after core : List Char}

theorem expressionsOfLines_append (lines more : List String) :
    expressionsOfLines (lines ++ more) = expressionsOfLines lines ++ expressionsOfLines more := by
  simp [expressionsOfLines]

theorem expressionsOfLines_eq_flatMap (lines : List String) :
    expressionsOfLines lines = lines.flatMap fun line => expressionsOfLines [line] := by
  induction lines with
  | nil => rfl
  | cons line rest ih => rw [List.flatMap_cons, ← ih, ← expressionsOfLines_append, List.singleton_append]

/-- A line gives what is left of it without blanks, or nothing. -/
theorem expressionsOfLines_singleton (line : String) :
    expressionsOfLines [line] = [] ∨ expressionsOfLines [line] = [Text.trim line] := by
  simp only [expressionsOfLines, List.map_singleton, List.filter_cons, List.filter_nil]
  split
  · exact Or.inr rfl
  · exact Or.inl rfl

theorem expressionsOfLines_congr {other : String} (same : Text.trim line = Text.trim other) :
    expressionsOfLines [line] = expressionsOfLines [other] := by
  simp only [expressionsOfLines, List.map_singleton, same]

/-! ### Parts between wide breaks -/

theorem wideExpressions_append_cons {c : Char} (breaks : Text.isWideBreak c = true) (before after : List Char) :
    wideExpressions (before ++ c :: after) = wideExpressions before ++ wideExpressions after := by
  rw [wideExpressions, List.splitOnP_append_cons before after breaks, List.map_append, expressionsOfLines_append]
  rfl

theorem wideExpressions_whole (none : ∀ c ∈ chars, Text.isWideBreak c = false) :
    wideExpressions chars = expressionsOfLines [String.ofList chars] := by
  rw [wideExpressions, List.splitOnP_eq_singleton none, List.map_singleton]

theorem wideExpressions_nil : wideExpressions [] = [] := by
  decide

theorem wideExpressions_cons_blank {c : Char} (blank : Text.isBlank c = true) :
    wideExpressions (c :: chars) = wideExpressions chars := by
  cases breaks : Text.isWideBreak c with
  | true =>
    have cut := wideExpressions_append_cons breaks [] chars
    rwa [wideExpressions_nil, List.nil_append, List.nil_append] at cut
  | false =>
    obtain ⟨first, rest, split⟩ := List.exists_cons_of_ne_nil (List.splitOnP_ne_nil Text.isWideBreak chars)
    have same : Text.trim (String.ofList (c :: first)) = Text.trim (String.ofList first) := by
      simp only [Text.trim, String.toList_ofList, Text.trimmed_cons blank]
    rw [wideExpressions, wideExpressions, List.splitOnP_cons_eq_if_modifyHead, breaks, split]
    change expressionsOfLines ([String.ofList (c :: first)] ++ rest.map String.ofList) =
      expressionsOfLines ([String.ofList first] ++ rest.map String.ofList)
    rw [expressionsOfLines_append, expressionsOfLines_append, expressionsOfLines_congr same]

theorem wideExpressions_append_blank {c : Char} (blank : Text.isBlank c = true) :
    wideExpressions (chars ++ [c]) = wideExpressions chars := by
  induction chars using splitOnP_induction (p := Text.isWideBreak) with
  | cut part separator rest none separates ih =>
    rw [List.append_assoc, List.cons_append, wideExpressions_append_cons separates, ih,
      wideExpressions_append_cons separates]
  | whole chars none =>
    cases breaks : Text.isWideBreak c with
    | true => rw [wideExpressions_append_cons breaks, wideExpressions_nil, List.append_nil]
    | false =>
      have still : ∀ other ∈ chars ++ [c], Text.isWideBreak other = false := by
        simpa [or_imp, forall_and] using And.intro none breaks
      rw [wideExpressions_whole still, wideExpressions_whole none]
      apply expressionsOfLines_congr
      simp only [Text.trim, String.toList_ofList]
      rw [Text.trimmed_append (by simpa using blank)]

theorem wideExpressions_between (leading : ∀ c ∈ before, Text.isBlank c = true)
    (trailing : ∀ c ∈ after, Text.isBlank c = true) :
    wideExpressions (before ++ chars ++ after) = wideExpressions chars := by
  have front : wideExpressions (before ++ chars) = wideExpressions chars := by
    induction before with
    | nil => rfl
    | cons c rest ih =>
      obtain ⟨blank, leading⟩ := List.forall_mem_cons.mp leading
      rw [List.cons_append, wideExpressions_cons_blank blank, ih leading]
  rw [← front]
  generalize before ++ chars = chars
  induction after generalizing chars with
  | nil => rw [List.append_nil]
  | cons c rest ih =>
    obtain ⟨blank, trailing⟩ := List.forall_mem_cons.mp trailing
    rw [List.append_cons, ih trailing, wideExpressions_append_blank blank]

/-- A line with no wide break between two characters that are kept is one expression at most. -/
theorem wideExpressions_of_narrow (narrow : ∀ c ∈ Text.trimmed Text.isBlank chars, Text.isWideBreak c = false) :
    wideExpressions chars = expressionsOfLines [String.ofList chars] := by
  obtain ⟨before, after, whole, leading, trailing⟩ := Text.eq_trimmed_between Text.isBlank chars
  generalize Text.trimmed Text.isBlank chars = core at narrow whole
  subst whole
  rw [wideExpressions_between leading trailing, wideExpressions_whole narrow]
  apply expressionsOfLines_congr
  simp only [Text.trim, String.toList_ofList]
  rw [Text.trimmed_between leading trailing]

/-! ### Two ways to cut a text -/

theorem wideExpressions_unifyBreaks (chars : List Char) :
    wideExpressions (Text.unifyBreaks chars) = wideExpressions chars := by
  -- What stands before is generalised: it may end in the middle of a line.
  suffices h : ∀ before, wideExpressions (before ++ Text.unifyBreaks chars) = wideExpressions (before ++ chars) from
    h []
  induction chars using Text.unifyBreaks.induct with
  | case1 => exact fun _ => rfl
  | case2 rest ih =>
    intro before
    have feed : wideExpressions ('\n' :: rest) = wideExpressions rest := wideExpressions_cons_blank (by decide)
    have unified : wideExpressions (Text.unifyBreaks rest) = wideExpressions rest := ih []
    rw [Text.unifyBreaks, wideExpressions_append_cons (by decide), wideExpressions_append_cons (by decide), feed,
      unified]
  | case3 c rest unpaired ih =>
    intro before
    rw [Text.unifyBreaks]
    · split
      next returns =>
        have unified : wideExpressions (Text.unifyBreaks rest) = wideExpressions rest := ih []
        subst returns
        rw [wideExpressions_append_cons (by decide), wideExpressions_append_cons (by decide), unified]
      next =>
        rw [List.append_cons, ih, ← List.append_cons]
    · exact unpaired

theorem wideExpressions_eq_flatMap (chars : List Char) :
    wideExpressions chars = (chars.splitOn '\n').flatMap wideExpressions := by
  induction chars using splitOnP_induction (p := (· == '\n')) with
  | whole chars none => rw [List.splitOn, List.splitOnP_eq_singleton none, List.flatMap_singleton]
  | cut part separator rest none separates ih =>
    rw [List.splitOn, List.splitOnP_append_cons_of_forall_mem none separator separates, List.flatMap_cons,
      beq_iff_eq.mp separates, wideExpressions_append_cons (by decide), ih, List.splitOn]

theorem expressionsOfLines_wideLines (text : String) :
    expressionsOfLines (Text.wideLines text) = wideExpressions text.toList :=
  wideExpressions_unifyBreaks text.toList

/-- A text cut at wide breaks comes to the same as one cut at common breaks that has line feeds in their
place. -/
theorem expressionsOfLines_narrowBreaks (text : String) :
    expressionsOfLines (Text.commonLines (Text.narrowBreaks text)) = expressionsOfLines (Text.wideLines text) := by
  let narrow (c : Char) : Char := if Text.isWideBreak c then '\n' else c
  have feeds : (fun c => narrow c == '\n') = Text.isWideBreak := by
    funext c
    cases breaks : Text.isWideBreak c with
    | true => simp [narrow, breaks]
    | false =>
      have other : c ≠ '\n' := by
        rintro rfl
        cases breaks
      simp [narrow, breaks, other]
  have noReturn : '\r' ∉ text.toList.map narrow := by
    rw [List.mem_map]
    rintro ⟨c, -, narrowed⟩
    cases breaks : Text.isWideBreak c with
    | true => simp [narrow, breaks] at narrowed
    | false =>
      simp only [narrow, breaks] at narrowed
      subst narrowed
      cases breaks
  have kept {part : List Char} (member : part ∈ text.toList.splitOnP Text.isWideBreak) : part.map narrow = part :=
    (List.map_congr_left fun c inside => if_neg (by simp [(of_mem_splitOnP member).1 c inside])).trans (List.map_id part)
  have cut : (text.toList.map narrow).splitOn '\n' = text.toList.splitOnP Text.isWideBreak := by
    rw [List.splitOn, splitOnP_map, feeds]
    exact (List.map_congr_left fun _ => kept).trans (List.map_id _)
  rw [expressionsOfLines_wideLines, Text.commonLines, Text.narrowBreaks, String.toList_ofList,
    Text.unifyBreaks_eq_self noReturn, cut, wideExpressions]

theorem expressionsOfLines_wideLines_eq_flatMap (text : String) :
    expressionsOfLines (Text.wideLines text) =
      (Text.commonLines text).flatMap fun line => expressionsOfLines (Text.wideLines line) := by
  rw [expressionsOfLines_wideLines, ← wideExpressions_unifyBreaks, wideExpressions_eq_flatMap, Text.commonLines,
    List.flatMap_map]
  simp only [expressionsOfLines_wideLines, String.toList_ofList]

theorem TakenAlike.same (alike : TakenAlike line) :
    expressionsOfLines (Text.wideLines line) = expressionsOfLines [line] := by
  rcases alike with narrow | ⟨none, none'⟩
  · rw [Text.trim, String.toList_ofList] at narrow
    rw [expressionsOfLines_wideLines, wideExpressions_of_narrow narrow, String.ofList_toList]
  · rw [none, none']

theorem isWideBreak_of_mem_wideLines {expression text : String}
    (given : expression ∈ expressionsOfLines (Text.wideLines text)) :
    ∀ c ∈ expression.toList, Text.isWideBreak c = false := by
  intro c member
  rw [expressionsOfLines, List.mem_filter, List.mem_map] at given
  obtain ⟨⟨line, listed, rfl⟩, -⟩ := given
  obtain ⟨part, cut, rfl⟩ := List.mem_map.mp listed
  refine (of_mem_splitOnP cut).1 c ?_
  obtain ⟨before, after, whole, -⟩ := Text.eq_trimmed_between Text.isBlank part
  rw [Text.trim, String.toList_ofList, String.toList_ofList] at member
  rw [whole]
  exact List.mem_append_left _ (List.mem_append_right _ member)

/-- What is made longer in places where it is nothing, yet stays the same as a whole, is made no longer. -/
theorem eq_of_flatMap_eq {α β : Type} {wide narrow : α → List β} {xs : List α}
    (apart : ∀ x ∈ xs, wide x = narrow x ∨ narrow x = []) (same : xs.flatMap wide = xs.flatMap narrow) :
    ∀ x ∈ xs, wide x = narrow x := by
  have within {ys : List α} (apart : ∀ y ∈ ys, wide y = narrow y ∨ narrow y = []) :
      (ys.flatMap narrow).Sublist (ys.flatMap wide) := by
    induction ys with
    | nil => exact .slnil
    | cons y rest ih =>
      obtain ⟨here, later⟩ := List.forall_mem_cons.mp apart
      rw [List.flatMap_cons, List.flatMap_cons]
      refine List.Sublist.append ?_ (ih later)
      rcases here with equal | none
      · exact equal ▸ List.Sublist.refl _
      · rw [none]
        exact List.nil_sublist _
  induction xs with
  | nil => simp
  | cons x rest ih =>
    obtain ⟨here, later⟩ := List.forall_mem_cons.mp apart
    rw [List.flatMap_cons, List.flatMap_cons] at same
    suffices equal : wide x = narrow x by
      refine List.forall_mem_cons.mpr ⟨equal, ih later ?_⟩
      rw [equal] at same
      exact List.append_cancel_left same
    rcases here with equal | none
    · exact equal
    · rw [none, List.nil_append] at same
      rw [none]
      have longer := (within later).length_le
      rw [← same, List.length_append] at longer
      exact List.length_eq_zero_iff.mp (by omega)

/-- Both ways to cut a text find the same expressions exactly if they take every line alike. -/
theorem wideLines_iff_takenAlike (text : String) :
    expressionsOfLines (Text.wideLines text) = expressionsOfLines (Text.commonLines text) ↔
      ∀ line ∈ Text.commonLines text, TakenAlike line := by
  constructor
  · intro same
    have narrow {line : String} (listed : line ∈ Text.commonLines text)
        (given : expressionsOfLines [line] = [Text.trim line]) :
        ∀ c ∈ (Text.trim line).toList, Text.isWideBreak c = false := by
      have found : Text.trim line ∈ expressionsOfLines (Text.wideLines text) := by
        rw [same, expressionsOfLines_eq_flatMap]
        exact List.mem_flatMap.mpr ⟨line, listed, by simp [given]⟩
      exact isWideBreak_of_mem_wideLines found
    have apart : ∀ line ∈ Text.commonLines text,
        expressionsOfLines (Text.wideLines line) = expressionsOfLines [line] ∨ expressionsOfLines [line] = [] := by
      intro line listed
      rcases expressionsOfLines_singleton line with none | given
      · exact Or.inr none
      · exact Or.inl (TakenAlike.same (Or.inl (narrow listed given)))
    rw [expressionsOfLines_wideLines_eq_flatMap, expressionsOfLines_eq_flatMap (Text.commonLines text)] at same
    -- No line gives less in the wide way, so none gives more if the whole is the same.
    have equal := eq_of_flatMap_eq apart same
    intro line listed
    rcases expressionsOfLines_singleton line with none | given
    · exact Or.inr ⟨none, (equal line listed).trans none⟩
    · exact Or.inl (narrow listed given)
  · intro alike
    rw [expressionsOfLines_wideLines_eq_flatMap, expressionsOfLines_eq_flatMap (Text.commonLines text)]
    exact List.flatMap_congr fun line listed => (alike line listed).same

end
end CommandLine
end EsilLowering
