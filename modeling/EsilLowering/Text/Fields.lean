/-! # Fields

A text cut into fields at every occurrence of a separator character. There is always at least one
field, no field holds the separator, and the fields joined with it give the text back. -/

namespace EsilLowering.Text

/-- The fields of a text, cut at every separator. -/
def fields (separator : Char) (text : String) : List String :=
  (text.toList.splitOn separator).map String.ofList

/-- Fields joined into one text, a separator between each two. -/
def joinFields (separator : Char) (parts : List String) : String :=
  String.intercalate (String.singleton separator) parts

theorem joinFields_fields (separator : Char) (text : String) :
    joinFields separator (fields separator text) = text := by
  apply String.toList_inj.mp
  simp only [joinFields, fields, String.toList_intercalate, String.toList_singleton, List.map_map]
  have h : (String.toList ∘ String.ofList) = id := by
    funext l
    simp
  rw [h, List.map_id]
  exact List.intercalate_splitOn separator

/-- Joined fields are found again if the separator is in none of them. -/
theorem fields_joinFields {separator : Char} {parts : List String} (some : parts ≠ [])
    (apart : ∀ part ∈ parts, separator ∉ part.toList) : fields separator (joinFields separator parts) = parts := by
  have chars : ∀ part ∈ parts.map String.toList, separator ∉ part := by
    intro chars member
    obtain ⟨part, listed, rfl⟩ := List.mem_map.mp member
    exact apart part listed
  have h : (String.ofList ∘ String.toList) = id := by
    funext part
    simp
  rw [fields, joinFields, String.toList_intercalate, String.toList_singleton,
    List.splitOn_intercalate separator chars (by simpa using some), List.map_map, h, List.map_id]

theorem fields_ne_nil (separator : Char) (text : String) : fields separator text ≠ [] := by
  simp [fields, List.splitOn_ne_nil]

theorem notMem_of_mem_splitOn {separator : Char} {chars field : List Char} (h : field ∈ chars.splitOn separator) :
    separator ∉ field := by
  induction chars generalizing field with
  | nil =>
    rw [List.splitOn_nil, List.mem_singleton] at h
    rw [h]
    exact List.not_mem_nil
  | cons c rest ih =>
    rw [List.splitOn_cons_eq_if_modifyHead] at h
    split at h
    · rcases List.mem_cons.mp h with rfl | h
      · exact List.not_mem_nil
      · exact ih h
    · rename_i other
      obtain ⟨first, others, hfields⟩ := List.exists_cons_of_ne_nil (List.splitOn_ne_nil separator rest)
      rw [hfields] at ih h
      rcases List.mem_cons.mp h with rfl | h
      · intro mem
        rcases List.mem_cons.mp mem with rfl | mem
        · exact other BEq.rfl
        · exact ih List.mem_cons_self mem
      · exact ih (List.mem_cons_of_mem _ h)

theorem notMem_of_mem_fields {separator : Char} {text field : String} (h : field ∈ fields separator text) :
    separator ∉ field.toList := by
  obtain ⟨chars, hchars, rfl⟩ := List.mem_map.mp h
  rw [String.toList_ofList]
  exact notMem_of_mem_splitOn hchars

theorem mem_of_mem_splitOn {separator : Char} {chars field : List Char} (h : field ∈ chars.splitOn separator)
    {c : Char} (hc : c ∈ field) : c ∈ chars := by
  induction chars generalizing field with
  | nil =>
    rw [List.splitOn_nil, List.mem_singleton] at h
    rwa [h] at hc
  | cons d rest ih =>
    rw [List.splitOn_cons_eq_if_modifyHead] at h
    split at h
    · rcases List.mem_cons.mp h with rfl | h
      · cases hc
      · exact List.mem_cons_of_mem d (ih h hc)
    · obtain ⟨first, others, hfields⟩ := List.exists_cons_of_ne_nil (List.splitOn_ne_nil separator rest)
      rw [hfields] at ih h
      rcases List.mem_cons.mp h with rfl | h
      · rcases List.mem_cons.mp hc with rfl | hc
        · exact List.mem_cons_self
        · exact List.mem_cons_of_mem d (ih List.mem_cons_self hc)
      · exact List.mem_cons_of_mem d (ih (List.mem_cons_of_mem _ h) hc)

/-- A field has no characters but those of the text. -/
theorem mem_of_mem_fields {separator : Char} {text field : String} (h : field ∈ fields separator text) {c : Char}
    (hc : c ∈ field.toList) : c ∈ text.toList := by
  obtain ⟨chars, hchars, rfl⟩ := List.mem_map.mp h
  rw [String.toList_ofList] at hc
  exact mem_of_mem_splitOn hchars hc

/-- A text without the separator is its only field. -/
theorem fields_of_notMem {separator : Char} {text : String} (h : separator ∉ text.toList) :
    fields separator text = [text] := by
  rw [fields, List.splitOn_eq_singleton h]
  simp

/-- A text with a separator in it has the fields before the separator and the fields after it. -/
theorem fields_append (separator : Char) (first second : String) :
    fields separator (first ++ String.singleton separator ++ second) =
      fields separator first ++ fields separator second := by
  simp only [fields, String.toList_append, String.toList_singleton, List.append_assoc, List.singleton_append,
    List.splitOn_append_cons_self, List.map_append]

end EsilLowering.Text
