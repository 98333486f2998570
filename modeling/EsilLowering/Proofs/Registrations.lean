import EsilLowering.Registry

/-! # The history of a registry

A registry is changed by profiles that are registered and by names that are taken off it. A change that
is refused is not made. So what a registry holds under a name is told by the last change of the name
that was made, and the built-in profile counts as registered at the start. -/

namespace EsilLowering

/-- A change that a registry is asked for. -/
inductive RegistryChange where
  | register (profile : Profile) (replace : Bool)
  | unregister (name : String)
  deriving DecidableEq

namespace RegistryChange

/-- The name that a change is about. -/
def name : RegistryChange → String
  | register profile _ => profile.name
  | unregister name => name

/-- The profile that a change leaves under its name. -/
def profile? : RegistryChange → Option Profile
  | register profile _ => some profile
  | unregister _ => none

/-- The last of some changes that is about a name. -/
def lastOf (name : String) (changes : List RegistryChange) : Option RegistryChange :=
  (changes.filter (·.name = name)).getLast?

theorem profile?_eq_some {change : RegistryChange} {profile : Profile} :
    change.profile? = some profile ↔ ∃ replace, change = .register profile replace := by
  cases change <;> simp [profile?]

theorem lastOf_cons (name : String) (change : RegistryChange) (rest : List RegistryChange) :
    lastOf name (change :: rest) = (lastOf name rest).or (if change.name = name then some change else none) := by
  unfold lastOf
  by_cases same : change.name = name
  · rw [List.filter_cons_of_pos (by simpa using same), if_pos same, List.getLast?_cons]
    cases (rest.filter (·.name = name)).getLast? <;> rfl
  · rw [List.filter_cons_of_neg (by simpa using same), if_neg same, Option.or_none]

end RegistryChange

namespace Registry

/-- Makes a change, unless it is refused. -/
def attempt (registry : Registry) : RegistryChange → Except Fault Registry
  | .register profile replace => registry.register profile replace
  | .unregister name => registry.unregister name

/-- A registry once it was asked for a change. -/
def asked (registry : Registry) (change : RegistryChange) : Registry :=
  match registry.attempt change with
  | .ok changed => changed
  | .error _ => registry

/-- A registry once it was asked for changes in turn. -/
def askedAll (registry : Registry) (changes : List RegistryChange) : Registry :=
  changes.foldl asked registry

/-- Those of some changes that are made when a registry is asked for them in turn. -/
def made (registry : Registry) : List RegistryChange → List RegistryChange
  | [] => []
  | change :: rest =>
    match registry.attempt change with
    | .ok changed => change :: changed.made rest
    | .error _ => registry.made rest

/-- The changes that have made a registry out of an empty one: the registration of the built-in profile
and those that it was asked for and that were made. -/
def effective (changes : List RegistryChange) : List RegistryChange :=
  .register .builtin false :: initial.made changes

/-! ### One change -/

section
variable {registry changed : Registry} {change : RegistryChange} {profile : Profile} {replace : Bool}
  {name : String} {fault : Fault}

theorem mem_names : name ∈ registry.names ↔ ∃ profile, registry.profiles.get? name = some profile := by
  rw [names, Table.mem_names_iff, Option.isSome_iff_exists]

theorem find_eq_ok : registry.find name = .ok profile ↔ registry.profiles.get? name = some profile := by
  unfold find
  cases registry.profiles.get? name <;> simp

theorem find_eq_error : registry.find name = .error fault ↔
    name ∉ registry.names ∧ fault = .unknownArchitecture name registry.names := by
  rw [mem_names]
  unfold find
  cases registry.profiles.get? name <;> simp [eq_comm]

theorem register_eq_error : registry.register profile replace = .error fault ↔
    profile.name ∈ registry.names ∧ replace = false ∧ fault = .refused (.architectureTaken profile.name) := by
  have taken : registry.profiles.contains profile.name = true ↔ profile.name ∈ registry.names :=
    (Table.mem_names_iff _ _).symm
  unfold register
  split
  · rename_i refused
    simp only [taken, Bool.not_eq_true'] at refused
    simp [refused, eq_comm]
  · rename_i allowed
    simp only [taken, Bool.not_eq_true'] at allowed
    refine ⟨(nomatch ·), fun h => absurd ⟨h.1, h.2.1⟩ allowed⟩

theorem unregister_eq_error : registry.unregister name = .error fault ↔
    name = Profile.defaultName ∧ fault = .refused (.architectureBuiltin name) := by
  unfold unregister
  split
  · rename_i builtin
    simp [builtin, eq_comm]
  · rename_i other
    simp [other]

/-- A change that is made puts its profile under its name, or leaves the name without one; what is under
other names stays. -/
theorem get?_of_attempt (h : registry.attempt change = .ok changed) (name : String) :
    changed.profiles.get? name = if change.name = name then change.profile? else registry.profiles.get? name := by
  cases change with
  | register profile replace =>
    simp only [attempt, register] at h
    split at h
    · cases h
    · cases h
      exact Table.get?_insert _ _ _ _
  | unregister gone =>
    simp only [attempt, unregister] at h
    split at h
    · cases h
    · cases h
      exact Table.get?_erase _ _ _

theorem asked_of_error (h : registry.attempt change = .error fault) : registry.asked change = registry := by
  simp [asked, h]

theorem asked_of_ok (h : registry.attempt change = .ok changed) : registry.asked change = changed := by
  simp [asked, h]

end

/-! ### Any number of changes -/

section
variable {registry : Registry} {changes : List RegistryChange} {name : String} {profile : Profile}

/-- What is under a name is told by the last change of it that was made, and without one it is what was
there before. -/
theorem get?_askedAll (registry : Registry) (changes : List RegistryChange) (name : String) :
    (registry.askedAll changes).profiles.get? name =
      (RegistryChange.lastOf name (registry.made changes)).elim (registry.profiles.get? name)
        RegistryChange.profile? := by
  induction changes generalizing registry with
  | nil => rfl
  | cons change rest ih =>
    have onward : registry.askedAll (change :: rest) = (registry.asked change).askedAll rest := rfl
    rw [onward, ih]
    cases h : registry.attempt change with
    | error fault => rw [asked_of_error h, made, h]
    | ok changed =>
      rw [asked_of_ok h, made, h]
      rw [RegistryChange.lastOf_cons]
      cases RegistryChange.lastOf name (changed.made rest) with
      | some last => rfl
      | none =>
        rw [get?_of_attempt h]
        by_cases same : change.name = name <;> simp [same]

theorem get?_initial (changes : List RegistryChange) (name : String) :
    (initial.askedAll changes).profiles.get? name =
      (RegistryChange.lastOf name (effective changes)).bind RegistryChange.profile? := by
  have start : initial.profiles.get? name = if Profile.defaultName = name then some .builtin else none :=
    Table.get?_insert _ _ _ _
  rw [get?_askedAll, effective, RegistryChange.lastOf_cons, start]
  cases RegistryChange.lastOf name (initial.made changes) with
  | some last => rfl
  | none =>
    have named : (RegistryChange.register .builtin false).name = Profile.defaultName := rfl
    by_cases same : Profile.defaultName = name <;> simp [named, same, RegistryChange.profile?]

theorem get?_initial_eq_some : (initial.askedAll changes).profiles.get? name = some profile ↔
    ∃ replace, RegistryChange.lastOf name (effective changes) = some (.register profile replace) := by
  rw [get?_initial, Option.bind_eq_some_iff]
  constructor
  · rintro ⟨last, hlast, left⟩
    obtain ⟨replace, rfl⟩ := RegistryChange.profile?_eq_some.mp left
    exact ⟨replace, hlast⟩
  · rintro ⟨replace, hlast⟩
    exact ⟨_, hlast, rfl⟩

/-- The built-in name can be given another profile, but it cannot be taken off. -/
theorem defaultName_mem_asked (h : Profile.defaultName ∈ registry.names) (change : RegistryChange) :
    Profile.defaultName ∈ (registry.asked change).names := by
  cases made : registry.attempt change with
  | error fault => rwa [asked_of_error made]
  | ok changed =>
    rw [asked_of_ok made, mem_names, get?_of_attempt made]
    by_cases same : change.name = Profile.defaultName
    · rw [if_pos same]
      cases change with
      | register profile replace => exact ⟨profile, rfl⟩
      | unregister gone =>
        have refused : registry.attempt (.unregister gone) = .error _ := unregister_eq_error.mpr ⟨same, rfl⟩
        rw [made] at refused
        cases refused
    · rw [if_neg same]
      exact mem_names.mp h

theorem defaultName_mem_askedAll (h : Profile.defaultName ∈ registry.names) :
    Profile.defaultName ∈ (registry.askedAll changes).names := by
  induction changes generalizing registry with
  | nil => exact h
  | cons change rest ih => exact ih (defaultName_mem_asked h change)

end

/-- A registry tells the names whose last change was a registration, in order and each once, and under each
of them the profile of that registration. -/
structure Remembers (registry : Registry) (changes : List RegistryChange) : Prop where
  sorted : registry.names.Pairwise (· < ·)
  listed : ∀ name, name ∈ registry.names ↔
    ∃ profile replace, RegistryChange.lastOf name changes = some (.register profile replace)
  found : ∀ name profile, registry.find name = .ok profile ↔
    ∃ replace, RegistryChange.lastOf name changes = some (.register profile replace)
  missing : ∀ name fault, registry.find name = .error fault ↔
    name ∉ registry.names ∧ fault = .unknownArchitecture name registry.names

/-- After any changes, made or refused, a registry remembers the last change of each name that was made,
and it always has the built-in name. Registering is refused exactly if the name is taken and shall not be
replaced, unregistering exactly if the name is the built-in one, and a change that is refused might as
well not have been asked for. -/
theorem remembers_last_changes (changes : List RegistryChange) :
    let registry := initial.askedAll changes
    registry.Remembers (effective changes) ∧
    Profile.defaultName ∈ registry.names ∧
    (∀ profile replace fault, registry.attempt (.register profile replace) = .error fault ↔
      profile.name ∈ registry.names ∧ replace = false ∧ fault = .refused (.architectureTaken profile.name)) ∧
    (∀ name fault, registry.attempt (.unregister name) = .error fault ↔
      name = Profile.defaultName ∧ fault = .refused (.architectureBuiltin name)) ∧
    ∀ refused fault, registry.attempt refused = .error fault →
      ∀ later, initial.askedAll (changes ++ refused :: later) = initial.askedAll (changes ++ later) := by
  intro registry
  have start : Profile.defaultName ∈ initial.names := by decide
  have remembers : registry.Remembers (effective changes) :=
    { sorted := registry.profiles.increasing
      listed := fun name => mem_names.trans (exists_congr fun profile => get?_initial_eq_some)
      found := fun name profile => find_eq_ok.trans get?_initial_eq_some
      missing := fun name fault => find_eq_error }
  refine ⟨remembers, defaultName_mem_askedAll start, fun profile replace fault => register_eq_error,
    fun name fault => unregister_eq_error, fun refused fault h later => ?_⟩
  have skipped : registry.asked refused = registry := asked_of_error h
  unfold askedAll
  rw [List.foldl_append, List.foldl_append, List.foldl_cons]
  exact congrArg (later.foldl asked) skipped

end Registry
end EsilLowering
