import EsilLowering.Outline
import EsilLowering.Settings
import EsilLowering.Proofs.Readings
import EsilLowering.Proofs.Registrations

/-! # The default architecture

An expression can be lowered without a choice of architecture in four ways: by itself, by a lowerer that
is given no profile, by one that is given the default name, and by one from default settings. All but the
second look the name up in the registry; a lowerer without a profile has the built-in one, whatever the
registry has come to hold under its name. So the four come to the same until the name is given a profile
by which some token means something else. -/

namespace EsilLowering

/-- The four ways to lower an expression for the default architecture come to the same result, and those
that leave a stack leave the same. -/
def Registry.OneDefault (registry : Registry) (expression : String) : Prop :=
  ∃ plain named configured,
    ({} : LowererOutline).lowerer registry = .ok plain ∧
    ({ profile := .named Profile.defaultName } : LowererOutline).lowerer registry = .ok named ∧
    ({} : Settings).lowerer registry = .ok configured ∧
    registry.lower Profile.defaultName false expression = (named.lower expression).result ∧
    named.SameOn configured expression ∧ named.SameOn plain expression

/-! ### The ways in -/

section
variable {registry : Registry} {profile : Profile}

theorem LowererOutline.lowerer_plain (registry : Registry) :
    ({} : LowererOutline).lowerer registry = .ok (.ofProfile .builtin none false) := rfl

theorem LowererOutline.lowerer_named {name : String} (found : registry.find name = .ok profile) :
    ({ profile := .named name } : LowererOutline).lowerer registry = .ok (.ofProfile profile none false) := by
  have looked : ({ profile := .named name } : LowererOutline).lowerer registry =
      (registry.find name >>= fun profile => .ok (.ofProfile profile none false)) := rfl
  rw [looked, found]
  rfl

theorem Settings.lowerer_default (found : registry.find Profile.defaultName = .ok profile) :
    ({} : Settings).lowerer registry = .ok (.ofProfile profile none false) := by
  simp [lowerer, found, Except.map]

theorem Registry.lower_found {name : String} (found : registry.find name = .ok profile) (strict : Bool)
    (expression : String) :
    registry.lower name strict expression = ((Lowerer.ofProfile profile none strict).lower expression).result := by
  rw [Registry.lower, found]
  rfl

end

theorem Profile.builtin_expressible : Profile.builtin.Expressible := by
  have entries : ∀ entry ∈ Operator.builtin.entries, entry.2.arity ≠ .ternary := by decide +kernel
  exact fun token operator found => entries _ (Table.mem_entries_of_get? found)

namespace Registry

/-- A profile registered under the default name tells the ways apart: the one without a look-up still
knows the built-in registers. -/
theorem default_replaced :
    ¬∀ changes expression, (initial.askedAll changes).OneDefault expression := by
  intro one
  let bare : Profile := { Profile.builtin with registers := .empty }
  obtain ⟨plain, named, configured, hplain, hnamed, -, -, -, same⟩ := one [.register bare true] "rax,rbx,+"
  have found : (initial.askedAll [.register bare true]).find Profile.defaultName = .ok bare := by decide +kernel
  cases (LowererOutline.lowerer_plain _).symm.trans hplain
  cases (LowererOutline.lowerer_named found).symm.trans hnamed
  exact absurd same.1 (by decide +kernel)

/-- After any changes of a registry, the ways that look up the default name come to the same on every
expression. The one that does not has the built-in profile, so all four come to the same exactly as long
as every token means to the registered profile what it means to the built-in one. -/
theorem one_default_iff (changes : List RegistryChange) :
    let registry := initial.askedAll changes
    ∃ profile named configured,
      registry.find Profile.defaultName = .ok profile ∧
      ({} : LowererOutline).lowerer registry = .ok (.ofProfile .builtin none false) ∧
      ({ profile := .named Profile.defaultName } : LowererOutline).lowerer registry = .ok named ∧
      ({} : Settings).lowerer registry = .ok configured ∧
      (∀ expression, registry.lower Profile.defaultName false expression = (named.lower expression).result ∧
        named.SameOn configured expression) ∧
      ((∀ expression, registry.OneDefault expression) ↔ Profile.builtin.SameReading profile.toDialect) := by
  intro registry
  have start : Profile.defaultName ∈ initial.names := by decide
  have remains : Profile.defaultName ∈ registry.names := defaultName_mem_askedAll start
  obtain ⟨profile, listed⟩ := mem_names.mp remains
  have found : registry.find Profile.defaultName = .ok profile := find_eq_ok.mpr listed
  have plain := LowererOutline.lowerer_plain registry
  have named := LowererOutline.lowerer_named found
  have configured := Settings.lowerer_default found
  have looked (expression : String) := lower_found found false expression
  refine ⟨profile, _, _, found, plain, named, configured, fun expression => ⟨looked expression, rfl, rfl⟩, ?_⟩
  have told : (∀ expression, registry.OneDefault expression) ↔
      ∀ expression, (Lowerer.ofProfile .builtin none false).SameOn (.ofProfile profile none false) expression := by
    refine forall_congr' fun expression => ⟨?_, fun same => ?_⟩
    · rintro ⟨plain', named', configured', hplain, hnamed, -, -, -, same⟩
      cases plain.symm.trans hplain
      cases named.symm.trans hnamed
      exact same.symm
    · exact ⟨_, _, _, plain, named, configured, looked expression, ⟨rfl, rfl⟩, same.symm⟩
  exact told.trans (Dialect.sameOn_iff Profile.builtin_expressible _ _)

end Registry
end EsilLowering
