import EsilLowering.Fault
import EsilLowering.Profile

/-! # The registry of architectures

The registry holds profiles under the names of their architectures. It begins with the built-in
profile, whose name can be given another profile but never be left without one. -/

namespace EsilLowering

/-- The profiles that can be looked up by name. -/
structure Registry where
  profiles : Table Profile
  deriving DecidableEq

namespace Registry

/-- The registry with the built-in profile alone. -/
def initial : Registry := ⟨Table.empty.insert Profile.defaultName .builtin⟩

/-- The names of the architectures, in increasing order. -/
def names (registry : Registry) : List String := registry.profiles.names

/-- The profile of an architecture. -/
def find (registry : Registry) (name : String) : Except Fault Profile :=
  match registry.profiles.get? name with
  | some profile => .ok profile
  | none => .error (.unknownArchitecture name registry.names)

/-- Adds a profile. A name that is taken is refused, unless its profile is to be replaced. -/
def register (registry : Registry) (profile : Profile) (replace : Bool) : Except Fault Registry :=
  if registry.profiles.contains profile.name ∧ !replace then
    .error (.refused (.architectureTaken profile.name))
  else .ok ⟨registry.profiles.insert profile.name profile⟩

/-- Removes a profile, if there is one of the name; the built-in name is refused. -/
def unregister (registry : Registry) (name : String) : Except Fault Registry :=
  if name = Profile.defaultName then .error (.refused (.architectureBuiltin name))
  else .ok ⟨registry.profiles.erase name⟩

end Registry
end EsilLowering
