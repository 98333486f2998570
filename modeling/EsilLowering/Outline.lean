import EsilLowering.Lowerer

/-! # Outlines

Tables, profiles and lowerers as a caller describes them, before they are checked. What is left out has
its default. -/

namespace EsilLowering

/-- An operator under the token that names it, by default its symbol. -/
structure OperatorOutline where
  token? : Option String := none
  symbol : String
  arity : Int
  deriving DecidableEq, Repr

/-- The operator, if its arity is one. -/
def OperatorOutline.operator (outline : OperatorOutline) : Except Fault Operator :=
  match Arity.ofInt? outline.arity with
  | some arity => .ok ⟨outline.symbol, arity⟩
  | none => .error (.refused (.arity outline.arity))

/-- Operators on their own, or on top of the built-in ones. -/
structure OperatorsOutline where
  onTopOfBuiltin : Bool := false
  entries : List OperatorOutline
  deriving DecidableEq, Repr

/-- The table; of two operators under one token the later counts. -/
def OperatorsOutline.table (outline : OperatorsOutline) : Except Fault (Table Operator) :=
  let add (table : Table Operator) (entry : OperatorOutline) : Except Fault (Table Operator) :=
    entry.operator.map (table.insert (entry.token?.getD entry.symbol))
  outline.entries.foldlM add (if outline.onTopOfBuiltin then Operator.builtin else .empty)

/-- The table of an outline that may be left out. -/
def OperatorsOutline.table? (outline? : Option OperatorsOutline) : Except Fault (Option (Table Operator)) :=
  match outline? with
  | none => .ok none
  | some outline => outline.table.map some

/-- A profile. -/
structure ProfileOutline where
  name : String
  registers : Table Int := .empty
  operators? : Option OperatorsOutline := none
  defaultSize : Int := 64
  deriving DecidableEq

/-- The profile, if its operators can be read. -/
def ProfileOutline.profile (outline : ProfileOutline) : Except Fault Profile :=
  (OperatorsOutline.table? outline.operators?).map fun operators? =>
    { name := outline.name
      registers := outline.registers
      operators := operators?.getD Operator.builtin
      defaultSize := outline.defaultSize }

/-- Which profile a lowerer is for. -/
inductive ProfileChoice where
  /-- The built-in one, whatever the registry has under its name. -/
  | builtin
  /-- The one that the registry has under a name. -/
  | named (name : String)
  /-- One of the caller's own. -/
  | described (outline : ProfileOutline)
  deriving DecidableEq

/-- A profile that was chosen, not looked up yet if it was chosen by name. -/
def ProfileChoice.profile (choice : ProfileChoice) : Except Fault (String ⊕ Profile) :=
  match choice with
  | builtin => .ok (.inr .builtin)
  | named name => .ok (.inl name)
  | described outline => outline.profile.map .inr

/-- A lowerer; its own tables and width take the place of the profile's. -/
structure LowererOutline where
  profile : ProfileChoice := .builtin
  operators? : Option OperatorsOutline := none
  registers? : Option (Table Int) := none
  defaultSize? : Option Int := none
  strict : Bool := false
  deriving DecidableEq

/-- The fresh lowerer. Operators are read before a profile is looked up by name, so their fault comes
first. -/
def LowererOutline.lowerer (outline : LowererOutline) (registry : Registry) : Except Fault Lowerer := do
  let chosen ← outline.profile.profile
  let operators? ← OperatorsOutline.table? outline.operators?
  let profile ← match chosen with
    | .inl name => registry.find name
    | .inr profile => pure profile
  let dialect : Dialect :=
    { registers := outline.registers?.getD profile.registers
      operators := operators?.getD profile.operators
      defaultSize := profile.defaultSize }
  return .ofProfile { profile with toDialect := dialect } outline.defaultSize? outline.strict

end EsilLowering
