import EsilLowering.Outline
import EsilLowering.Settings

/-! # Sessions

A session holds a registry and lowerers under names of the caller's choice. Requests are answered in
turn; a request that ends in a fault leaves the session as it was, except that a lowerer keeps what it
did before the fault. -/

namespace EsilLowering

/-- Where settings come from. -/
inductive SettingsSource where
  | environment (environment : Table String)
  | direct (settings : Settings)
  deriving DecidableEq

/-- The settings of a source. -/
def SettingsSource.settings : SettingsSource → Settings
  | environment given => .ofEnvironment given
  | direct settings => settings

/-- What can be asked of a session. -/
inductive Request where
  /-- A new lowerer under a name, in place of the one there was. -/
  | create (id : String) (outline : LowererOutline)
  /-- A new lowerer under a name, from settings. -/
  | configure (id : String) (source : SettingsSource)
  /-- An expression for a lowerer. -/
  | lower (id : String) (expression : String)
  /-- What a lowerer has so far. -/
  | inspect (id : String)
  /-- An expression for an architecture, with nothing before it. -/
  | lowerAlone (architecture expression : String) (strict : Bool)
  /-- A profile for the registry. -/
  | register (outline : ProfileOutline) (replace : Bool)
  /-- A name that the registry shall forget. -/
  | unregister (name : String)
  /-- The names in the registry. -/
  | names
  /-- The profile under a name. -/
  | profile (name : String)
  /-- What a token is in the profile under a name. -/
  | query (name token : String)
  deriving DecidableEq

/-- What a session answers. -/
inductive Reply where
  | created (lowerer : Lowerer)
  | configured (settings : Settings) (lowerer : Except Fault Lowerer)
  | lowered (answer : Answer)
  | inspected (lowerer : Lowerer)
  | loweredAlone (lowering : Lowering)
  | names (names : List String)
  | profile (profile : Profile)
  | meaning (registerSize? : Option Int) (operator? : Option Operator)
  | fault (fault : Fault)
  | noLowerer (id : String)

/-- The state of a session. -/
structure Session where
  registry : Registry := .initial
  lowerers : Table Lowerer := .empty

namespace Session

/-- The answer that a fault or a value stands for. -/
def reply {α : Type} (result : Except Fault α) (answer : α → Reply) : Reply :=
  match result with
  | .ok value => answer value
  | .error fault => .fault fault

/-- A session with the registry that a change leads to, and the names in it; a change that faults is not
made. -/
def withRegistry (session : Session) (change : Except Fault Registry) : Session × Reply :=
  match change with
  | .ok registry => ({ session with registry }, .names registry.names)
  | .error fault => (session, .fault fault)

/-- Answers a request. -/
def answer (session : Session) : Request → Session × Reply
  | .create id outline =>
    match outline.lowerer session.registry with
    | .ok lowerer => ({ session with lowerers := session.lowerers.insert id lowerer }, .created lowerer)
    | .error fault => (session, .fault fault)
  | .configure id source =>
    let settings := source.settings
    match settings.lowerer session.registry with
    | .ok lowerer =>
      ({ session with lowerers := session.lowerers.insert id lowerer }, .configured settings (.ok lowerer))
    | .error fault => (session, .configured settings (.error fault))
  | .lower id expression =>
    match session.lowerers.get? id with
    | some lowerer =>
      let answer := lowerer.lower expression
      ({ session with lowerers := session.lowerers.insert id answer.lowerer }, .lowered answer)
    | none => (session, .noLowerer id)
  | .inspect id =>
    match session.lowerers.get? id with
    | some lowerer => (session, .inspected lowerer)
    | none => (session, .noLowerer id)
  | .lowerAlone architecture expression strict =>
    (session, reply (session.registry.lower architecture strict expression) .loweredAlone)
  | .register outline replace =>
    session.withRegistry (outline.profile.bind fun profile => session.registry.register profile replace)
  | .unregister name => session.withRegistry (session.registry.unregister name)
  | .names => (session, .names session.registry.names)
  | .profile name => (session, reply (session.registry.find name) .profile)
  | .query name token =>
    (session, reply (session.registry.find name) fun profile =>
      .meaning (profile.registers.get? token) (profile.operators.get? token))

/-- Answers requests in turn. -/
def answerAll (session : Session) : List Request → List Reply
  | [] => []
  | request :: rest =>
    let (session, reply) := session.answer request
    reply :: session.answerAll rest

end Session
end EsilLowering
