/-! # Terminal escapes

A control sequence for a terminal is an escape character, an opening bracket, parameter characters,
intermediate characters and one final character. `plain` leaves such sequences out of a text and
keeps all else, an escape that opens no complete sequence included. -/

namespace EsilLowering.Text

/-- The escape character. -/
def escape : Char := '\x1b'

/-- How far into a control sequence the reader is. -/
inductive SequencePhase where
  /-- Outside a sequence. -/
  | outside
  /-- After the escape character. -/
  | opened
  /-- After the bracket and any number of parameters. -/
  | parameters
  /-- After at least one intermediate character. -/
  | intermediates
  deriving DecidableEq, Repr

namespace SequencePhase

/-- The phase that a character leads to inside a sequence, if it may stand there. -/
def next? (phase : SequencePhase) (c : Char) : Option SequencePhase :=
  let n := c.toNat
  let parameter := 0x30 ≤ n && n ≤ 0x3f
  let intermediate := 0x20 ≤ n && n ≤ 0x2f
  match phase with
  | outside => if c = escape then some opened else none
  | opened => if c = '[' then some parameters else none
  | parameters =>
    if parameter then some parameters else if intermediate then some intermediates else none
  | intermediates => if intermediate then some intermediates else none

/-- Whether a character completes a sequence. -/
def completes (phase : SequencePhase) (c : Char) : Bool :=
  match phase with
  | outside | opened => false
  | parameters | intermediates => 0x40 ≤ c.toNat && c.toNat ≤ 0x7e

end SequencePhase

/-- Leaves out complete sequences; `held` is the sequence begun, newest character first, which is
kept if it turns out to be none. -/
def dropSequences : SequencePhase → List Char → List Char → List Char
  | _, held, [] => held.reverse
  | phase, held, c :: rest =>
    if phase.completes c then dropSequences .outside [] rest
    else match phase.next? c with
      | some phase => dropSequences phase (c :: held) rest
      | none =>
        held.reverse ++
          if c = escape then dropSequences .opened [c] rest
          else c :: dropSequences .outside [] rest

/-- A text without its control sequences. -/
def plain (text : String) : String :=
  String.ofList (dropSequences .outside [] text.toList)

theorem dropSequences_eq_self {chars : List Char} (h : escape ∉ chars) :
    dropSequences .outside [] chars = chars := by
  induction chars with
  | nil => rfl
  | cons c rest ih =>
    have hc : c ≠ escape := fun e => h (e ▸ List.mem_cons_self)
    have hr := ih fun e => h (List.mem_cons_of_mem c e)
    simp [dropSequences, SequencePhase.completes, SequencePhase.next?, hc, hr]

/-- A text with no escape character is plain already. -/
theorem plain_eq_self {text : String} (h : escape ∉ text.toList) : plain text = text := by
  simp [plain, dropSequences_eq_self h]

/-- A line feed stands in no sequence, so what comes before one and what comes after have nothing to do
with each other. -/
theorem dropSequences_newline (phase : SequencePhase) (held before after : List Char) :
    dropSequences phase held (before ++ '\n' :: after) =
      dropSequences phase held before ++ '\n' :: dropSequences .outside [] after := by
  induction before generalizing phase held with
  | nil => cases phase <;> rfl
  | cons c rest ih =>
    rw [List.cons_append, dropSequences, dropSequences]
    cases phase.completes c with
    | true => exact ih .outside []
    | false =>
      cases phase.next? c with
      | some phase => exact ih phase (c :: held)
      | none => by_cases opens : c = escape <;> simp [opens, ih]

theorem plain_line (text rest : String) : plain (text ++ "\n" ++ rest) = plain text ++ "\n" ++ plain rest := by
  have chars : (text ++ "\n" ++ rest).toList = text.toList ++ '\n' :: rest.toList := by simp
  rw [plain, chars, dropSequences_newline]
  simp [plain, ← String.toList_inj]

end EsilLowering.Text
