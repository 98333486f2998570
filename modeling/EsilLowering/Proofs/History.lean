import EsilLowering.Lowerer

/-! # Histories of a lowerer

A lowerer begins fresh and lowers one expression after the other. The run over the tokens of an
expression decides everything that its answer holds. -/

namespace EsilLowering

theorem Machine.run_nil (dialect : Dialect) (strict : Bool) (expression : String) (position : Nat)
    (machine : Machine) :
    machine.run dialect strict expression position [] =
      { machine, ending := .completed, tokensConsumed := position } := rfl

/-! ### A token before the others -/

namespace Step

/-- How a token ends a run, if it does: by a fault, which in strict mode any problem is, or by a problem
that leaves the rest without meaning. -/
def ending? (step : Step) (strict : Bool) (place : TokenLocation) : Option Ending :=
  match step.halt? with
  | none => none
  | some (.tooManyDigits refusal) => some (.faulted (.refused (.tooManyDigits refusal)))
  | some (.problem problem) =>
    if strict then some (.faulted (.lowering (Diagnostic.ofProblem problem place).error))
    else if problem.stops then some .stopped else none

/-- What is noted of a token. -/
def noted (step : Step) (strict : Bool) (place : TokenLocation) : List Diagnostic :=
  match step.halt? with
  | some (.problem problem) => if strict then [] else [.ofProblem problem place]
  | _ => []

/-- The event about what is noted of a token. -/
def noticed (step : Step) (strict : Bool) (expression : String) (position : Nat) : List Event :=
  match step.halt? with
  | some (.problem problem) =>
    if strict then []
    else if problem.stops then [.stopped expression position problem.message]
    else [.skipped expression position problem.message]
  | _ => []

theorem ending?_ne_completed {step : Step} {strict : Bool} {place : TokenLocation} :
    step.ending? strict place ≠ some .completed := by
  unfold ending?
  split
  · simp
  · simp
  · split
    · simp
    · split <;> simp

end Step

section
variable {dialect : Dialect} {strict : Bool} {expression token : String} {position : Nat} {machine : Machine}

theorem Machine.run_of_ending {ending : Ending}
    (h : (machine.read dialect token).ending? strict { expression, position, token } = some ending)
    (rest : List String) :
    machine.run dialect strict expression position (token :: rest) =
      (Run.ended (machine.read dialect token) position ending).after (machine.read dialect token)
        ((machine.read dialect token).noted strict { expression, position, token })
        ((machine.read dialect token).noticed strict expression position) := by
  cases halted : (machine.read dialect token).halt? with
  | none => simp [Step.ending?, halted] at h
  | some halt =>
    cases halt with
    | tooManyDigits refusal =>
      obtain rfl : Ending.faulted (.refused (.tooManyDigits refusal)) = ending := by
        simpa [Step.ending?, halted] using h
      rw [run_of_tooManyDigits halted]
      simp [Step.noted, Step.noticed, halted]
    | problem problem =>
      cases strict with
      | true =>
        obtain rfl := Option.some.inj (by simpa [Step.ending?, halted] using h)
        rw [run_of_strict halted]
        simp [Step.noted, Step.noticed, halted]
      | false =>
        cases stops : problem.stops with
        | true =>
          obtain rfl : Ending.stopped = ending := by simpa [Step.ending?, halted, stops] using h
          rw [run_of_stop halted stops]
          simp [Step.noted, Step.noticed, halted, stops]
        | false => simp [Step.ending?, halted, stops] at h

theorem Machine.run_of_onward
    (h : (machine.read dialect token).ending? strict { expression, position, token } = none) (rest : List String) :
    machine.run dialect strict expression position (token :: rest) =
      ((machine.read dialect token).machine.run dialect strict expression (position + 1) rest).after
        (machine.read dialect token)
        ((machine.read dialect token).noted strict { expression, position, token })
        ((machine.read dialect token).noticed strict expression position) := by
  cases halted : (machine.read dialect token).halt? with
  | none =>
    rw [run_of_done halted]
    simp [Step.noted, Step.noticed, halted]
  | some halt =>
    cases halt with
    | tooManyDigits refusal => simp [Step.ending?, halted] at h
    | problem problem =>
      cases strict with
      | true => simp [Step.ending?, halted] at h
      | false =>
        cases stops : problem.stops with
        | true => simp [Step.ending?, halted, stops] at h
        | false =>
          rw [run_of_skip halted stops]
          simp [Step.noted, Step.noticed, halted, stops]

end

namespace Lowerer
variable {lowerer : Lowerer} {expression : String}

/-- The run over the tokens of an expression. -/
def run (lowerer : Lowerer) (expression : String) : Run :=
  lowerer.machine.run lowerer.dialect lowerer.strict expression 0 (tokens expression)

/-- The run over the first `count` tokens of an expression. -/
def runFirst (lowerer : Lowerer) (expression : String) (count : Nat) : Run :=
  lowerer.machine.run lowerer.dialect lowerer.strict expression 0 ((tokens expression).take count)

/-- What a run that ended without a fault says of its expression. -/
def summary (expression : String) (run : Run) : Lowering :=
  { expression
    status := run.status
    instructions := run.instructions
    diagnostics := run.diagnostics
    tokensConsumed := run.tokensConsumed }

/-- A lowerer after a run over some tokens. -/
def reach (lowerer : Lowerer) (run : Run) : Lowerer :=
  { lowerer with machine := run.machine, instructions := lowerer.instructions ++ run.instructions }

theorem reach_congr {run other : Run} (hmachine : run.machine = other.machine)
    (hinstructions : run.instructions = other.instructions) : lowerer.reach run = lowerer.reach other := by
  simp only [reach, hmachine, hinstructions]

theorem lower_of_faulted {fault : Fault} (h : (lowerer.run expression).ending = .faulted fault) :
    lowerer.lower expression =
      { lowerer := lowerer.reach (lowerer.run expression)
        events := (lowerer.run expression).events
        result := .error fault } := by
  unfold run at h
  simp only [lower, h, reach, run]

theorem lower_of_ended (h : ∀ fault, (lowerer.run expression).ending ≠ .faulted fault) :
    lowerer.lower expression =
      { lowerer := lowerer.reach (lowerer.run expression)
        events := (lowerer.run expression).events ++ [.finished expression (lowerer.run expression).status
          (lowerer.run expression).instructions.length (lowerer.run expression).machine.stack.length]
        result := .ok (summary expression (lowerer.run expression)) } := by
  unfold run at h
  cases he : (lowerer.machine.run lowerer.dialect lowerer.strict expression 0 (tokens expression)).ending with
  | faulted fault => exact absurd he (h fault)
  | completed | stopped => simp only [lower, he, reach, run, summary]

theorem lower_lowerer (lowerer : Lowerer) (expression : String) :
    (lowerer.lower expression).lowerer = lowerer.reach (lowerer.run expression) := by
  by_cases h : ∃ fault, (lowerer.run expression).ending = .faulted fault
  · obtain ⟨fault, h⟩ := h
    rw [lower_of_faulted h]
  · rw [lower_of_ended fun fault hf => h ⟨fault, hf⟩]

theorem result_eq_error {fault : Fault} :
    (lowerer.lower expression).result = .error fault ↔ (lowerer.run expression).ending = .faulted fault := by
  by_cases h : ∃ fault, (lowerer.run expression).ending = .faulted fault
  · obtain ⟨found, h⟩ := h
    rw [lower_of_faulted h, h, Except.error.injEq, Ending.faulted.injEq]
  · rw [lower_of_ended fun fault hf => h ⟨fault, hf⟩]
    exact ⟨(nomatch ·), fun he => absurd ⟨fault, he⟩ h⟩

theorem result_eq_ok {lowering : Lowering} : (lowerer.lower expression).result = .ok lowering ↔
    (∀ fault, (lowerer.run expression).ending ≠ .faulted fault) ∧
      summary expression (lowerer.run expression) = lowering := by
  by_cases h : ∃ fault, (lowerer.run expression).ending = .faulted fault
  · obtain ⟨found, h⟩ := h
    rw [lower_of_faulted h]
    exact ⟨(nomatch ·), fun he => absurd h (he.1 found)⟩
  · rw [lower_of_ended fun fault hf => h ⟨fault, hf⟩, Except.ok.injEq]
    exact ⟨fun he => ⟨fun fault hf => h ⟨fault, hf⟩, he⟩, fun he => he.2⟩

/-! ### From the beginning -/

/-- A lowerer that has not lowered anything. -/
def fresh (architecture : String) (dialect : Dialect) (strict : Bool) : Lowerer :=
  { architecture, dialect, strict }

/-- A lowerer after some expressions, however each of them came out. -/
def lowered (lowerer : Lowerer) (expressions : List String) : Lowerer :=
  expressions.foldl (fun lowerer expression => (lowerer.lower expression).lowerer) lowerer

theorem lowered_cons (lowerer : Lowerer) (expression : String) (rest : List String) :
    lowerer.lowered (expression :: rest) = (lowerer.reach (lowerer.run expression)).lowered rest := by
  rw [← lower_lowerer]
  rfl

end Lowerer
end EsilLowering
