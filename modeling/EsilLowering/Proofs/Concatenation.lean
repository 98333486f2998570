import EsilLowering.Proofs.Strictness

/-! # Expressions joined by a comma

The tokens of two expressions with a comma between them are the tokens of the one and then those of the
other. So lowering both at once comes to lowering one after the other, if the first is lowered to its
end; what is noted of the second is then noted further on. If the first does not come to its end, the
second is not looked at. -/

namespace EsilLowering

theorem tokens_append (first second : String) : tokens (first ++ "," ++ second) = tokens first ++ tokens second :=
  Text.fields_append tokenSeparator first second

/-! ### Diagnostics of a part, noted of the whole -/

/-- A place in an expression as a place in another one, so many tokens further on. -/
def TokenLocation.moved (whole : String) (offset : Nat) (place : TokenLocation) : TokenLocation :=
  { place with expression := whole, position := place.position + offset }

/-- A diagnostic with its place in another expression. -/
def Diagnostic.moved (whole : String) (offset : Nat) (diagnostic : Diagnostic) : Diagnostic :=
  { diagnostic with error.location? := diagnostic.error.location?.map (·.moved whole offset) }

section
variable {whole : String} {offset : Nat} {diagnostic : Diagnostic}

theorem Diagnostic.token_moved : (diagnostic.moved whole offset).token = diagnostic.token := by
  simp only [token, moved, Option.map_map]
  rfl

theorem Diagnostic.position_moved (located : diagnostic.error.location?.isSome) :
    (diagnostic.moved whole offset).position = diagnostic.position + offset := by
  obtain ⟨place, hplace⟩ := Option.isSome_iff_exists.mp located
  simp [position, moved, hplace, TokenLocation.moved]

theorem Step.noted_moved (step : Step) (whole : String) (offset : Nat) (expression token : String) (position : Nat) :
    step.noted false { expression := whole, position := (position + offset : Nat), token } =
      (step.noted false { expression, position, token }).map (·.moved whole offset) := by
  unfold noted
  split <;> rfl

end

/-! ### A run gone on with -/

/-- A run that is gone on with where it has ended, if it has read all its tokens. -/
def Run.andThen (run : Run) (next : Machine → Run) : Run :=
  if run.ending = .completed then
    let rest := next run.machine
    { rest with
      instructions := run.instructions ++ rest.instructions
      diagnostics := run.diagnostics ++ rest.diagnostics
      events := run.events ++ rest.events }
  else run

section
variable {run : Run} {next : Machine → Run}

theorem Run.andThen_of_completed (h : run.ending = .completed) :
    run.andThen next =
      { next run.machine with
        instructions := run.instructions ++ (next run.machine).instructions
        diagnostics := run.diagnostics ++ (next run.machine).diagnostics
        events := run.events ++ (next run.machine).events } :=
  if_pos h

theorem Run.andThen_of_ended (h : run.ending ≠ .completed) : run.andThen next = run :=
  if_neg h

theorem Run.after_andThen (step : Step) (diagnostics : List Diagnostic) (events : List Event) :
    (run.after step diagnostics events).andThen next = (run.andThen next).after step diagnostics events := by
  have same : (run.after step diagnostics events).ending = run.ending := rfl
  by_cases h : run.ending = .completed
  · rw [andThen_of_completed h, andThen_of_completed (same.trans h)]
    simp only [after, List.append_assoc]
  · rw [andThen_of_ended h, andThen_of_ended (same ▸ h)]

end

section
variable {dialect : Dialect} {strict : Bool} {expression : String} {position : Nat} {machine : Machine}
  {earlier : List String}

/-- Running over two lists of tokens is running over the one and then, if it comes to its end, over the
other. -/
theorem Machine.run_append (later : List String) :
    machine.run dialect strict expression position (earlier ++ later) =
      (machine.run dialect strict expression position earlier).andThen fun reached =>
        reached.run dialect strict expression (position + earlier.length) later := by
  induction earlier generalizing position machine with
  | nil => rfl
  | cons token rest ih =>
    cases ends : (machine.read dialect token).ending? strict { expression, position, token } with
    | some ending =>
      have early : ending ≠ .completed := fun h => Step.ending?_ne_completed (h ▸ ends)
      rw [List.cons_append, run_of_ending ends, run_of_ending ends, Run.andThen_of_ended early]
    | none =>
      have onward : position + 1 + rest.length = position + (token :: rest).length := by
        rw [List.length_cons]
        omega
      rw [List.cons_append, run_of_onward ends, run_of_onward ends, Run.after_andThen, ih, onward]

theorem Machine.tokensConsumed_of_completed
    (completed : (machine.run dialect strict expression position earlier).ending = .completed) :
    (machine.run dialect strict expression position earlier).tokensConsumed = position + earlier.length := by
  induction earlier generalizing position machine with
  | nil => rfl
  | cons token rest ih =>
    cases ends : (machine.read dialect token).ending? strict { expression, position, token } with
    | some ending =>
      rw [run_of_ending ends] at completed
      cases completed
      exact absurd ends Step.ending?_ne_completed
    | none =>
      rw [run_of_onward ends] at completed ⊢
      rw [Run.tokensConsumed_after, ih completed, List.length_cons]
      omega

/-! ### A run told of another expression -/

/-- One run does what another does, and notes it of another expression, so many tokens further on. -/
structure Run.Retells (whole : String) (offset : Nat) (run told : Run) : Prop where
  machine : told.machine = run.machine
  ending : told.ending = run.ending
  tokensConsumed : told.tokensConsumed = run.tokensConsumed + offset
  instructions : told.instructions = run.instructions
  diagnostics : told.diagnostics = run.diagnostics.map (·.moved whole offset)

theorem Run.Retells.after {whole : String} {offset : Nat} {run told : Run} (h : run.Retells whole offset told)
    (step : Step) {noted moved : List Diagnostic} (hnoted : moved = noted.map (·.moved whole offset))
    (events others : List Event) :
    (run.after step noted events).Retells whole offset (told.after step moved others) where
  machine := h.machine
  ending := h.ending
  tokensConsumed := h.tokensConsumed
  instructions := congrArg (_ ++ ·) h.instructions
  diagnostics := by simp only [diagnostics_after, hnoted, h.diagnostics, List.map_append]

/-- The expression and the position that a lenient run is told matter to its reports alone. -/
theorem Machine.run_retells (whole : String) (offset : Nat) :
    (machine.run dialect false expression position earlier).Retells whole offset
      (machine.run dialect false whole (position + offset) earlier) := by
  induction earlier generalizing position machine with
  | nil => exact ⟨rfl, rfl, rfl, rfl, rfl⟩
  | cons token rest ih =>
    have hnoted := (machine.read dialect token).noted_moved whole offset expression token position
    -- In lenient mode no ending tells of a place, so the token ends both runs or neither.
    have same : (machine.read dialect token).ending? false
        { expression := whole, position := (position + offset : Nat), token } =
          (machine.read dialect token).ending? false { expression, position, token } := rfl
    cases ends : (machine.read dialect token).ending? false { expression, position, token } with
    | some ending =>
      have ended : (Run.ended (machine.read dialect token) position ending).Retells whole offset
          (Run.ended (machine.read dialect token) (position + offset) ending) := ⟨rfl, rfl, rfl, rfl, rfl⟩
      rw [run_of_ending ends, run_of_ending (same.trans ends)]
      exact ended.after _ hnoted _ _
    | none =>
      rw [run_of_onward ends, run_of_onward (same.trans ends), Nat.add_right_comm]
      exact ih.after _ hnoted _ _

/-- Whatever a run notes, it notes of a token. -/
theorem Machine.run_located :
    ∀ diagnostic ∈ (machine.run dialect strict expression position earlier).diagnostics,
      diagnostic.error.location?.isSome := by
  induction earlier generalizing position machine with
  | nil => exact fun diagnostic h => nomatch h
  | cons token rest ih =>
    have first : ∀ diagnostic ∈ (machine.read dialect token).noted strict { expression, position, token },
        diagnostic.error.location?.isSome := by
      unfold Step.noted
      split
      · split <;> simp [Diagnostic.ofProblem]
      · simp
    intro diagnostic h
    cases ends : (machine.read dialect token).ending? strict { expression, position, token } with
    | some ending =>
      rw [run_of_ending ends, Run.diagnostics_after] at h
      exact (List.mem_append.mp h).elim (first diagnostic) fun h => nomatch h
    | none =>
      rw [run_of_onward ends, Run.diagnostics_after] at h
      exact (List.mem_append.mp h).elim (first diagnostic) (ih diagnostic)

end

/-! ### Lowering the whole -/

section
variable {run rest whole : Run}

theorem Run.status_eq_failed : run.status = .failed ↔ run.ending = .stopped := by
  unfold status
  split
  · simp_all
  · split <;> simp_all

theorem Run.completed_of_status (ends : ∀ fault, run.ending ≠ .faulted fault) (goes : run.status ≠ .failed) :
    run.ending = .completed := by
  cases ending : run.ending with
  | completed => rfl
  | stopped => exact absurd (status_eq_failed.mpr ending) goes
  | faulted fault => exact absurd ending (ends fault)

theorem Run.status_joined (completed : run.ending = .completed) (ending : whole.ending = rest.ending)
    (diagnostics : whole.diagnostics = [] ↔ run.diagnostics = [] ∧ rest.diagnostics = []) :
    whole.status =
      if rest.status = .failed then .failed
      else if run.status = .incomplete ∨ rest.status = .incomplete then .incomplete
      else .success := by
  by_cases stopped : rest.ending = .stopped
  · rw [if_pos (status_eq_failed.mpr stopped), status_eq_failed, ending]
    exact stopped
  · rw [if_neg (mt status_eq_failed.mp stopped)]
    by_cases hrun : run.diagnostics = [] <;> by_cases hrest : rest.diagnostics = [] <;>
      simp [status, ending, completed, stopped, diagnostics, hrun, hrest]

end

namespace Lowerer
variable {lowerer : Lowerer}

theorem run_of_lenient (lenient : lowerer.strict = false) (expression : String) :
    lowerer.run expression = lowerer.machine.run lowerer.dialect false expression 0 (tokens expression) := by
  rw [run, lenient]

theorem run_retells (lenient : lowerer.strict = false) (first whole : String) :
    (lowerer.run first).Retells whole 0 (lowerer.machine.run lowerer.dialect false whole 0 (tokens first)) := by
  rw [run_of_lenient lenient]
  exact Machine.run_retells whole 0

theorem run_append (lenient : lowerer.strict = false) (first second : String) :
    lowerer.run (first ++ "," ++ second) =
      (lowerer.machine.run lowerer.dialect false (first ++ "," ++ second) 0 (tokens first)).andThen fun reached =>
        reached.run lowerer.dialect false (first ++ "," ++ second) (0 + (tokens first).length) (tokens second) := by
  rw [run_of_lenient lenient, tokens_append, Machine.run_append]

/-- If the first part is not lowered to its end, lowering the whole ends where lowering the part does. -/
theorem run_joined_of_ended (lenient : lowerer.strict = false) {first : String}
    (ended : (lowerer.run first).ending ≠ .completed) (second : String) :
    (lowerer.run first).Retells (first ++ "," ++ second) 0 (lowerer.run (first ++ "," ++ second)) := by
  have told := run_retells lenient first (first ++ "," ++ second)
  rw [run_append lenient, Run.andThen_of_ended (told.ending ▸ ended)]
  exact told

/-- If the first part is lowered to its end, lowering the whole goes on as lowering the second part after
it does. -/
theorem run_joined_of_completed (lenient : lowerer.strict = false) {first : String}
    (completed : (lowerer.run first).ending = .completed) (second : String) :
    let whole := lowerer.run (first ++ "," ++ second)
    let rest := (lowerer.reach (lowerer.run first)).run second
    whole.machine = rest.machine ∧ whole.ending = rest.ending ∧
      whole.tokensConsumed = (lowerer.run first).tokensConsumed + rest.tokensConsumed ∧
      whole.instructions = (lowerer.run first).instructions ++ rest.instructions ∧
      whole.diagnostics = (lowerer.run first).diagnostics.map (·.moved (first ++ "," ++ second) 0) ++
        rest.diagnostics.map (·.moved (first ++ "," ++ second) (tokens first).length) := by
  intro whole rest
  have told := run_retells lenient first (first ++ "," ++ second)
  have onward : rest.Retells (first ++ "," ++ second) (tokens first).length
      ((lowerer.run first).machine.run lowerer.dialect false (first ++ "," ++ second) (0 + (tokens first).length)
        (tokens second)) := by
    have still : (lowerer.reach (lowerer.run first)).strict = false := lenient
    rw [show rest = _ from run_of_lenient still second]
    exact Machine.run_retells _ _
  have consumed : (lowerer.run first).tokensConsumed = (tokens first).length :=
    (Machine.tokensConsumed_of_completed completed).trans (Nat.zero_add _)
  rw [show whole = _ from run_append lenient first second, Run.andThen_of_completed (told.ending.trans completed),
    told.machine]
  refine ⟨onward.machine, onward.ending, ?_, ?_, ?_⟩
  · rw [consumed, Nat.add_comm (tokens first).length]
    exact onward.tokensConsumed
  · rw [← told.instructions, ← onward.instructions]
  · rw [← told.diagnostics, ← onward.diagnostics]

/-- Lenient lowering takes a comma between two expressions for the step from the one to the other. If the
first is lowered to its end, lowering both at once leaves what lowering one after the other leaves and
answers with both results together, where what is noted of the second has its place in the whole; a
numeral of the second that is too long ends both. If the first is not lowered to its end, the second is
not looked at. -/
theorem lower_joined (lowerer : Lowerer) (first second : String) :
    let lenient := { lowerer with strict := false }
    let whole := first ++ "," ++ second
    let reached := (lenient.lower first).lowerer
    (∀ one : Lowering, (lenient.lower first).result = .ok one → one.status ≠ .failed →
      (lenient.lower whole).lowerer = (reached.lower second).lowerer ∧
      (∀ other : Lowering, (reached.lower second).result = .ok other →
        (lenient.lower whole).result = .ok
          { expression := whole
            status :=
              if other.status = .failed then .failed
              else if one.status = .incomplete ∨ other.status = .incomplete then .incomplete
              else .success
            instructions := one.instructions ++ other.instructions
            diagnostics :=
              one.diagnostics.map (·.moved whole 0) ++ other.diagnostics.map (·.moved whole (tokens first).length)
            tokensConsumed := one.tokensConsumed + other.tokensConsumed } ∧
        ∀ diagnostic ∈ other.diagnostics,
          let moved := diagnostic.moved whole (tokens first).length
          moved.kind = diagnostic.kind ∧ moved.message = diagnostic.message ∧ moved.token = diagnostic.token ∧
            moved.position = diagnostic.position + (tokens first).length) ∧
      ∀ fault, (reached.lower second).result = .error fault → (lenient.lower whole).result = .error fault) ∧
    (∀ one : Lowering, (lenient.lower first).result = .ok one → one.status = .failed →
      (lenient.lower whole).lowerer = reached ∧
      (lenient.lower whole).result = .ok
        { one with expression := whole, diagnostics := one.diagnostics.map (·.moved whole 0) }) ∧
    ∀ fault, (lenient.lower first).result = .error fault →
      (∃ refusal, fault = .refused (.tooManyDigits refusal)) ∧
      (lenient.lower whole).lowerer = reached ∧ (lenient.lower whole).result = .error fault := by
  intro lenient whole reached
  have hlenient : lenient.strict = false := rfl
  have hreached : reached = lenient.reach (lenient.run first) := lower_lowerer lenient first
  rw [hreached]
  refine ⟨fun one result goes => ?_, fun one result failed => ?_, fun fault result => ?_⟩
  · obtain ⟨ends, rfl⟩ := result_eq_ok.mp result
    have completed := Run.completed_of_status ends goes
    obtain ⟨hmachine, hending, hconsumed, hinstructions, hdiagnostics⟩ :=
      run_joined_of_completed hlenient completed second
    refine ⟨?_, fun other result => ⟨?_, fun diagnostic noted => ⟨rfl, rfl, ?_, ?_⟩⟩, fun fault result => ?_⟩
    · rw [lower_lowerer, lower_lowerer]
      simp only [whole, reach, hmachine, hinstructions, List.append_assoc]
    · obtain ⟨ends, rfl⟩ := result_eq_ok.mp result
      have status := Run.status_joined completed hending (by rw [hdiagnostics]; simp)
      refine result_eq_ok.mpr ⟨fun fault => hending ▸ ends fault, ?_⟩
      rw [summary, status, hinstructions, hdiagnostics, hconsumed]
      rfl
    · exact Diagnostic.token_moved
    · obtain ⟨-, rfl⟩ := result_eq_ok.mp result
      exact Diagnostic.position_moved (Machine.run_located diagnostic noted)
    · exact result_eq_error.mpr (hending.trans (result_eq_error.mp result))
  · obtain ⟨ends, rfl⟩ := result_eq_ok.mp result
    have stopped : (lenient.run first).ending = .stopped := Run.status_eq_failed.mp failed
    have ended : (lenient.run first).ending ≠ .completed := by simp [stopped]
    have told := run_joined_of_ended hlenient ended second
    refine ⟨?_, result_eq_ok.mpr ⟨fun fault => told.ending ▸ ends fault, ?_⟩⟩
    · rw [lower_lowerer]
      exact reach_congr told.machine told.instructions
    · have status : (lenient.run whole).status = (lenient.run first).status :=
        (Run.status_eq_failed.mpr (told.ending.trans stopped)).trans failed.symm
      simp only [summary, status, told.instructions, told.diagnostics, told.tokensConsumed, Nat.add_zero, whole]
  · have faulted := result_eq_error.mp result
    have ended : (lenient.run first).ending ≠ .completed := by simp [faulted]
    have told := run_joined_of_ended hlenient ended second
    refine ⟨Machine.run_lenient_fault faulted, ?_, result_eq_error.mpr (told.ending.trans faulted)⟩
    rw [lower_lowerer]
    exact reach_congr told.machine told.instructions

end Lowerer
end EsilLowering
