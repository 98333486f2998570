import EsilLowering.Proofs.History

/-! # Strict and lenient runs

A strict run is the lenient run cut at its first problem. Until then the two do the same; there the
strict run faults with the error that the lenient run notes, and the machine stays as the token has
left it. -/

namespace EsilLowering

section
variable {dialect : Dialect} {expression token : String} {position : Nat} {tokens rest : List String}
  {machine : Machine}

/-! ### One token before the others -/

/-- A lenient run without problems begins with a token that did its work, or ends with a numeral that
is too long; strictness makes no difference to either. -/
theorem Machine.run_cons_clean
    (clean : (machine.run dialect false expression position (token :: rest)).diagnostics = []) :
    ((machine.read dialect token).halt? = none ∧
      ((machine.read dialect token).machine.run dialect false expression (position + 1) rest).diagnostics = []) ∨
    ∃ refusal, (machine.read dialect token).halt? = some (.tooManyDigits refusal) := by
  cases halted : (machine.read dialect token).halt? with
  | none =>
    rw [run_of_done halted] at clean
    exact Or.inl ⟨rfl, clean⟩
  | some halt =>
    cases halt with
    | tooManyDigits refusal => exact Or.inr ⟨refusal, rfl⟩
    | problem problem =>
      cases stops : problem.stops with
      | true => simp [run_of_stop halted stops] at clean
      | false => simp [run_of_skip halted stops] at clean

/-- A token with a problem, at the end of a lenient run, leaves what it leaves to a strict run. -/
theorem Machine.run_last_problem (expression : String) (position : Nat) {problem : Problem}
    (halted : (machine.read dialect token).halt? = some (.problem problem)) :
    (machine.run dialect false expression position [token]).machine = (machine.read dialect token).machine ∧
      (machine.run dialect false expression position [token]).instructions =
        (machine.read dialect token).instructions := by
  cases stops : problem.stops with
  | true => simp [run_of_stop halted stops, Run.ended]
  | false => simp [run_of_skip halted stops, run_nil]

/-! ### Whole runs -/

theorem Machine.run_strict_of_clean
    (clean : (machine.run dialect false expression position tokens).diagnostics = []) :
    machine.run dialect true expression position tokens = machine.run dialect false expression position tokens := by
  induction tokens generalizing position machine with
  | nil => rfl
  | cons token rest ih =>
    rcases run_cons_clean clean with ⟨done, onward⟩ | ⟨refusal, halted⟩
    · rw [run_of_done done, run_of_done done, ih onward]
    · rw [run_of_tooManyDigits halted, run_of_tooManyDigits halted]

theorem Machine.run_lenient_fault {fault : Fault}
    (faulted : (machine.run dialect false expression position tokens).ending = .faulted fault) :
    ∃ refusal, fault = .refused (.tooManyDigits refusal) := by
  induction tokens generalizing position machine with
  | nil => cases faulted
  | cons token rest ih =>
    cases halted : (machine.read dialect token).halt? with
    | none =>
      rw [run_of_done halted] at faulted
      exact ih faulted
    | some halt =>
      cases halt with
      | tooManyDigits refusal =>
        rw [run_of_tooManyDigits halted] at faulted
        exact ⟨refusal, (Ending.faulted.inj faulted).symm⟩
      | problem problem =>
        cases stops : problem.stops with
        | true => simp [run_of_stop halted stops, Run.ended] at faulted
        | false =>
          rw [run_of_skip halted stops] at faulted
          exact ih faulted

/-- Where a lenient run notes its first problem, the strict run faults with it, in the state that the
lenient run has when it is done with that token. -/
theorem Machine.run_strict_of_first {first : Diagnostic} {later : List Diagnostic}
    (noted : (machine.run dialect false expression position tokens).diagnostics = first :: later) :
    ∃ before token after, tokens = before ++ token :: after ∧
      first.error.location? = some { expression, position := (position + before.length : Nat), token } ∧
      (machine.run dialect false expression position before).diagnostics = [] ∧
      (machine.run dialect true expression position tokens).ending = .faulted (.lowering first.error) ∧
      (machine.run dialect true expression position tokens).machine =
        (machine.run dialect false expression position (before ++ [token])).machine ∧
      (machine.run dialect true expression position tokens).instructions =
        (machine.run dialect false expression position (before ++ [token])).instructions := by
  induction tokens generalizing position machine with
  | nil => cases noted
  | cons token rest ih =>
    cases halted : (machine.read dialect token).halt? with
    | none =>
      rw [run_of_done halted] at noted
      obtain ⟨before, found, after, rfl, place, clean, ending, hmachine, hinstructions⟩ := ih noted
      refine ⟨token :: before, found, after, rfl, ?_, ?_, ?_, ?_, ?_⟩
      · rw [place, List.length_cons, Nat.add_assoc, Nat.add_comm 1]
      · rw [run_of_done halted]
        exact clean
      · rw [run_of_done halted]
        exact ending
      · rw [List.cons_append, run_of_done halted, run_of_done halted]
        exact hmachine
      · rw [List.cons_append, run_of_done halted, run_of_done halted]
        exact congrArg (_ ++ ·) hinstructions
    | some halt =>
      cases halt with
      | tooManyDigits refusal => simp [run_of_tooManyDigits halted, Run.ended] at noted
      | problem problem =>
        have hfirst : first = Diagnostic.ofProblem problem { expression, position, token } := by
          cases stops : problem.stops with
          | true =>
            rw [run_of_stop halted stops] at noted
            exact (List.cons.inj noted).1.symm
          | false =>
            rw [run_of_skip halted stops] at noted
            exact (List.cons.inj noted).1.symm
        -- Whether the lenient run stops here or goes on, up to this token it has done what the strict run did.
        obtain ⟨hmachine, hinstructions⟩ := run_last_problem expression position halted
        refine ⟨[], token, rest, rfl, ?_, rfl, ?_, ?_, ?_⟩
        · rw [hfirst]
          rfl
        · rw [run_of_strict halted, hfirst]
          rfl
        · rw [run_of_strict halted, List.nil_append, hmachine]
          rfl
        · rw [run_of_strict halted, List.nil_append, hinstructions]
          simp [Run.ended]

end

/-! ### Lowering an expression -/

/-- Strict lowering keeps what lenient lowering has when it is done with the token of its first problem. -/
theorem Lowerer.lower_strict_of_first {lowerer : Lowerer} {expression : String} {first : Diagnostic}
    {later : List Diagnostic}
    (noted : ({ lowerer with strict := false }.run expression).diagnostics = first :: later) :
    ∃ (index : Nat) (token : String), (tokens expression)[index]? = some token ∧
      first.error.location? = some { expression, position := index, token } ∧
      ({ lowerer with strict := false }.runFirst expression index).diagnostics = [] ∧
      ({ lowerer with strict := true }.lower expression).lowerer =
        { lowerer with strict := true }.reach ({ lowerer with strict := false }.runFirst expression (index + 1)) := by
  obtain ⟨before, token, after, htokens, place, clean, -, hmachine, hinstructions⟩ :=
    Machine.run_strict_of_first noted
  refine ⟨before.length, token, ?_, ?_, ?_, ?_⟩
  · rw [htokens, List.getElem?_append_right (Nat.le_refl _), Nat.sub_self]
    rfl
  · rw [place, Nat.zero_add]
  · have cut : (tokens expression).take before.length = before := by
      rw [htokens, List.take_left' rfl]
    rw [runFirst, cut]
    exact clean
  · have cut : (tokens expression).take (before.length + 1) = before ++ [token] := by
      rw [htokens, List.append_cons, List.take_left' (by simp)]
    rw [lower_lowerer, runFirst, cut]
    exact reach_congr hmachine hinstructions

/-- Strict lowering is lenient lowering up to the first problem. Without a problem both come to the same,
be it a result or a numeral that is too long. With one, strict lowering faults with the error that
lenient lowering notes first, and keeps what lenient lowering has when it is done with that token. -/
theorem Lowerer.strict_follows_lenient (lowerer : Lowerer) (expression : String) :
    let lenient := { lowerer with strict := false }
    let strict := { lowerer with strict := true }
    (∀ lowering, (lenient.lower expression).result = .ok lowering → lowering.diagnostics = [] →
      (strict.lower expression).result = .ok lowering ∧
      (strict.lower expression).lowerer = { (lenient.lower expression).lowerer with strict := true }) ∧
    (∀ first later, (lenient.run expression).diagnostics = first :: later →
      (strict.lower expression).result = .error (.lowering first.error) ∧
      (∃ (index : Nat) (token : String), (tokens expression)[index]? = some token ∧
        first.error.location? = some { expression, position := index, token } ∧
        (lenient.runFirst expression index).diagnostics = [] ∧
        (strict.lower expression).lowerer = strict.reach (lenient.runFirst expression (index + 1))) ∧
      ∀ lowering, (lenient.lower expression).result = .ok lowering →
        lowering.diagnostics = first :: later ∧ lowering.fault? = some (.lowering first.error)) ∧
    (∀ fault, (lenient.lower expression).result = .error fault → (lenient.run expression).diagnostics = [] →
      (∃ refusal, fault = .refused (.tooManyDigits refusal)) ∧
      (strict.lower expression).result = .error fault ∧
      (strict.lower expression).lowerer = { (lenient.lower expression).lowerer with strict := true }) := by
  intro lenient strict
  have same : (lenient.run expression).diagnostics = [] → strict.run expression = lenient.run expression :=
    fun clean => Machine.run_strict_of_clean clean
  have reached : (lenient.run expression).diagnostics = [] →
      (strict.lower expression).lowerer = { (lenient.lower expression).lowerer with strict := true } := fun clean => by
    rw [lower_lowerer, lower_lowerer, same clean]
    rfl
  refine ⟨fun lowering result none => ?_,
    fun first later noted => ⟨?_, lower_strict_of_first noted, fun lowering result => ?_⟩,
    fun fault result clean => ⟨?_, ?_, reached clean⟩⟩
  · obtain ⟨ends, hsummary⟩ := result_eq_ok.mp result
    have clean : (lenient.run expression).diagnostics = [] := by rw [← hsummary] at none; exact none
    refine ⟨result_eq_ok.mpr ?_, reached clean⟩
    rw [same clean]
    exact ⟨ends, hsummary⟩
  · obtain ⟨-, -, -, -, -, -, ending, -⟩ := Machine.run_strict_of_first noted
    exact result_eq_error.mpr ending
  · obtain ⟨-, rfl⟩ := result_eq_ok.mp result
    exact ⟨noted, by simp [Lowering.fault?, summary, noted]⟩
  · exact Machine.run_lenient_fault (result_eq_error.mp result)
  · rw [result_eq_error] at result ⊢
    rw [same clean]
    exact result

end EsilLowering
