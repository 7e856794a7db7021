import GoalBudget.Proofs.Program.Stated
import GoalBudget.Strategy.GoalProgram

/-!
# What happens to a backend

A backend hears statements in order. It hears all of them and is asked for a solution, or it refuses
one and hears no more; either way the release ends the run (`Backend.trace_run`). So it is released
once, and nothing happens to it afterwards (`Backend.releasedOnce_run`). Section 5 of the
specification asks for just this: a backend may wrap a resource, and has to be released on every
path, those of errors included.

`Describe` says when statements make up a program of exactly so many columns: no form is too short
or too long, and no column is missing, stated twice, or one too many. What a backend makes of them
comes in two kinds: it has a solution for them (`Backend.Finds`) or none (`Backend.Declines`).
-/

namespace GoalBudget

/-- The release ends a trace, and there is no other in it. -/
def ReleasedOnce (trace : List (Event Rat)) : Prop :=
  ∃ before, trace = before ++ [.release] ∧ .release ∉ before

/-! ## Statements about all columns -/

/-- Whether a statement is one about `n` columns. -/
def Call.Fits (n : Nat) : Call Rat → Prop
  | .objective coeffs _ => coeffs.length = n
  | .row r => r.coeffs.length = n
  | .bounds column _ _ => 0 ≤ column ∧ column < n
  | .binary column => 0 ≤ column ∧ column < n

/-- Statements that make up a program of `n` columns. -/
structure Describe (n : Nat) (calls : List (Call Rat)) : Prop where
  /-- Every form has `n` coefficients, and no column outside the program is mentioned. -/
  fits : ∀ call ∈ calls, call.Fits n
  /-- Every column of the program is stated, in order and once. -/
  columns : (Program.statedColumns calls).map Prod.fst = List.range n

namespace Backend

variable {b : Backend Rat}

/-! ## The run -/

/-- A run tells the statements up to its end or up to a refusal. -/
theorem trace_runFrom (b : Backend Rat) (taken calls : List (Call Rat)) :
    (b.runFrom taken calls).trace = calls.map .call ++ [.solve, .release] ∨
      ∃ heard, heard <+: calls ∧ (b.runFrom taken calls).trace = heard.map .call ++ [.release] := by
  induction calls generalizing taken with
  | nil => exact .inl rfl
  | cons call rest ih =>
    rw [runFrom]
    cases b.accept taken call with
    | error fault =>
      refine .inr ⟨[call], ?_, rfl⟩
      exact List.prefix_append [call] rest
    | ok _ =>
      rcases ih (taken ++ [call]) with hall | ⟨heard, hprefix, hheard⟩
      · exact .inl (congrArg _ hall)
      · refine .inr ⟨call :: heard, ?_, congrArg _ hheard⟩
        exact List.cons_prefix_cons.mpr ⟨rfl, hprefix⟩

theorem trace_run (b : Backend Rat) (calls : List (Call Rat)) :
    (b.run calls).trace = calls.map .call ++ [.solve, .release] ∨
      ∃ heard, heard <+: calls ∧ (b.run calls).trace = heard.map .call ++ [.release] :=
  b.trace_runFrom [] calls

/-- However a run goes, the backend is released at the end and only there. -/
theorem releasedOnce_run (b : Backend Rat) (calls : List (Call Rat)) :
    ReleasedOnce (b.run calls).trace := by
  rcases b.trace_run calls with htrace | ⟨heard, _, htrace⟩
  · refine ⟨calls.map .call ++ [.solve], ?_, by simp⟩
    rw [htrace, List.append_assoc]
    rfl
  · exact ⟨heard.map .call, htrace, by simp⟩

/-! ## Answers -/

/-- Whatever is stated, the backend ends without an optimal solution. -/
def Declines (b : Backend Rat) : Prop :=
  ∀ calls, ∃ answer, (b.run calls).answer = .ok answer ∧ answer.status ≠ .optimal

/-- Whatever is stated, the backend ends with a solution that it calls optimal. -/
def Finds (b : Backend Rat) (solution : List Rat) : Prop :=
  ∀ calls, ∃ answer, (b.run calls).answer = .ok answer ∧ answer.status = .optimal ∧
    answer.solution = solution

/-- A backend that always reports something other than an optimum declines. -/
theorem declines_scripted {status : Status} (h : status ≠ .optimal) (solution : List Rat)
    (n : Nat) : (scripted status solution n).Declines :=
  fun calls => ⟨_, answer_scripted status solution n calls, h⟩

/-- A script that is called optimal is the solution, with zeros up to the number of columns. -/
theorem finds_scripted (solution : List Rat) (n : Nat) :
    (scripted .optimal solution n).Finds
      (solution ++ List.replicate (n - solution.length) 0) :=
  fun calls => ⟨_, answer_scripted .optimal solution n calls, rfl, rfl⟩

/-- An attempt with a backend that declines finds nothing. -/
theorem Declines.attempt (h : b.Declines) (calls : List (Call Rat)) :
    b.attempt calls = .ok none := by
  obtain ⟨answer, hanswer, hstatus⟩ := h calls
  rw [Backend.attempt, hanswer]
  exact congrArg _ (if_neg hstatus)

/-- An attempt with a backend that has a solution finds it. -/
theorem Finds.attempt {solution : List Rat} (h : b.Finds solution) (calls : List (Call Rat)) :
    b.attempt calls = .ok (some solution) := by
  obtain ⟨answer, hanswer, hstatus, rfl⟩ := h calls
  rw [Backend.attempt, hanswer]
  exact congrArg _ (if_pos hstatus)

end Backend

end GoalBudget
