import GoalBudget.Proofs.Program.Release
import GoalBudget.Simplex.Solver

/-!
# Backends that fail

A run of a backend ends in one of three ways: it stops without a solution, be it while the program
is stated or when it is to be solved (`Backend.Stops`), it ends with a solution, or it ends with any
other fault. An attempt takes the first for no solution and passes on the last
(`Backend.attempt_cases`).

The simplex method has a fault of its own: it takes no binary column, so it comes to an end at the
first one of a program that has any (`Simplex.answer_run_of_binary`). Everything else about the
columns of its program it takes, so that no other refusal can come before that one.
-/

namespace GoalBudget

namespace Backend

/-- Whether a backend stops without a solution, at a statement or at the end. -/
def Stops (b : Backend Rat) (calls : List (Call Rat)) : Prop :=
  (∃ status, (b.run calls).answer = .error (.stopped status)) ∨
    ∃ answer, (b.run calls).answer = .ok answer ∧ answer.status ≠ .optimal

/-- The three ways in which an attempt ends. -/
theorem attempt_cases (b : Backend Rat) (calls : List (Call Rat)) :
    (b.Stops calls ∧ b.attempt calls = .ok none) ∨
      (∃ answer, (b.run calls).answer = .ok answer ∧ answer.status = .optimal ∧
        b.attempt calls = .ok (some answer.solution)) ∨
      ∃ fault, (b.run calls).answer = .error fault ∧ (∀ status, fault ≠ .stopped status) ∧
        b.attempt calls = .error fault := by
  unfold attempt
  split
  next answer hanswer =>
    by_cases hstatus : answer.status = .optimal
    · rw [if_pos hstatus]
      exact .inr (.inl ⟨answer, hanswer, hstatus, rfl⟩)
    · rw [if_neg hstatus]
      exact .inl ⟨.inr ⟨answer, hanswer, hstatus⟩, rfl⟩
  next status hstopped => exact .inl ⟨.inl ⟨status, hstopped⟩, rfl⟩
  next fault hfault hother => exact .inr (.inr ⟨fault, hother, fun status => hfault status, rfl⟩)

/-- An attempt at a program at which the backend stops finds nothing. -/
theorem Stops.attempt {b : Backend Rat} {calls : List (Call Rat)} (h : b.Stops calls) :
    b.attempt calls = .ok none := by
  rcases h with ⟨status, hstopped⟩ | ⟨answer, hanswer, hstatus⟩
  · rw [Backend.attempt, hstopped]
  · rw [Backend.attempt, hanswer]
    exact congrArg _ (if_neg hstatus)

end Backend

namespace Simplex

/-- The simplex method takes whatever is about the columns of its program, but for binary
ones. -/
theorem check_of_fits {n : Nat} {call : Call Rat} (hfits : call.Fits n) :
    check n call = .ok () ∨ (∃ column, call = .binary column) ∧
      check n call = .error .binaryUnsupported := by
  cases call with
  | objective coeffs maximize => exact .inl (if_pos hfits)
  | row row => exact .inl (if_pos hfits)
  | bounds column lower upper =>
    exact .inl ((if_neg (not_not.mpr hfits)).trans (if_pos rfl))
  | binary column => exact .inr ⟨⟨column, rfl⟩, rfl⟩

/-- A program with a binary column is refused, at whatever point the column is stated. -/
theorem answer_runFrom_of_binary {n : Nat} {calls : List (Call Rat)}
    (hfits : ∀ call ∈ calls, call.Fits n) (hbinary : ∃ column, .binary column ∈ calls)
    (taken : List (Call Rat)) :
    ((backend n).runFrom taken calls).answer = .error .binaryUnsupported := by
  induction calls generalizing taken with
  | nil =>
    obtain ⟨_, hmem⟩ := hbinary
    cases hmem
  | cons call rest ih =>
    obtain ⟨hcall, hrest⟩ := List.forall_mem_cons.mp hfits
    rw [Backend.runFrom]
    -- A call that fits is taken or is the binary one; the first binary one ends the run.
    rcases check_of_fits hcall with htaken | ⟨_, hrefused⟩
    · have haccept : (backend n : Backend Rat).accept taken call = .ok () := htaken
      rw [haccept]
      refine ih hrest ?_ _
      obtain ⟨column, hmem⟩ := hbinary
      rcases List.mem_cons.mp hmem with rfl | hmem
      · cases htaken
      · exact ⟨column, hmem⟩
    · have haccept : (backend n : Backend Rat).accept taken call = .error .binaryUnsupported :=
        hrefused
      rw [haccept]

/-- A program with a binary column, stated from its beginning. -/
theorem answer_run_of_binary {n : Nat} {calls : List (Call Rat)}
    (hfits : ∀ call ∈ calls, call.Fits n) (hbinary : ∃ column, .binary column ∈ calls) :
    ((backend n).run calls).answer = .error .binaryUnsupported :=
  answer_runFrom_of_binary hfits hbinary []

end Simplex

end GoalBudget
