import GoalBudget.Proofs.Fuzzy.Consultation
import GoalBudget.Proofs.Ladder.Consultation

/-!
# Falling back

Fuzzy programs and programs with ladders are solved by consulting a backend, so both fall back on
what they do without one. This is the absence of a backend that must not crash, of section 6 of the
specification, together with what a present one may change.

The statement is one for both strategies: backends that decline make no difference; of the backends
only the one for the width of the program is asked, once, and it is released last; of its solution
the amounts of the variables count and no others, and they are moved within the bounds.

Main result: `solve_fallsBack`.
-/

namespace GoalBudget

/-- With a backend that never has an optimal solution the two strategies come to exactly the
result, or the fault, that they come to without one. A backend is asked about all its columns
and released once; of an optimal solution the amounts of the variables count, moved within
their bounds. -/
theorem solve_fallsBack (p : FuzzyProgram Rat) (q : LadderProgram Rat) :
    FallsBack p p.solve p.session? (p.summarize · .milp 1) (·.variableValues) ∧
      FallsBack q q.solve q.session? (q.summarize · .milp 1) (·.variableValues) := by
  constructor
  · refine p.consults.fallsBack fun solution hlength => ?_
    have hlen := GoalProgram.length_clampSolution hlength
    obtain ⟨r, hr, hvalues, _⟩ := FuzzyProgram.exists_summarize hlen .milp 1
    exact ⟨r, hr, hvalues⟩
  · obtain ⟨calls, hconsults⟩ := q.exists_consults
    refine hconsults.fallsBack fun solution hlength => ?_
    have hlen := GoalProgram.length_clampSolution hlength
    obtain ⟨r, hr⟩ := LadderProgram.exists_summarize hlen .milp 1
    exact ⟨r, hr, LadderProgram.summarize_values hr⟩

/-- A variable with a ladder of two levels. -/
def twoRungs : LadderProgram Rat where
  income := 100
  vars := [⟨"food", "food", .category, 15, 80, by decide, by decide⟩]
  goals := [⟨"eat", 0, [⟨20, 1, "some"⟩, ⟨60, 2, "all"⟩], 1, 1, ""⟩]
  index_lt := by decide

/-- Backends are asked and declined, and one that is too generous is moved within the bounds. -/
theorem solve_fallsBack_twoWishes_twoRungs :
    ((FuzzyProgram.twoWishes.session? fun n => some (.scripted .infeasible [7] n)).map
        (·.columns) = some 7 ∧
      FuzzyProgram.twoWishes.solve (fun n => some (.scripted .infeasible [7] n)) =
        FuzzyProgram.twoWishes.solve fun _ => none) ∧
    ((twoRungs.session? fun n => some (.scripted (.other "Timeout") [7] n)).map
        (·.columns) = some 3 ∧
      twoRungs.solve (fun n => some (.scripted (.other "Timeout") [7] n)) =
        twoRungs.solve fun _ => none) ∧
    ∃ r, twoRungs.solve (fun n => some (.scripted .optimal [500] n)) = .ok r ∧
      r.variableValues.entries = [("food", 80)] := by
  obtain ⟨hfuzzy, hladder⟩ := solve_fallsBack FuzzyProgram.twoWishes twoRungs
  refine ⟨⟨by decide +kernel, ?_⟩, ⟨by decide +kernel, ?_⟩, ?_⟩
  · refine hfuzzy.declined _ fun n b hb => ?_
    cases hb
    exact Backend.declines_scripted (by decide) [7] n
  · refine hladder.declined _ fun n b hb => ?_
    cases hb
    exact Backend.declines_scripted (by decide) [7] n
  · have hasked : (twoRungs.session? fun n => some (.scripted .optimal [500] n)).isSome = true := by
      decide +kernel
    obtain ⟨session, hsession⟩ := Option.isSome_iff_exists.mp hasked
    obtain ⟨r, hr, _, hvalues, _⟩ := hladder.found _ session _ _ hsession rfl
      (Backend.finds_scripted [500] _) (Nat.le_add_left ..)
    have hfront (zeros : List Rat) : ([(500 : Rat)] ++ zeros).take twoRungs.vars.length = [500] :=
      rfl
    refine ⟨r, hr, ?_⟩
    rw [hvalues, hfront]
    decide +kernel

end GoalBudget
