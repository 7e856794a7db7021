import GoalBudget.Proofs.Deviation.Preemptive
import GoalBudget.Proofs.Deviation.Tiers
import GoalBudget.Proofs.Ladder.Greedy
import GoalBudget.Proofs.Ladder.Tiers
import GoalBudget.Proofs.Strategy.Affordable

/-!
# Less important goals have no say

Two programs with the same important goals may differ in all others, and in where the others stand
among them. The runs are the same up to the last important tier, and a variable that no other goal
is on keeps the amount it has there (`Unaffected`).

This is the strict order of section 4.4 of the specification, said about two runs: what is asked for
less urgently can be changed, added or left out, and the amounts given to what is more urgent do not
notice. It holds for goals served in strict order and for ladders by greedy steps alike, with any
arithmetic, because the argument is about the order of steps and not about amounts:
`unaffected_by_lessImportant`.
-/

namespace GoalBudget

section
variable {α γ σ : Type} [Scalar α] [Scores γ]

/-- What two runs have in common whose programs agree up to a priority. A run goes through a
stage, where the tiers up to the priority are served, and the rest goes on from there. -/
structure Unaffected (priority : γ → Int) (k : Int)
    (run stage : GoalProgram α γ → Except (Fault α) σ)
    (rest : GoalProgram α γ → σ → Except (Fault α) σ) (funds : σ → Funds α)
    (p q : GoalProgram α γ) : Prop where
  /-- Both runs go through their stage. -/
  through : run p = stage p >>= rest p ∧ run q = stage q >>= rest q
  /-- There they are in the same state. -/
  same : stage p = stage q
  /-- A variable that no less important goal of either program is on ends with the same
  amount. -/
  kept : ∀ s s', run p = .ok s → run q = .ok s' →
    ∀ i, (∀ g ∈ p.goals ++ q.goals, k < priority g → Scores.index g ≠ i) →
      (funds s).amounts[i]? = (funds s').amounts[i]?

/-- Two runs are unaffected if the stage is the same and each leaves those variables alone from
there. -/
theorem Unaffected.of_stage {priority : γ → Int} {k : Int}
    {run stage : GoalProgram α γ → Except (Fault α) σ}
    {rest : GoalProgram α γ → σ → Except (Fault α) σ} {funds : σ → Funds α}
    {p q : GoalProgram α γ} (hthrough : ∀ p, run p = stage p >>= rest p)
    (hsame : stage p = stage q)
    (hkept : ∀ p s i, run p = .ok s → (∀ g ∈ p.goals, k < priority g → Scores.index g ≠ i) →
      ∃ t, stage p = .ok t ∧ (funds s).amounts[i]? = (funds t).amounts[i]?) :
    Unaffected priority k run stage rest funds p q := by
  refine ⟨⟨hthrough p, hthrough q⟩, hsame, fun s s' hs hs' i hi => ?_⟩
  obtain ⟨t, ht, hamount⟩ := hkept p s i hs fun g hg => hi g (List.mem_append_left _ hg)
  obtain ⟨t', ht', hamount'⟩ := hkept q s' i hs' fun g hg => hi g (List.mem_append_right _ hg)
  cases ht.symm.trans (hsame.trans ht')
  exact hamount.trans hamount'.symm

/-- Programs that agree up to a priority stand the same after it, and what the goals beyond it
are matters only to the variables that they are on. -/
theorem unaffected_by_lessImportant (k : Int) :
    (∀ p q : DeviationProgram α, p.AgreesUpTo (·.priority) k q →
      Unaffected (·.priority) k DeviationProgram.runPreemptive
        (DeviationProgram.servedUpTo · k) (DeviationProgram.serveBeyond · k) id p q) ∧
    ∀ p q : LadderProgram α, p.AgreesUpTo (·.priority) k q →
      Unaffected (·.priority) k LadderProgram.greedy
        (LadderProgram.greedyUpTo · k) (LadderProgram.serveBeyond · k) Prod.snd p q := by
  constructor
  · intro p q h
    exact .of_stage (DeviationProgram.runPreemptive_eq_bind · k)
      (DeviationProgram.servedUpTo_congr h)
      fun p f i hrun hi => DeviationProgram.amounts_runPreemptive hrun hi
  · intro p q h
    exact .of_stage (LadderProgram.greedy_eq_bind · k) (LadderProgram.greedyUpTo_congr h)
      fun p state i hrun hi => LadderProgram.amounts_greedy hrun hi

end

/-- The rent, fun and a trip. -/
def tenantVars : List (Variable Rat) :=
  [⟨"rent", "rent", .category, 11, 710, by decide, by decide⟩,
    ⟨"fun", "fun", .category, 12, 0, by decide, by decide⟩,
    ⟨"trip", "trip", .goal, 13, 720, by decide, by decide⟩]

/-- Someone who pays the rent, wants to have fun and then a treat. -/
def homebody : DeviationProgram Rat where
  income := 1010
  vars := tenantVars
  goals := [⟨"treat", 1, 340, .exactly, 4, 1, ""⟩, ⟨"pay", 0, 650, .atLeast, 1, 1, ""⟩,
    ⟨"play", 1, 35, .atMost, 2, 1, ""⟩]
  index_lt := by decide

/-- Someone who pays the same rent, wants the same fun and then to travel. -/
def traveller : DeviationProgram Rat where
  income := 1010
  vars := tenantVars
  goals := [⟨"pay", 0, 650, .atLeast, 1, 1, ""⟩, ⟨"travel", 2, 700, .exactly, 3, 2, ""⟩,
    ⟨"play", 1, 35, .atMost, 2, 1, ""⟩]
  index_lt := by decide

/-- The levels of the rent and of a treat. -/
def homebodyLevels : LadderProgram Rat where
  income := 1010
  vars := tenantVars
  goals := [⟨"treat", 1, [⟨340, 2, "treat"⟩], 4, 1, ""⟩,
    ⟨"pay", 0, [⟨300, 1, "part"⟩, ⟨650, 3, "all"⟩], 1, 1, ""⟩]
  index_lt := by decide

/-- The same levels of the rent, and those of a trip. -/
def travellerLevels : LadderProgram Rat where
  income := 1010
  vars := tenantVars
  goals := [⟨"pay", 0, [⟨300, 1, "part"⟩, ⟨650, 3, "all"⟩], 1, 1, ""⟩,
    ⟨"travel", 2, [⟨500, 1, "near"⟩, ⟨700, 5, "far"⟩], 3, 2, ""⟩]
  index_lt := by decide

/-- Both get the same amount for the rent, whatever they want besides. -/
theorem unaffected_by_lessImportant_tenants :
    homebody.AgreesUpTo (·.priority) 2 traveller ∧
      homebodyLevels.AgreesUpTo (·.priority) 2 travellerLevels ∧
      (∃ f f', homebody.runPreemptive = .ok f ∧ traveller.runPreemptive = .ok f' ∧
        f.amounts[0]? = f'.amounts[0]?) ∧
      ∃ s s', homebodyLevels.greedy = .ok s ∧ travellerLevels.greedy = .ok s' ∧
        s.2.amounts[0]? = s'.2.amounts[0]? := by
  have hagree : homebody.AgreesUpTo (·.priority) 2 traveller := ⟨rfl, rfl, rfl⟩
  have hagreeLevels : homebodyLevels.AgreesUpTo (·.priority) 2 travellerLevels :=
    ⟨rfl, rfl, rfl⟩
  have hcheck : checkMinimums tenantVars (1010 : Rat) = .ok () :=
    checkMinimums_of_le (by decide +kernel)
  obtain ⟨hdeviation, hladder⟩ := unaffected_by_lessImportant (α := Rat) 2
  refine ⟨hagree, hagreeLevels, ?_, ?_⟩
  · obtain ⟨f, hf, _⟩ := DeviationProgram.exists_runPreemptive (p := homebody) hcheck
    obtain ⟨f', hf', _⟩ := DeviationProgram.exists_runPreemptive (p := traveller) hcheck
    refine ⟨f, f', hf, hf', (hdeviation _ _ hagree).kept f f' hf hf' 0 ?_⟩
    decide
  · obtain ⟨s, hs, _⟩ := LadderProgram.exists_greedy (p := homebodyLevels) hcheck
    obtain ⟨s', hs', _⟩ := LadderProgram.exists_greedy (p := travellerLevels) hcheck
    refine ⟨s, s', hs, hs', (hladder _ _ hagreeLevels).kept s s' hs hs' 0 ?_⟩
    decide

end GoalBudget
