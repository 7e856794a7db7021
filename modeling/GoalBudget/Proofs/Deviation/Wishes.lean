import GoalBudget.Proofs.Deviation.Preemptive
import GoalBudget.Proofs.Strategy.Affordable
import GoalBudget.Proofs.Strategy.Outcome

/-!
# What a program with targets asks for

Without mandatory expenses and debts, both ways of turning a budget into goals with targets ask for
the same: a variable for every savings goal that is not complete and for every flexible category,
each with one goal on it, of at least the amount aimed at. These are the `wishes` of a budget, and
the programs aim at them (`aimsAt_tiersOfBudget` and `aimsAt_penaltiesOfBudget`).

Priorities, weights and descriptions are left out of what a program aims at: they decide about the
order of service or the penalties, and the two ways of making the program differ in them. What both
have in common is an outline: id, position, target and side, for every goal in order.

The two ways also differ in when goals are added. The linear program adds each goal along with its
variable; in strict order goals on savings are drafted first and added when all their variables are
there, and the outline is the same (`Draft.AimsAt.addGoals`).
-/

namespace GoalBudget

/-- The variable of a category. -/
def Category.asVariable (c : Category Rat) (key : String) : Variable Rat where
  id := key
  name := key
  kind := .category
  minimum := c.minimum
  maximum := c.maximum
  bounds_nonneg := not_or.mpr ⟨c.minimum_nonneg, c.maximum_nonneg⟩
  minimum_le_maximum := c.minimum_le_maximum

/-- The variable of a savings goal. -/
def Goal.asVariable (g : Goal Rat) (key : String) : Variable Rat where
  id := key
  name := g.name
  kind := .goal
  minimum := 0
  maximum := g.remainingAmount
  bounds_nonneg := not_or.mpr ⟨lt_irrefl 0, g.remainingAmount_nonneg⟩
  minimum_le_maximum h := g.remainingAmount_nonneg h.2

namespace DeviationProgram

theorem categoryVariable_eq (key : String) (c : Category Rat) :
    categoryVariable key c = .ok (c.asVariable key) :=
  (dif_neg (c.asVariable key).bounds_nonneg).trans (dif_neg (c.asVariable key).minimum_le_maximum)

theorem goalVariable_eq (key : String) (g : Goal Rat) :
    goalVariable key g = .ok (g.asVariable key) :=
  (dif_neg (g.asVariable key).bounds_nonneg).trans (dif_neg (g.asVariable key).minimum_le_maximum)

/-- A variable with the amount that it should get at least. -/
structure Wish where
  on : Variable Rat
  target : Rat

/-- What is wished for a savings goal: its target, unless it is complete. -/
def goalWish (factor : Rat) (e : String × Goal Rat) : List Wish :=
  if e.2.remainingAmount ≤ 0 then [] else [⟨e.2.asVariable e.1, e.2.target factor⟩]

/-- What is wished for a flexible category: its target. -/
def flexibleWish (level : Rat) (e : String × Category Rat) : List Wish :=
  [⟨e.2.asVariable e.1, e.2.targetAt level⟩]

/-- What a budget asks for in a scenario, savings goals first. -/
def wishes (b : Budget Rat) (s : Scenario Rat) : List Wish :=
  b.goals.sorted.entries.flatMap (goalWish s.goalFactor) ++
    b.flexible.sorted.entries.flatMap (flexibleWish s.spendingLevel)

/-- What matters of a goal for whether it is achieved. -/
def outline (g : DeviationGoal Rat) : String × Nat × Rat × Side := (g.id, g.index, g.target, g.side)

/-- The outline of the goal for the wish at a position. -/
def Wish.outline (w : Wish × Nat) : String × Nat × Rat × Side :=
  (w.1.on.id, w.2, w.1.target, .atLeast)

/-- A program with the variables of some wishes, and one goal on each of them. -/
structure AimsAt (p : DeviationProgram Rat) (ws : List Wish) : Prop where
  vars : p.vars = ws.map Wish.on
  goals : p.goals.map outline = ws.zipIdx.map Wish.outline

/-- A draft with the variables of some wishes, all of whose goals are to come. -/
structure Draft.AimsAt (d : Draft Rat) (ws : List Wish) : Prop where
  vars : d.program.vars = ws.map Wish.on
  goals : d.program.goals = []
  pending : d.pending.map (fun g => outline (g.2 g.1)) = ws.zipIdx.map Wish.outline

variable {p q : DeviationProgram Rat} {b : Budget Rat} {s : Scenario Rat} {ws : List Wish}

/-! ## Programs that aim at wishes -/

/-- One wish more in the outline. -/
theorem map_outline_concat (ws : List Wish) (w : Wish) :
    (ws ++ [w]).zipIdx.map Wish.outline =
      ws.zipIdx.map Wish.outline ++ [(w.on.id, ws.length, w.target, .atLeast)] := by
  rw [List.zipIdx_append, List.map_append, Nat.zero_add]
  rfl

/-- A variable with a goal on it, for one more wish. -/
theorem AimsAt.addAtLeast (h : p.AimsAt ws) {w : Wish} {priority : Int} {weight : Rat}
    {description : String}
    (hq : p.addAtLeast w.on w.on.id w.target priority weight description = .ok q) :
    q.AimsAt (ws ++ [w]) := by
  constructor
  · rw [GoalProgram.vars_addItem hq, h.vars, List.map_append, List.map_singleton]
  · have hlen : p.vars.length = ws.length := by rw [h.vars, List.length_map]
    rw [GoalProgram.goals_addItem hq, List.map_append, map_outline_concat, ← h.goals, ← hlen]
    rfl

/-- A savings goal adds its wish, if it has one. -/
theorem AimsAt.penalizeGoal {factor : Rat} {e : String × Goal Rat} (h : p.AimsAt ws)
    (hq : p.penalizeGoal factor e.1 e.2 = .ok q) : q.AimsAt (ws ++ goalWish factor e) := by
  unfold DeviationProgram.penalizeGoal at hq
  unfold goalWish
  split at hq
  next hcomplete =>
    cases hq
    rwa [if_pos hcomplete, List.append_nil]
  next hopen =>
    rw [goalVariable_eq] at hq
    rw [if_neg hopen]
    exact h.addAtLeast (w := ⟨e.2.asVariable e.1, e.2.target factor⟩) hq

/-- A flexible category adds its wish. -/
theorem AimsAt.penalizeFlexible {level : Rat} {e : String × Category Rat} (h : p.AimsAt ws)
    (hq : p.penalizeFlexible level e.1 e.2 = .ok q) : q.AimsAt (ws ++ flexibleWish level e) := by
  unfold DeviationProgram.penalizeFlexible at hq
  rw [categoryVariable_eq] at hq
  exact h.addAtLeast (w := ⟨e.2.asVariable e.1, e.2.targetAt level⟩) hq

/-- In strict order a flexible category adds its wish as well. -/
theorem AimsAt.tierFlexible {level : Rat} {e : String × Category Rat} (h : p.AimsAt ws)
    (hq : p.tierFlexible level e.1 e.2 = .ok q) : q.AimsAt (ws ++ flexibleWish level e) := by
  unfold DeviationProgram.tierFlexible at hq
  rw [categoryVariable_eq] at hq
  exact h.addAtLeast (w := ⟨e.2.asVariable e.1, e.2.targetAt level⟩) hq

/-- In strict order a savings goal is drafted for its wish. -/
theorem Draft.AimsAt.draftGoal {factor : Rat} {e : String × Goal Rat} {d d' : Draft Rat}
    (h : d.AimsAt ws) (hd : draftGoal factor d e.1 e.2 = .ok d') :
    d'.AimsAt (ws ++ goalWish factor e) := by
  unfold DeviationProgram.draftGoal at hd
  unfold goalWish
  split at hd
  next hcomplete =>
    cases hd
    rwa [if_pos hcomplete, List.append_nil]
  next hopen =>
    rw [goalVariable_eq] at hd
    obtain ⟨v, hv, hd⟩ := bind_eq_ok.mp hd
    obtain ⟨⟨tier, weight⟩, _, hd⟩ := bind_eq_ok.mp hd
    cases hv
    cases hd
    rw [if_neg hopen]
    have hlen : d.program.vars.length = ws.length := by rw [h.vars, List.length_map]
    refine ⟨?_, h.goals, ?_⟩
    · show d.program.vars ++ _ = _
      rw [h.vars, List.map_append]
      rfl
    · rw [List.map_append, map_outline_concat, ← h.pending, ← hlen]
      rfl

/-- Goals added behind those there are; no variable comes or goes. -/
theorem addGoals_eq_ok {goals : List (Nat × (Nat → DeviationGoal Rat))}
    (h : p.addGoals goals = .ok q) :
    q.vars = p.vars ∧ q.goals = p.goals ++ goals.map fun g => g.2 g.1 := by
  have hrun : q.vars = p.vars ∧ q.goals = p.goals ++ goals.flatMap fun g => [g.2 g.1] := by
    refine foldlM_append (fun q gs => q.vars = p.vars ∧ q.goals = gs) ?_ ⟨rfl, rfl⟩ h
    intro q gs g q' hq hq'
    exact ⟨(GoalProgram.vars_addGoal hq').trans hq.1,
      by rw [GoalProgram.goals_addGoal hq', hq.2]⟩
  rwa [← List.map_eq_flatMap] at hrun

/-- A draft whose goals are added aims at what it was drafted for. -/
theorem Draft.AimsAt.addGoals {d : Draft Rat} (h : d.AimsAt ws)
    (hq : d.program.addGoals d.pending = .ok q) : q.AimsAt ws := by
  obtain ⟨hvars, hgoals⟩ := addGoals_eq_ok hq
  refine ⟨hvars.trans h.vars, ?_⟩
  rw [hgoals, h.goals, List.nil_append, List.map_map]
  exact h.pending

/-! ## Programs of budgets -/

/-- The linear program of a budget aims at its wishes. -/
theorem aimsAt_penaltiesOfBudget (hmandatory : b.mandatory = ∅) (hdebts : b.debts = ∅)
    (h : penaltiesOfBudget b s = .ok p) : p.AimsAt (wishes b s) := by
  unfold penaltiesOfBudget at h
  rw [hmandatory, hdebts] at h
  simp only [Ledger.entries_sorted_empty, List.foldlM_nil, pure_bind] at h
  obtain ⟨q, hgoals, hflexible⟩ := bind_eq_ok.mp h
  have hstart : AimsAt (.ofIncome b.income) [] := ⟨rfl, rfl⟩
  have hq : q.AimsAt _ := foldlM_append AimsAt (fun _ _ _ _ hp hstep => hp.penalizeGoal hstep)
    hstart hgoals
  exact foldlM_append AimsAt (fun _ _ _ _ hp hstep => hp.penalizeFlexible hstep) hq hflexible

theorem aimsAt_tiersOfBudget (hmandatory : b.mandatory = ∅) (hdebts : b.debts = ∅)
    (h : tiersOfBudget b s = .ok p) : p.AimsAt (wishes b s) := by
  unfold tiersOfBudget at h
  rw [hmandatory, hdebts] at h
  simp only [Ledger.entries_sorted_empty, List.foldlM_nil, List.zipIdx_nil, pure_bind] at h
  obtain ⟨d, hdraft, h⟩ := bind_eq_ok.mp h
  obtain ⟨q, hgoals, hflexible⟩ := bind_eq_ok.mp h
  have hstart : Draft.AimsAt ⟨.ofIncome b.income, []⟩ [] := ⟨rfl, rfl, rfl⟩
  have hd : d.AimsAt _ := foldlM_append Draft.AimsAt
    (fun _ _ _ _ hd hstep => hd.draftGoal hstep) hstart hdraft
  exact foldlM_append AimsAt (fun _ _ _ _ hp hstep => hp.tierFlexible hstep) (hd.addGoals hgoals)
    hflexible

end DeviationProgram

end GoalBudget
