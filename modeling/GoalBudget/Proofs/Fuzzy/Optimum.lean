import GoalBudget.Proofs.Fuzzy.Encoding
import GoalBudget.Proofs.Fuzzy.Outcome
import GoalBudget.Proofs.Strategy.Affordable

/-!
# Optimal solutions of the encoded program

The encoding bounds what a satisfaction column can hold by the curve, and allows it to reach the
curve. So the objective of a point is at most the benefit of the allocation in front
(`value_le_benefit`), and every allocation that the income affords is the front of a point where
they are equal (`exists_point_of_affords`). An optimal point has an optimal allocation in front, and
moving that within its bounds leaves it as it is.

The benefit is the objective with the satisfaction of the curve in place of the columns: weights
with the multipliers of their tiers, and the small reward for what is spent (`benefit`). The
allocations compared with are all within the bounds and within the income, as `Affords` says; a
variable without an upper bound is compared up to the income.

The backend is any that solves this one program to an optimum; nothing is asked about other
programs. Main result: `solve_optimal`.
-/

namespace GoalBudget

open Encoding (ofGoals)

/-- Amounts added to coefficients one after the other, in columns that there are. -/
theorem form_foldl_modify {τ : Type} (column : τ → Nat) (amount : τ → Rat) (items : List τ)
    (cells : List Rat) (y : Nat → Rat) (h : ∀ item ∈ items, column item < cells.length) :
    form (items.foldl (fun cells item => cells.modify (column item) (· + amount item)) cells) y =
      form cells y + (items.map fun item => amount item * y (column item)).sum := by
  induction items generalizing cells with
  | nil => rw [List.foldl_nil, List.map_nil, List.sum_nil, add_zero]
  | cons item rest ih =>
    obtain ⟨hitem, hrest⟩ := List.forall_mem_cons.mp h
    have hmodify : cells.modify (column item) (· + amount item) =
        cells.set (column item) (cells.getD (column item) 0 + amount item) := by
      rw [List.modify_eq_set, getElem?_eq_some_getD hitem]
      rfl
    rw [List.foldl_cons, ih _ (by rwa [List.length_modify]), hmodify, form_set _ _ hitem,
      List.map_cons, List.sum_cons]
    ring

/-- The membership columns of different blocks are different. -/
theorem Encoding.Laid.nodup_membershipColumns {e : Encoding Rat} {n : Nat} {bigM : Rat}
    {goals : List EncodedGoal} (h : e.Laid n bigM goals) :
    (e.blocks.map (·.membershipColumn)).Nodup := by
  refine List.pairwise_map.mpr (h.disjoint.imp fun {a b} hdisjoint heq => ?_)
  exact hdisjoint (List.mem_cons_self ..) (heq ▸ List.mem_cons_self ..)

namespace FuzzyProgram

variable {p : FuzzyProgram Rat} {x point : List Rat}

/-! ## What an allocation is worth -/

/-- The weight of a goal: its own times a hundred for every tier it stands above the reference. -/
def tierWeight (p : FuzzyProgram Rat) (g : FuzzyGoal Rat) : Rat :=
  g.weight * 100 ^ tiersAbove g.priority 3 (leastImportant (p.goals.map (·.priority)))

/-- What an allocation is worth: for every goal its satisfaction and a small reward for what is
spent, by weight. -/
def benefit (p : FuzzyProgram Rat) (x : List Rat) : Rat :=
  (p.goals.map fun g => p.tierWeight g *
    (g.curve.degree (x.getD g.index 0) + 1e-5 * x.getD g.index 0 / p.income)).sum

/-- The goals with their weights. -/
def weighted (p : FuzzyProgram Rat) : List (FuzzyGoal Rat × Rat) :=
  p.goals.map fun g => (g, p.tierWeight g)

/-- The goals as they are encoded. -/
def encodedGoals (p : FuzzyProgram Rat) : List EncodedGoal :=
  p.goals.map fun g => ⟨g.id, g.index, g.curve, p.tierWeight g⟩

/-- The encoding of all goals. -/
def encoding (p : FuzzyProgram Rat) : Encoding Rat := p.encode p.weighted

theorem scaledGoals_eq : p.scaledGoals = .ok p.weighted := mapM_eq_map (fun _ => rfl) p.goals

theorem encoding_eq : p.encoding = ofGoals p.vars.length p.income p.encodedGoals := by
  rw [encoding, encode, weighted, ofGoals, encodedGoals, List.foldl_map, List.foldl_map]
  rfl

theorem fits_encodedGoals (hcurves : ∀ g ∈ p.goals, g.curve.Built) :
    ∀ g ∈ p.encodedGoals, g.Fits p.vars.length p.income := by
  intro g' hg'
  obtain ⟨g, hg, rfl⟩ := List.mem_map.mp hg'
  obtain ⟨a, b, hdrawn⟩ := (hcurves g hg).drawn
  exact ⟨p.index_lt g hg, fun x hx hbound => hdrawn.traced hx hbound⟩

theorem degree_nonneg (hcurves : ∀ g ∈ p.goals, g.curve.Built) :
    ∀ g ∈ p.encodedGoals, ∀ x, 0 ≤ g.curve.degree x := by
  intro g' hg' x
  obtain ⟨g, hg, rfl⟩ := List.mem_map.mp hg'
  obtain ⟨a, b, hdrawn⟩ := (hcurves g hg).drawn
  exact hdrawn.nonneg x

theorem encodedWeight_nonneg (hweight : ∀ g ∈ p.goals, 0 ≤ g.weight) :
    ∀ g ∈ p.encodedGoals, 0 ≤ g.weight := by
  intro g' hg'
  obtain ⟨g, hg, rfl⟩ := List.mem_map.mp hg'
  exact mul_nonneg (hweight g hg) (by positivity)

/-- The encoding is laid behind the variables. -/
theorem laid_encoding (p : FuzzyProgram Rat) :
    p.encoding.Laid p.vars.length p.income p.encodedGoals := by
  rw [encoding_eq]
  refine Encoding.laid_of_column_lt fun g' hg' => ?_
  obtain ⟨g, hg, rfl⟩ := List.mem_map.mp hg'
  exact p.index_lt g hg

/-! ## What is stated -/

/-- The reward that one unit spent on a goal brings. -/
def reward (p : FuzzyProgram Rat) (weight : Rat) : Rat := 1e-5 * weight / p.income

/-- The objective: the weights of the membership columns, and a reward for every goal. -/
theorem objective_eq (goals : List (FuzzyGoal Rat × Rat)) (e : Encoding Rat) :
    p.objective goals e = goals.foldl (fun cells g => cells.modify g.1.index (· + p.reward g.2))
      (sparse e.width e.objectiveTerms) := rfl

/-- The program that is stated to a backend. -/
def milp (p : FuzzyProgram Rat) : Program Rat :=
  Program.ofCalls p.encoding.width (p.calls p.weighted p.encoding)

theorem objective_milp :
    p.milp.objective = p.objective p.weighted p.encoding ∧ p.milp.maximize = true := by
  refine GoalProgram.objective_statements fun coeffs maximize => ?_
  simp [Encoding.calls, Block.calls]

/-- The benefit, satisfaction and reward apart. -/
theorem benefit_eq (x : List Rat) : p.benefit x =
    (p.encodedGoals.map fun g => g.weight * g.curve.degree (x.getD g.variableColumn 0)).sum +
      (p.goals.map fun g => p.reward (p.tierWeight g) * x.getD g.index 0).sum := by
  rw [encodedGoals, List.map_map, ← List.sum_map_add, benefit]
  refine congrArg List.sum (List.map_congr_left fun g _ => ?_)
  rw [Function.comp_apply, reward]
  ring

/-- The points of the program: amounts that the income affords in front, and behind them columns
that make all blocks hold. -/
theorem feasible_milp_iff :
    p.milp.Feasible point ↔ point.length = p.encoding.width ∧
      p.Affords p.cappedLimit (point.take p.vars.length) ∧
      ∀ b ∈ p.encoding.blocks, b.Holds p.income fun j => point.getD j 0 := by
  have h := p.laid_encoding
  rw [← h.respects_iff]
  exact GoalProgram.feasible_statements_iff h.le h.statedColumns

/-- The objective of a point: the satisfaction columns, and the reward for what is spent. -/
theorem value_milp (point : List Rat) :
    p.milp.value point =
      (p.encoding.blocks.map fun b => b.weight * point.getD b.membershipColumn 0).sum +
        (p.goals.map fun g => p.reward (p.tierWeight g) * point.getD g.index 0).sum := by
  have h := p.laid_encoding
  have hkeys : (p.encoding.objectiveTerms.map Prod.fst).Nodup := by
    rw [Encoding.objectiveTerms, List.map_map]
    exact h.nodup_membershipColumns
  have hlt : ∀ t ∈ p.encoding.objectiveTerms, t.1 < p.encoding.width := by
    intro t ht
    obtain ⟨b, hb, rfl⟩ := List.mem_map.mp ht
    have hle := h.block_le hb
    omega
  have hcolumn : ∀ g ∈ p.weighted, g.1.index <
      (sparse p.encoding.width p.encoding.objectiveTerms).length := by
    intro g' hg'
    obtain ⟨g, hg, rfl⟩ := List.mem_map.mp hg'
    rw [length_sparse]
    exact (p.index_lt g hg).trans_le h.le
  rw [Program.value, objective_milp.1, dot_eq_form, objective_eq,
    form_foldl_modify (fun g => g.1.index) (fun g => p.reward g.2) p.weighted _ _ hcolumn,
    form_sparse hkeys hlt, Encoding.objectiveTerms, List.map_map, weighted, List.map_map]
  rfl

/-! ## Points and allocations -/

section
variable (hcurves : ∀ g ∈ p.goals, g.curve.Built)
include hcurves

/-- Every block serves its goal, with its weight. -/
theorem serves_encoding : List.Forall₂ (fun b g => b.Serves p.income g ∧ b.weight = g.weight)
    p.encoding.blocks p.encodedGoals :=
  encoding_eq ▸ Encoding.serves_ofGoals (fits_encodedGoals hcurves)

/-- A point is worth no more than the allocation in front: no satisfaction column holds more
than the curve gives. -/
theorem value_le_benefit (hweight : ∀ g ∈ p.goals, 0 ≤ g.weight) (h : p.milp.Feasible point) :
    p.milp.value point ≤ p.benefit (point.take p.vars.length) := by
  obtain ⟨_, hx, hholds⟩ := feasible_milp_iff.mp h
  rw [value_milp, benefit_eq]
  refine add_le_add ?_ (le_of_eq ?_)
  · refine List.Forall₂.sum_le_sum ?_
    rw [List.forall₂_map_left_iff, List.forall₂_map_right_iff, List.forall₂_iff_zip]
    refine ⟨(serves_encoding hcurves).length_eq, fun {b g} hpair => ?_⟩
    obtain ⟨hserves, hsame⟩ := (List.forall₂_iff_zip.mp (serves_encoding hcurves)).2 hpair
    obtain ⟨hb, hg⟩ := List.of_mem_zip hpair
    obtain ⟨hcolumn, htraced⟩ := fits_encodedGoals hcurves g hg
    have hnonneg := hx.amount_nonneg g.variableColumn
    have hbound := hx.amount_le_income g.variableColumn
    have hamount : (point.take p.vars.length).getD g.variableColumn 0 =
        point.getD g.variableColumn 0 := getD_take_of_lt hcolumn
    rw [hamount, ← hserves.variableColumn] at hnonneg hbound
    rw [hamount, ← hserves.variableColumn, hsame]
    -- A membership column stays below the degree of its curve.
    have hle := Block.Holds.le_degree (p.laid_encoding.placed b hb) hserves
      (htraced _ hnonneg hbound) (hholds b hb)
    exact mul_le_mul_of_nonneg_left hle (encodedWeight_nonneg hweight g hg)
  · refine congrArg List.sum (List.map_congr_left fun g hg => ?_)
    have hcolumn : g.index < p.vars.length := p.index_lt g hg
    rw [getD_take_of_lt hcolumn]

/-- Every allocation that the income affords is in front of a point that is worth as much. -/
theorem exists_point_of_affords (hx : p.Affords p.cappedLimit x) :
    ∃ point, p.milp.Feasible point ∧ point.take p.vars.length = x ∧
      p.milp.value point = p.benefit x := by
  have hbounds (i : Nat) (_ : i < p.vars.length) : 0 ≤ x.getD i 0 ∧ x.getD i 0 ≤ p.income :=
    ⟨hx.amount_nonneg i, hx.amount_le_income i⟩
  -- every goal is given the satisfaction that its curve has there
  obtain ⟨point, hlen, hamounts, hholds, hdegrees⟩ := Encoding.exists_point hbounds
    (u := fun g => g.curve.degree (x.getD g.variableColumn 0)) (fits_encodedGoals hcurves)
    fun g hg => ⟨degree_nonneg hcurves g hg _, le_refl _⟩
  rw [← encoding_eq] at hlen hholds hdegrees
  have hle := p.laid_encoding.le
  have htake : point.take p.vars.length = x := by
    refine List.ext_getElem (by rw [List.length_take, hlen, hx.length]; omega) fun i hi hi' => ?_
    have hamount := hamounts i (hx.length ▸ hi')
    rwa [List.getD_eq_getElem _ _ hi', ← getD_take_of_lt (hx.length ▸ hi'),
      List.getD_eq_getElem _ _ hi] at hamount
  refine ⟨point, ?_, htake, ?_⟩
  · exact feasible_milp_iff.mpr ⟨hlen, htake.symm ▸ hx, hholds⟩
  · have hweights : p.encoding.blocks.map (·.weight) = p.encodedGoals.map (·.weight) := by
      rw [← List.forall₂_eq_eq_eq, List.forall₂_map_left_iff, List.forall₂_map_right_iff]
      exact (serves_encoding hcurves).imp fun _ _ h => h.2
    have hproducts : p.encoding.blocks.map (fun b => b.weight * point.getD b.membershipColumn 0) =
        p.encodedGoals.map fun g => g.weight * g.curve.degree (x.getD g.variableColumn 0) := by
      have h := congrArg₂ (List.zipWith (· * ·)) hweights hdegrees
      rwa [List.zipWith_map, List.zipWith_map, List.zipWith_self, List.zipWith_self] at h
    have hspent : (p.goals.map fun g => p.reward (p.tierWeight g) * point.getD g.index 0) =
        p.goals.map fun g => p.reward (p.tierWeight g) * x.getD g.index 0 :=
      List.map_congr_left fun g hg => by rw [hamounts g.index (p.index_lt g hg)]
    rw [value_milp, benefit_eq, hproducts, hspent]

/-- An optimal point has an optimal allocation in front. -/
theorem benefit_le_of_isOptimal (hweight : ∀ g ∈ p.goals, 0 ≤ g.weight)
    (h : p.milp.IsOptimal point) (hx : p.Affords p.cappedLimit x) :
    p.benefit x ≤ p.benefit (point.take p.vars.length) := by
  obtain ⟨other, hother, _, hvalue⟩ := exists_point_of_affords hcurves hx
  have hgood := h.2 other hother
  rw [Program.AsGood, objective_milp.2, if_pos rfl, hvalue] at hgood
  exact hgood.trans (value_le_benefit hcurves hweight h.1)

/-- A backend that answers with an optimal solution of the program it was handed gives the
variables amounts that are worth the most, by the true curves, among all that the income
affords. The result reports that they are feasible. -/
theorem solve_optimal (hids : (p.vars.map (·.id)).Nodup) (hincome : 0 < p.income)
    (hweight : ∀ g ∈ p.goals, 0 ≤ g.weight) {backends : Nat → Option (Backend Rat)}
    {b : Backend Rat} (hb : backends p.encoding.width = some b)
    (hoptimizes : b.Optimizes p.encoding.width (p.calls p.weighted p.encoding)) :
    ∃ r x, p.solve backends = .ok r ∧ r.isFeasible = true ∧
      r.variableValues.entries = (p.vars.map (·.id)).zip x ∧ p.Affords p.cappedLimit x ∧
      ∀ y, p.Affords p.cappedLimit y → p.benefit y ≤ p.benefit x := by
  obtain ⟨answer, hanswer, hstatus, hoptimal⟩ := hoptimizes
  have hx := (feasible_milp_iff.mp hoptimal.1).2.1
  have hattempt : b.attempt (p.calls p.weighted p.encoding) = .ok (some answer.solution) := by
    rw [Backend.attempt, hanswer]
    exact congrArg Except.ok (if_pos hstatus)
  -- without variables nothing is handed over, and there is nothing else to give
  have hsolve : ∃ method iterations, ∀ r,
      p.summarize (answer.solution.take p.vars.length) method iterations = .ok r →
        p.solve backends = .ok r := by
    by_cases hvars : p.vars = []
    · refine ⟨.none, 0, fun r hr => ?_⟩
      rw [hvars] at hr
      rw [solve, if_pos (List.isEmpty_iff.mpr hvars)]
      exact hr
    · refine ⟨.milp, 1, fun r hr => ?_⟩
      rw [solve, if_neg (by simpa using hvars)]
      refine bind_eq_ok.mpr ⟨(), checkMinimums_of_le hx.sumOfMinimums_le, ?_⟩
      rw [if_neg (not_le.mpr hincome)]
      refine bind_eq_ok.mpr ⟨p.weighted, scaledGoals_eq, ?_⟩
      have hb' : backends (p.encode p.weighted).width = some b := hb
      dsimp only
      rw [hb']
      refine bind_eq_ok.mpr ⟨_, hattempt, ?_⟩
      dsimp only
      rwa [GoalProgram.clampSolution_of_affords hx]
  obtain ⟨method, iterations, hsolve⟩ := hsolve
  obtain ⟨r, hr, hvalues, hfeasible⟩ := exists_summarize hx.length method iterations
  refine ⟨r, answer.solution.take p.vars.length, hsolve r hr, ?_, ?_, hx, fun y hy =>
    benefit_le_of_isOptimal hcurves hweight hoptimal hy⟩
  · rw [hfeasible, GoalProgram.nearlyFeasible_of_affords hx]
  · rw [hvalues, GoalProgram.entries_valuesById hids hx.length]

/-- A point that is worth as much as an optimal allocation is optimal. -/
theorem isOptimal_of_value_eq (hweight : ∀ g ∈ p.goals, 0 ≤ g.weight)
    (h : p.milp.Feasible point) (hvalue : p.milp.value point = p.benefit x)
    (hoptimal : ∀ y, p.Affords p.cappedLimit y → p.benefit y ≤ p.benefit x) :
    p.milp.IsOptimal point := by
  refine ⟨h, fun other hother => ?_⟩
  rw [Program.AsGood, objective_milp.2, if_pos rfl, hvalue]
  exact (value_le_benefit hcurves hweight hother).trans
    (hoptimal _ (feasible_milp_iff.mp hother).2.1)

end

/-- Two wishes for one income: eating fully is worth twice as much as all the fun. -/
def twoWishes : FuzzyProgram Rat where
  income := 100
  vars := [⟨"food", "food", .category, 10, 80, by decide, by decide⟩,
    ⟨"fun", "fun", .category, 0, 70, by decide, by decide⟩]
  goals := [⟨"eat", 0, ⟨.linear, ⟨0, 0, 50, 50⟩, []⟩, 1, 2, ""⟩,
    ⟨"play", 1, ⟨.linear, ⟨0, 0, 100, 100⟩, []⟩, 1, 1, ""⟩]
  index_lt := by decide

/-- The curves of both wishes are built. -/
theorem built_twoWishes : ∀ g ∈ twoWishes.goals, g.curve.Built :=
  List.forall_mem_cons.mpr ⟨@Curve.Built.linear 0 50 _ rfl,
    List.forall_mem_singleton.mpr (@Curve.Built.linear 0 100 _ rfl)⟩

/-- Half for each of the wishes is feasible. -/
theorem feasible_twoWishes : twoWishes.milp.Feasible [50, 50, 1, 1, 0, 1 / 2, 1] := by
  rw [feasible_milp_iff]
  decide +kernel

/-- A rising line is nowhere above one, and nowhere above its slope. -/
theorem risingDegree_le {width c : Rat} (hwidth : 0 < width) (hc : 0 ≤ c) :
    Curve.risingDegree ⟨0, 0, width, width⟩ c ≤ 1 ∧
      Curve.risingDegree ⟨0, 0, width, width⟩ c ≤ c / width := by
  rw [Curve.risingDegree, if_neg (not_lt.mpr hc)]
  split
  next h => exact ⟨le_refl 1, (one_le_div hwidth).mpr h⟩
  next h =>
    rw [sub_zero, sub_zero]
    exact ⟨(div_le_one hwidth).mpr (not_le.mp h).le, le_refl _⟩

/-- No way to share the income is worth more. -/
theorem benefit_twoWishes (y : List Rat) (hy : twoWishes.Affords twoWishes.cappedLimit y) :
    twoWishes.benefit y ≤ twoWishes.benefit [50, 50] := by
  obtain ⟨a, b, rfl⟩ := List.length_eq_two.mp hy.length
  have hsum : a + b ≤ 100 := by simpa [twoWishes] using hy.sum_le
  have hbest : twoWishes.benefit [50, 50] = 2.5 + 1.5e-5 := by decide +kernel
  have hworth : twoWishes.benefit [a, b] =
      2 * (Curve.risingDegree ⟨0, 0, 50, 50⟩ a + 1e-5 * a / 100) +
        (Curve.risingDegree ⟨0, 0, 100, 100⟩ b + 1e-5 * b / 100) := by
    simp [benefit, tierWeight, twoWishes, tiersAbove, leastImportant, Curve.degree]
  obtain ⟨hfull, heat⟩ := risingDegree_le (show (0 : Rat) < 50 by norm_num) (hy.amount_nonneg 0)
  obtain ⟨_, hplay⟩ := risingDegree_le (show (0 : Rat) < 100 by norm_num) (hy.amount_nonneg 1)
  simp only [List.getD_cons_zero, List.getD_cons_succ] at hfull heat hplay
  rw [hbest, hworth]
  linarith

/-- With a backend that shares evenly the result is the best allocation. -/
theorem solve_optimal_twoWishes :
    (∀ g ∈ twoWishes.goals, g.curve.Built) ∧ (∀ g ∈ twoWishes.goals, 0 ≤ g.weight) ∧ ∃ r x,
      twoWishes.solve (fun n => some (.scripted .optimal [50, 50, 1, 1, 0, 1 / 2, 1] n)) = .ok r ∧
        r.isFeasible = true ∧ r.variableValues.entries = ["food", "fun"].zip x ∧
        twoWishes.Affords twoWishes.cappedLimit x ∧
        ∀ y, twoWishes.Affords twoWishes.cappedLimit y →
          twoWishes.benefit y ≤ twoWishes.benefit x := by
  have hweight : ∀ g ∈ twoWishes.goals, 0 ≤ g.weight := by decide
  have hvalue : twoWishes.milp.value [50, 50, 1, 1, 0, 1 / 2, 1] = twoWishes.benefit [50, 50] := by
    decide +kernel
  have hoptimal := isOptimal_of_value_eq built_twoWishes hweight feasible_twoWishes hvalue
    benefit_twoWishes
  exact ⟨built_twoWishes, hweight, solve_optimal built_twoWishes (by decide) (by decide) hweight
    rfl (Backend.optimizes_scripted hoptimal)⟩

end FuzzyProgram

end GoalBudget
