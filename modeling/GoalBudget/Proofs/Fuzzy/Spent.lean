import GoalBudget.Proofs.Curve.Monotone
import GoalBudget.Proofs.Fuzzy.Consultation
import GoalBudget.Proofs.Fuzzy.Steps
import Mathlib.Algebra.Module.Submodule.Lattice
import Mathlib.Data.List.Permutation

/-!
# What the greedy fuzzy run leaves unspent

All phases of the run are made of steps, so that every state between two of them is within its
bounds and makes up the income with what is left.

The last phase puts what is left on the variables, one after the other. Where more is left than the
smallest step, it was not money that held a variable back: then its upper bound is reached, or the
plateau of a goal that falls again (`isFull_topUp`). Both stay reached while the other variables
have their turn, as no amount is lowered (`IsFull.mono`).

A goal whose curve only rises holds nothing back, and a variable without an upper bound and without
a falling curve takes all that is left.

Main result: `greedy_spends`.
-/

open Relation (ReflTransGen)

namespace GoalBudget.FuzzyProgram

variable {p : FuzzyProgram Rat} {money : Rat} {f f' : Funds Rat} {i : Nat} {v : Variable Rat}

/-- Whether a variable takes nothing more than an amount: it is at its upper bound, or has reached
the end of the plateau of a goal on it that falls again. -/
def IsFull (p : FuzzyProgram Rat) (i : Nat) (v : Variable Rat) (x : Rat) : Prop :=
  v.isBounded = true ∧ v.maximum ≤ x ∨
    ∃ g ∈ p.goals, g.index = i ∧ g.curve.isMonotone = false ∧ g.curve.corners.peakRight ≤ x

theorem IsFull.mono {x y : Rat} (h : p.IsFull i v x) (hxy : x ≤ y) : p.IsFull i v y := by
  rcases h with ⟨hbounded, hmaximum⟩ | ⟨g, hg, hindex, hfalls, hpeak⟩
  · exact .inl ⟨hbounded, hmaximum.trans hxy⟩
  · exact .inr ⟨g, hg, hindex, hfalls, hpeak.trans hxy⟩

/-- With all of its harmless room a variable is full. The room is drawn in by the upper bound and
by goals, and whichever comes last is what is reached. -/
theorem isFull_harmlessRoom {bound : Rat} (h : p.harmlessRoom f i v = .upTo bound) :
    p.IsFull i v (f.amount i + bound) := by
  unfold harmlessRoom at h
  revert bound
  -- The room is the headroom, drawn in by one goal after the other: whichever of them set the bound
  -- says why it is full there.
  refine List.foldlRecOn p.goals _ (motive := fun room => ∀ {bound}, room = Limit.upTo bound →
    p.IsFull i v (f.amount i + bound)) ?_ ?_
  · intro bound h
    unfold Variable.headroom at h
    split at h
    next hbounded =>
      cases h
      rw [greatest_eq_max]
      have hmaximum := le_max_right 0 (v.maximum - f.amount i)
      exact .inl ⟨hbounded, by linarith⟩
    next => cases h
  · intro room ih g hg bound h
    split at h
    next hfalls =>
      cases h
      simp only [Bool.and_eq_true, decide_eq_true_eq, Bool.not_eq_true'] at hfalls
      rw [greatest_eq_max]
      have hplateau := le_max_right 0 (g.curve.corners.peakRight - f.amount i)
      have hpeak : p.IsFull i v
          (f.amount i + max 0 (g.curve.corners.peakRight - f.amount i)) :=
        .inr ⟨g, hg, hfalls.1, hfalls.2, by linarith⟩
      -- The smaller of the old bound and the distance to the plateau is one of the two.
      cases room with
      | endless => exact hpeak
      | upTo bound =>
        rw [Limit.drawIn_upTo]
        rcases min_choice bound (max 0 (g.curve.corners.peakRight - f.amount i)) with hmin | hmin
        · rw [hmin]
          exact ih rfl
        · rwa [hmin]
    next => exact ih h

/-- Where something is left after a variable was topped up, the variable is full. -/
theorem isFull_topUp {entry : Variable Rat × Nat} (hsound : f.Sound p.vars 0 money)
    (hentry : p.vars[entry.2]? = some entry.1) (h : minStep < (p.topUp f entry).left) :
    p.IsFull entry.2 entry.1 ((p.topUp f entry).amount entry.2) := by
  have hi : entry.2 < f.amounts.length :=
    hsound.length ▸ (List.getElem?_eq_some_iff.mp hentry).1
  unfold topUp at h ⊢
  split at h
  next hleft => exact absurd h (not_lt.mpr hleft)
  next hleft =>
    rw [if_neg hleft]
    have hpos : 0 < f.left := minStep_pos.trans (not_le.mp hleft)
    cases hroom : p.harmlessRoom f entry.2 entry.1 with
    | endless =>
      -- an endless room takes everything
      rw [hroom] at h
      have hnothing : (f.give entry.2 f.left).left = 0 := sub_self f.left
      rw [Limit.drawIn, if_pos hpos, hnothing] at h
      exact absurd h (not_lt.mpr minStep_pos.le)
    | upTo bound =>
      refine (isFull_harmlessRoom hroom).mono ?_
      rw [hroom] at h
      rw [Limit.drawIn_upTo] at h ⊢
      dsimp only at h ⊢
      split at h
      next hgiven =>
        rw [if_pos hgiven, Funds.amount_give hi, if_pos rfl]
        have hrest : 0 < f.left - min bound f.left := minStep_pos.trans h
        rcases min_choice bound f.left with hmin | hmin
        · rw [hmin]
        · rw [hmin, sub_self] at hrest
          exact absurd hrest (lt_irrefl 0)
      next hnone =>
        rw [if_neg hnone]
        have hbound : bound ≤ 0 := (min_le_iff.mp (not_lt.mp hnone)).resolve_right (not_le.mpr hpos)
        linarith

/-- Where something is left in the end, all variables are full. -/
theorem isFull_spendOnHeadroom (hsound : f.Sound p.vars 0 money)
    (h : minStep < (p.spendOnHeadroom f).left) (hv : p.vars[i]? = some v) :
    p.IsFull i v ((p.spendOnHeadroom f).amount i) := by
  have hentries : ∀ entry ∈ p.vars.zipIdx, p.vars[entry.2]? = some entry.1 :=
    fun entry => List.mem_zipIdx_iff_getElem?.mp
  have hmem : (v, i) ∈ p.vars.zipIdx := List.mem_zipIdx_iff_getElem?.mpr hv
  obtain ⟨before, after, hsplit⟩ := List.append_of_mem hmem
  unfold spendOnHeadroom at h ⊢
  rw [hsplit] at h hentries ⊢
  rw [List.foldl_append, List.foldl_cons] at h ⊢
  have hfront : ReflTransGen p.Step f (before.foldl p.topUp f) :=
    steps_topUps fun entry hentry => hentries entry (List.mem_append_left _ hentry)
  have hturn := hentries _ (List.mem_append_right before (List.mem_cons_self ..))
  have hbefore := sound_of_steps hfront hsound
  have hgrows := grows_of_steps (steps_topUps fun entry hentry => hentries entry
    (List.mem_append_right before (List.mem_cons_of_mem _ hentry))) (sound_topUp hbefore hturn)
  exact (isFull_topUp hbefore hturn (h.trans_le hgrows.left_le)).mono (hgrows.amount_le i)

/-- With an income that is positive and pays for the lower bounds, every state that steps of the
greedy run lead to is within its bounds, has something left that is not negative, and makes up the
income with it. The result is feasible. Where it leaves more than a hundredth of the income
unspent, every variable is at its upper bound or carries a peak or plateau that it has come to the
end of. -/
theorem greedy_spends (hincome : 0 < p.income) (hvars : p.vars ≠ [])
    (hminimums : sumOfMinimums p.vars ≤ p.income) :
    ∃ rounds start climbed completed spread r,
      p.Phases rounds start climbed completed spread ∧
      (∀ f, ReflTransGen p.Step start f → f.Sound p.vars 0 p.income) ∧
      p.solveGreedily = .ok r ∧ p.solve (fun _ => none) = .ok r ∧
      r.variableValues = p.valuesById (p.spendOnHeadroom spread).amounts ∧ r.isFeasible = true ∧
      (0.01 < p.income - (p.spendOnHeadroom spread).amounts.sum → ∀ i v, p.vars[i]? = some v →
        v.isBounded = true ∧ (p.spendOnHeadroom spread).amount i = v.maximum ∨
          ∃ g ∈ p.goals, g.index = i ∧
            (g.curve.shape = .triangular ∨ g.curve.shape = .trapezoidal) ∧
            g.curve.corners.peakRight ≤ (p.spendOnHeadroom spread).amount i) := by
  have hcheck := checkMinimums_of_le hminimums
  obtain ⟨rounds, start, climbed, completed, spread, hphases, hsound⟩ := exists_phases hcheck
  rw [max_eq_left hminimums] at hsound
  -- The phases end where topping up starts.
  have hspread := sound_of_steps hphases.steps hsound
  have hend := sound_of_steps hphases.topping hspread
  obtain ⟨r, hr, hvalues, hfeasible⟩ := exists_summarize hend.length .greedy rounds
  have hgreedily : p.solveGreedily = .ok r := bind_eq_ok.mpr ⟨_, hphases.greedy_eq, hr⟩
  refine ⟨rounds, start, climbed, completed, spread, r, hphases,
    fun f hf => sound_of_steps hf hsound, hgreedily, ?solve, hvalues, ?feasible, ?full⟩
  case solve =>
    have hundecided : p.Undecided := ⟨hvars, hcheck, hincome⟩
    rw [solve_of_absent hundecided rfl, hgreedily]
  case feasible =>
    rw [hfeasible]
    exact hend.nearlyFeasible (le_add_of_nonneg_right deviationTolerance_nonneg)
  case full =>
    intro hunspent i v hv
    -- More than the least step is left, so topping up did not stop for want of money.
    have hleft : minStep < (p.spendOnHeadroom spread).left := by
      have hbalance := hend.balance
      show (0.01 : Rat) < _
      linarith
    rcases isFull_spendOnHeadroom hspread hleft hv with
      ⟨hbounded, hmaximum⟩ | ⟨g, hg, hindex, hfalls, hpeak⟩
    · have hbelow := hend.below i v hv hbounded
      rw [add_zero] at hbelow
      exact .inl ⟨hbounded, le_antisymm hbelow hmaximum⟩
    · exact .inr ⟨g, hg, hindex, Curve.shape_of_falls hfalls, hpeak⟩

/-- Two goals on a bounded variable, and one with a peak on a variable without a bound. -/
def sharedFood : FuzzyProgram Rat where
  income := 6
  vars := [⟨"food", "food", .category, 1, 2, by decide, by decide⟩,
    ⟨"fun", "fun", .goal, 2, 0, by decide, by decide⟩]
  goals := [⟨"eat", 0, ⟨.linear, ⟨0, 0, 2, 2⟩, []⟩, 1, 1, ""⟩,
    ⟨"feast", 0, ⟨.linear, ⟨1, 1, 3, 3⟩, []⟩, 1, 1, ""⟩,
    ⟨"play", 1, ⟨.triangular, ⟨0, 3, 3, 9⟩, []⟩, 2, 1, ""⟩]
  index_lt := by decide

/-- A sixth of the income is left when the food is at its upper bound and the fun at its peak. -/
theorem greedy_spends_sharedFood :
    0 < sharedFood.income ∧ sharedFood.vars ≠ [] ∧
      sumOfMinimums sharedFood.vars ≤ sharedFood.income ∧
      ∃ rounds f r, sharedFood.greedy = .ok (rounds, f) ∧ (f.amounts, f.left) = ([2, 3], 1) ∧
        sharedFood.solve (fun _ => none) = .ok r ∧ r.isFeasible = true ∧
        ∃ g ∈ sharedFood.goals, g.index = 1 ∧ g.curve.corners.peakRight ≤ f.amount 1 := by
  have hincome : 0 < sharedFood.income := by decide
  have hvars : sharedFood.vars ≠ [] := List.cons_ne_nil _ _
  have hminimums : sumOfMinimums sharedFood.vars ≤ sharedFood.income := by decide +kernel
  obtain ⟨rounds, _, _, _, spread, r, hphases, _, _, hsolve, _, hfeasible, hfull⟩ :=
    greedy_spends hincome hvars hminimums
  have hrun : sharedFood.greedy.toOption.map (fun result => (result.2.amounts, result.2.left)) =
      some ([2, 3], 1) := by
    cbv
  rw [hphases.greedy_eq] at hrun
  have hend := Option.some.inj hrun
  dsimp only at hend
  have hunspent : (0.01 : Rat) <
      sharedFood.income - (sharedFood.spendOnHeadroom spread).amounts.sum := by
    rw [(Prod.mk.inj hend).1]
    decide +kernel
  refine ⟨hincome, hvars, hminimums, rounds, _, r, hphases.greedy_eq, hend, hsolve, hfeasible, ?_⟩
  rcases hfull hunspent 1 _ rfl with ⟨hbounded, _⟩ | ⟨g, hg, hindex, _, hpeak⟩
  · exact absurd hbounded (by decide)
  · exact ⟨g, hg, hindex, hpeak⟩

end GoalBudget.FuzzyProgram
