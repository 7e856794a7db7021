import GoalBudget.Proofs.Deviation.Preemptive
import GoalBudget.Proofs.Strategy.Outcome

/-!
# When goals in strict order have a result

Every budget has tiers in every scenario (`exists_tiersOfBudget`). Goals on savings and on extra
payments are drafted first and added behind all of them, so it takes an invariant that the variables
they are for are there by then: `Draft.Fits`. A goal on a savings item brings its variable with it,
one on an extra payment is about the variable of the debt, which was added before any draft
(`exists_tierDebts` counts them).

Serving the goals can only fail in the check of the lower bounds: `solvePreemptive_decided`. No
backend is involved, and nothing is divided.
-/

namespace GoalBudget.DeviationProgram

variable {p q : DeviationProgram Rat} {key : String}

/-! ## Single items -/

/-- A category always has a variable. -/
theorem exists_categoryVariable (key : String) (c : Category Rat) :
    ∃ v, categoryVariable key c = .ok v :=
  Variable.exists_make _ _ _ (not_lt.mp c.minimum_nonneg) (not_lt.mp c.maximum_nonneg)
    c.minimum_le_of_pos

theorem exists_debtVariable (key : String) (d : Debt Rat) : ∃ v, debtVariable key d = .ok v := by
  have hle : d.scheduledPayment ≤ greatest d.currentBalance d.scheduledPayment := by
    rw [greatest_eq_max]
    exact le_max_right _ _
  exact Variable.exists_make _ _ _ d.scheduledPayment_nonneg
    (d.scheduledPayment_nonneg.trans hle) fun _ => hle

theorem exists_goalVariable (key : String) (g : Goal Rat) : ∃ v, goalVariable key g = .ok v := by
  have hremaining := not_lt.mp g.remainingAmount_nonneg
  exact Variable.exists_make _ _ _ (le_refl 0) hremaining fun _ => hremaining

/-- A goal is always added along with its variable. -/
theorem exists_addAtLeast (p : DeviationProgram Rat) (v : Variable Rat) (key : String)
    (target : Rat) (priority : Int) (weight : Rat) (description : String) :
    ∃ q, p.addAtLeast v key target priority weight description = .ok q :=
  p.exists_addItem v fun _ => rfl

/-- A mandatory expense always has its tier. -/
theorem exists_tierMandatory (p : DeviationProgram Rat) (key : String) (c : Category Rat) :
    ∃ q, p.tierMandatory key c = .ok q := by
  obtain ⟨v, hv⟩ := exists_categoryVariable key c
  exact exists_bind hv (p.exists_addAtLeast v key _ 1 1 _)

theorem exists_tierFlexible (p : DeviationProgram Rat) (level : Rat) (key : String)
    (c : Category Rat) : ∃ q, p.tierFlexible level key c = .ok q := by
  obtain ⟨v, hv⟩ := exists_categoryVariable key c
  exact exists_bind hv (p.exists_addAtLeast v key _ 7 1 _)

/-- A debt has one variable. -/
theorem exists_tierDebt (p : DeviationProgram Rat) (key : String) (d : Debt Rat) :
    ∃ q, p.tierDebt key d = .ok q ∧ q.vars.length = p.vars.length + 1 := by
  obtain ⟨v, hv⟩ := exists_debtVariable key d
  obtain ⟨q, hq⟩ := p.exists_addAtLeast v key d.scheduledPayment 2 1
    ("Minimum payment for " ++ d.name)
  refine ⟨q, bind_eq_ok.mpr ⟨v, hv, hq⟩, ?_⟩
  rw [GoalProgram.vars_addItem hq, List.length_append, List.length_singleton]

/-- Debts have theirs, one variable each. -/
theorem exists_tierDebts (p : DeviationProgram Rat) (debts : List (String × Debt Rat)) :
    ∃ q, debts.foldlM (fun p e => tierDebt p e.1 e.2) p = .ok q ∧
      q.vars.length = p.vars.length + debts.length := by
  induction debts generalizing p with
  | nil => exact ⟨p, rfl, rfl⟩
  | cons e rest ih =>
    obtain ⟨next, hnext, hlen⟩ := exists_tierDebt p e.1 e.2
    obtain ⟨q, hq, hqlen⟩ := ih next
    refine ⟨q, ?_, ?_⟩
    · rw [List.foldlM_cons, hnext]
      exact hq
    · rw [hqlen, hlen, List.length_cons]
      omega

/-! ## Drafts -/

/-- Every goal to come is on a variable that there is. -/
def Draft.Fits (d : Draft Rat) : Prop :=
  ∀ g ∈ d.pending, (g.2 g.1).index < d.program.vars.length

/-- Every savings goal has a tier and a weight. -/
theorem exists_goalTier (g : Goal Rat) : ∃ tier, goalTier g = .ok tier := by
  unfold goalTier
  split
  next => exact ⟨_, rfl⟩
  next =>
    split
    next => exact ⟨_, rfl⟩
    next => exact ⟨_, rfl⟩

/-- A savings goal is drafted, and its variable added. -/
theorem exists_draftGoal (factor : Rat) {d : Draft Rat} (key : String) (g : Goal Rat)
    (h : d.Fits) : ∃ d', draftGoal factor d key g = .ok d' ∧ d'.Fits ∧
      d.program.vars.length ≤ d'.program.vars.length := by
  unfold draftGoal
  split
  next => exact ⟨d, rfl, h, le_refl _⟩
  next =>
    obtain ⟨v, hv⟩ := exists_goalVariable key g
    obtain ⟨tier, htier⟩ := exists_goalTier g
    refine ⟨_, bind_eq_ok.mpr ⟨v, hv, bind_eq_ok.mpr ⟨tier, htier, rfl⟩⟩, ?_, ?_⟩
    · intro g' hg'
      show (g'.2 g'.1).index < (d.program.vars ++ [v]).length
      rw [List.length_append, List.length_singleton]
      rcases List.mem_append.mp hg' with hold | hnew
      · exact Nat.lt_succ_of_lt (h g' hold)
      · rw [List.mem_singleton.mp hnew]
        exact Nat.lt_succ_self _
    · show d.program.vars.length ≤ (d.program.vars ++ [v]).length
      rw [List.length_append]
      exact Nat.le_add_right _ _

/-- An extra payment is drafted on a variable that is there. -/
theorem exists_draftExtra (share : Rat) {d : Draft Rat} {position : Nat} (key : String)
    (debt : Debt Rat) (h : d.Fits) (hposition : position < d.program.vars.length) :
    ∃ d', draftExtra share d position key debt = .ok d' ∧ d'.Fits ∧
      d'.program = d.program := by
  unfold draftExtra
  split
  next => exact ⟨d, rfl, h, rfl⟩
  next =>
    refine ⟨_, rfl, ?_, rfl⟩
    intro g' hg'
    rcases List.mem_append.mp hg' with hold | hnew
    · exact h g' hold
    · rw [List.mem_singleton.mp hnew]
      exact hposition

/-- The goals of a draft that fits are all added. -/
theorem exists_addGoals {d : Draft Rat} (h : d.Fits) :
    ∃ q, d.program.addGoals d.pending = .ok q := by
  obtain ⟨q, hq, _⟩ := exists_foldlM
    (fun q : DeviationProgram Rat => q.vars = d.program.vars)
    (fun g hg q hvars => by
      obtain ⟨next, hnext⟩ : ∃ next, q.addGoal g.1 g.2 = .ok next :=
        GoalProgram.exists_addGoal (hvars ▸ h g hg)
      exact ⟨next, hnext, (GoalProgram.vars_addGoal hnext).trans hvars⟩)
    (rfl : d.program.vars = d.program.vars)
  exact ⟨q, hq⟩

/-! ## The program and its result -/

/-- Every budget has tiers in every scenario. -/
theorem exists_tiersOfBudget (b : Budget Rat) (s : Scenario Rat) :
    ∃ p, tiersOfBudget b s = .ok p := by
  unfold tiersOfBudget
  dsimp only
  refine exists_bind_of_forall (exists_foldlM_of_forall ?_ _ _) fun p => ?_
  · exact fun p e => exists_tierMandatory p e.1 e.2
  obtain ⟨q, hq, hlen⟩ := exists_tierDebts p b.debts.sorted.entries
  refine exists_bind hq ?_
  -- the variables of the debts come right behind those of the mandatory expenses
  obtain ⟨d₁, hd₁, hfits₁, hle₁⟩ := exists_foldlM
    (fun d : Draft Rat => d.Fits ∧ q.vars.length ≤ d.program.vars.length)
    (fun e (_ : e ∈ b.goals.sorted.entries) d hd => by
      obtain ⟨d', hd', hfits, hle⟩ := exists_draftGoal s.goalFactor e.1 e.2 hd.1
      exact ⟨d', hd', hfits, hd.2.trans hle⟩)
    (show (⟨q, []⟩ : Draft Rat).Fits ∧ _ from ⟨nofun, le_refl _⟩)
  refine exists_bind hd₁ ?_
  obtain ⟨d₂, hd₂, hfits₂, _⟩ := exists_foldlM
    (fun d : Draft Rat => d.Fits ∧ d.program = d₁.program)
    (fun e (he : e ∈ b.debts.sorted.entries.zipIdx) d hd => by
      have hposition : p.vars.length + e.2 < d.program.vars.length := by
        have hlt := List.snd_lt_of_mem_zipIdx he
        rw [hd.2]
        omega
      obtain ⟨d', hd', hfits, hprogram⟩ :=
        exists_draftExtra s.shares.debtExtra e.1.1 e.1.2 hd.1 hposition
      exact ⟨d', hd', hfits, hprogram.trans hd.2⟩)
    ⟨hfits₁, rfl⟩
  refine exists_bind hd₂ ?_
  obtain ⟨r, hr⟩ := exists_addGoals hfits₂
  refine exists_bind hr (exists_foldlM_of_forall ?_ _ _)
  exact fun p e => exists_tierFlexible p s.spendingLevel e.1 e.2

/-- Serving the goals fails when the lower bounds do not fit into the income, and never else. -/
theorem solvePreemptive_decided :
    DecidedBy (checkMinimums p.vars p.income) p.solvePreemptive := by
  constructor
  · intro hcheck
    obtain ⟨f, hf, hsound⟩ := exists_runPreemptive hcheck
    obtain ⟨r, hr, _⟩ := exists_summarize hsound.length .optimal p.goals.length
    exact ⟨r, bind_eq_ok.mpr ⟨f, hf, hr⟩⟩
  · intro e hcheck
    rw [solvePreemptive, runPreemptive, startAtMinimums, hcheck]
    rfl

end GoalBudget.DeviationProgram
