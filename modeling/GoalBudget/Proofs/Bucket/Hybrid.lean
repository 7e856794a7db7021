import GoalBudget.Allocation.Proposal
import GoalBudget.Proofs.Bucket.Spend
import GoalBudget.Proofs.Fault.Success
import GoalBudget.Proofs.Ledger.Total

/-!
# What the hybrid strategy proposes

Every item that competes for a bucket starts with nothing and asks for nothing negative
(`isFresh_goalItem`, `isFresh_debtItem`, `isFresh_flexibleItem`), so what is known of spending a
bucket applies to all four. Debts are in one bucket only, the one for extra payments, and what they
get there is all that is proposed for them on top of what is due:

* `debtExtra_spec`: only debts without a forced payment get something, nothing negative, and no more
  than their balance exceeds the minimum payment;
* `sum_debtExtra_le`: all of it together is at most the share of the surplus.

A proposal sorts the items by kind and not by bucket. That the items of kind debt are those of the
one bucket is a fact about how buckets are made (`buckets_spec`) and about spending, which changes
no kind (`spent_items`).

Goals and categories are added up by id, so that a category that got something in both phases has
the sum; nothing of it is negative (`proposal_values_nonneg`).
-/

namespace GoalBudget.Hybrid

variable {b : Budget Rat} {s : Scenario Rat} {key : String}

/-! ## Items -/

/-- A ladder of fractions of a positive target asks for nothing negative. -/
theorem isFresh_ladder {target scale : Rat} {steps : List (Rat × Rat × String)} {id name : String}
    {kind : ItemKind} {priority : Int} {weight : Rat} (htarget : 0 < target) (hne : steps ≠ [])
    (hsteps : ∀ step ∈ steps, 0 ≤ step.1) :
    (BucketItem.fresh id name kind priority weight (ladder target scale steps)).IsFresh := by
  refine ⟨rfl, fun hnil => hne (List.map_eq_nil_iff.mp hnil), ?_⟩
  intro l hl
  obtain ⟨step, hstep, rfl⟩ := List.mem_map.mp hl
  exact mul_nonneg htarget.le (hsteps step hstep)

/-- Three fractions, the last of them the whole. -/
theorem threeSteps_between {f₁ r₁ f₂ r₂ r₃ : Rat} (h₁ : 0 ≤ f₁ ∧ f₁ ≤ 1) (h₂ : 0 ≤ f₂ ∧ f₂ ≤ 1)
    (step : Rat × Rat × String) (hstep : step ∈ threeSteps f₁ r₁ f₂ r₂ r₃) :
    0 ≤ step.1 ∧ step.1 ≤ 1 := by
  simp only [threeSteps, List.mem_cons, List.not_mem_nil, or_false] at hstep
  rcases hstep with rfl | rfl | rfl
  · exact h₁
  · exact h₂
  · exact ⟨zero_le_one, le_refl 1⟩

theorem goalSteps_nonneg (priority : GoalPriority) (step : Rat × Rat × String)
    (hstep : step ∈ goalSteps priority) : 0 ≤ step.1 := by
  cases priority <;> exact (threeSteps_between (by norm_num) (by norm_num) step hstep).1

/-- The item of a savings goal is fresh and has the goal's id. -/
theorem isFresh_goalItem {factor : Rat} {g : Goal Rat} {item : BucketItem Rat}
    (h : goalItem factor key g = .ok (some item)) :
    item.IsFresh ∧ item.kind = .goal ∧ item.id = key := by
  unfold goalItem at h
  dsimp only at h
  split at h
  next => cases h
  next htarget =>
    obtain ⟨weight, _, h⟩ := bind_eq_ok.mp h
    cases h
    refine ⟨isFresh_ladder (not_le.mp htarget) ?_ ?_, rfl, rfl⟩
    · split
      next => exact List.cons_ne_nil _ _
      next => cases g.priority <;> exact List.cons_ne_nil _ _
    · split
      next =>
        intro step hstep
        exact (threeSteps_between (by norm_num) (by norm_num) step hstep).1
      next => exact goalSteps_nonneg g.priority

/-- What the item of a debt is: one for a debt without a forced payment, that asks for no more
than the balance exceeds the minimum payment. -/
theorem isFresh_debtItem {share : Rat} {d : Debt Rat} {item : BucketItem Rat}
    (h : debtItem share key d = some item) :
    item.IsFresh ∧ item.kind = .debt ∧ item.id = key ∧ d.isForced = false ∧
      ∀ l ∈ item.levels, l.value ≤ d.currentBalance - d.minimumPayment := by
  unfold debtItem at h
  dsimp only at h
  rw [least_eq_min] at h
  split at h
  next => cases h
  next hcond =>
    simp only [Bool.or_eq_true, decide_eq_true_eq, not_or, Bool.not_eq_true] at hcond
    obtain ⟨hforced, htarget⟩ := hcond
    have hpos := not_le.mp htarget
    -- every level is a part of what the balance leaves open
    have hsteps : ∀ step ∈ threeSteps (0.3 : Rat) 0.4 0.7 0.75 1, 0 ≤ step.1 ∧ step.1 ≤ 1 :=
      threeSteps_between (by norm_num) (by norm_num)
    cases h
    refine ⟨isFresh_ladder hpos (List.cons_ne_nil _ _) fun step hstep => (hsteps step hstep).1,
      rfl, rfl, hforced, ?_⟩
    intro l hl
    obtain ⟨step, hstep, rfl⟩ := List.mem_map.mp hl
    have hle : min (d.minimumPayment * share * 10) (d.currentBalance - d.minimumPayment) * step.1 ≤
        min (d.minimumPayment * share * 10) (d.currentBalance - d.minimumPayment) :=
      mul_le_of_le_one_right hpos.le (hsteps step hstep).2
    exact hle.trans (min_le_right _ _)

/-- The item of a flexible category is fresh and has its id. -/
theorem isFresh_flexibleItem {level : Rat} {c : Category Rat} {item : BucketItem Rat}
    (h : flexibleItem level key c = some item) :
    item.IsFresh ∧ item.kind = .category ∧ item.id = key := by
  unfold flexibleItem at h
  dsimp only at h
  split at h
  next => cases h
  next hextra =>
    have hpos := not_le.mp hextra
    cases h
    refine ⟨⟨rfl, List.cons_ne_nil _ _, ?_⟩, rfl, rfl⟩
    intro l hl
    simp only [BucketItem.fresh, List.mem_cons, List.not_mem_nil, or_false] at hl
    rcases hl with rfl | rfl | rfl
    · exact le_refl 0
    · exact mul_nonneg hpos.le (by norm_num)
    · exact hpos.le

/-! ## Buckets -/

/-- The items of the bucket for extra payments. -/
def debtItems (b : Budget Rat) (s : Scenario Rat) : List (BucketItem Rat) :=
  b.debts.sorted.entries.filterMap fun e => debtItem s.shares.debtExtra e.1 e.2

/-- The bucket for extra payments. -/
def debtBucket (b : Budget Rat) (s : Scenario Rat) (surplus : Rat) : Bucket Rat :=
  bucket .debtExtra s.shares.debtExtra surplus (debtItems b s)

theorem goal_of_mem_goalItems {factor : Rat} {emergency : Bool} {items : List (BucketItem Rat)}
    (h : goalItems b factor emergency = .ok items) {item : BucketItem Rat} (hitem : item ∈ items) :
    ∃ key g, b.goals.get? key = some g ∧ goalItem factor key g = .ok (some item) := by
  obtain ⟨drafts, hdrafts, h⟩ := bind_eq_ok.mp h
  cases h
  obtain ⟨draft, hmem, rfl⟩ := List.mem_filterMap.mp hitem
  obtain ⟨e, he, hmade⟩ := exists_of_mem_mapM hdrafts hmem
  have hgoal := Ledger.mem_entries_sorted.mp (List.mem_of_mem_filter he)
  exact ⟨e.1, e.2, Ledger.get?_of_mem hgoal, hmade⟩

/-- The items of goals are fresh and stand for goals of the budget. -/
theorem goalItems_spec {factor : Rat} {emergency : Bool} {items : List (BucketItem Rat)}
    (h : goalItems b factor emergency = .ok items) (item : BucketItem Rat) (hitem : item ∈ items) :
    item.IsFresh ∧ item.kind = .goal ∧ item.id ∈ b.goals.keys := by
  obtain ⟨key, g, hg, hmade⟩ := goal_of_mem_goalItems h hitem
  obtain ⟨hfresh, hkind, hid⟩ := isFresh_goalItem hmade
  exact ⟨hfresh, hkind, hid ▸ Ledger.mem_keys_of_get? hg⟩

/-- Every item of a bucket is made from a goal, a debt or a flexible category of the budget. -/
theorem item_of_mem_buckets {surplus : Rat} {bs : List (Bucket Rat)}
    (h : buckets b s surplus = .ok bs) {bucket : Bucket Rat} (hbucket : bucket ∈ bs)
    {item : BucketItem Rat} (hitem : item ∈ bucket.items) :
    (∃ key g, b.goals.get? key = some g ∧ goalItem s.goalFactor key g = .ok (some item)) ∨
    (∃ key d, b.debts.get? key = some d ∧ debtItem s.shares.debtExtra key d = some item) ∨
    ∃ key c, b.flexible.get? key = some c ∧ flexibleItem s.spendingLevel key c = some item := by
  obtain ⟨emergency, hemergency, h⟩ := bind_eq_ok.mp h
  obtain ⟨goals, hgoals, h⟩ := bind_eq_ok.mp h
  cases h
  simp only [List.mem_cons, List.not_mem_nil, or_false] at hbucket
  rcases hbucket with rfl | rfl | rfl | rfl
  · exact .inl (goal_of_mem_goalItems hemergency hitem)
  · obtain ⟨e, he, hmade⟩ := List.mem_filterMap.mp hitem
    exact .inr (.inl ⟨e.1, e.2, Ledger.get?_of_mem (Ledger.mem_entries_sorted.mp he), hmade⟩)
  · exact .inl (goal_of_mem_goalItems hgoals hitem)
  · obtain ⟨e, he, hmade⟩ := List.mem_filterMap.mp hitem
    exact .inr (.inr ⟨e.1, e.2, Ledger.get?_of_mem (Ledger.mem_entries_sorted.mp he), hmade⟩)

/-- The buckets of a surplus: all items are fresh, and those that are not in the bucket for extra
payments are no debts. -/
theorem buckets_spec {surplus : Rat} {bs : List (Bucket Rat)}
    (h : buckets b s surplus = .ok bs) :
    ∃ emergency goals flexible : Bucket Rat,
      bs = [emergency, debtBucket b s surplus, goals, flexible] ∧
      ∀ bucket ∈ [emergency, goals, flexible],
        (∃ share : Rat, 0 ≤ share ∧ bucket.budget = surplus * share) ∧
        ∀ item ∈ bucket.items, item.IsFresh ∧ item.kind ≠ .debt := by
  obtain ⟨emergency, hemergency, h⟩ := bind_eq_ok.mp h
  obtain ⟨goals, hgoals, h⟩ := bind_eq_ok.mp h
  cases h
  refine ⟨_, _, _, rfl, ?_⟩
  intro bucket hbucket
  simp only [List.mem_cons, List.not_mem_nil, or_false] at hbucket
  rcases hbucket with rfl | rfl | rfl
  · refine ⟨⟨_, not_lt.mp s.shares.emergencyFund_nonneg, rfl⟩, fun item hitem => ?_⟩
    obtain ⟨hfresh, hkind, _⟩ := goalItems_spec hemergency item hitem
    exact ⟨hfresh, by rw [hkind]; decide⟩
  · refine ⟨⟨_, not_lt.mp s.shares.goals_nonneg, rfl⟩, fun item hitem => ?_⟩
    obtain ⟨hfresh, hkind, _⟩ := goalItems_spec hgoals item hitem
    exact ⟨hfresh, by rw [hkind]; decide⟩
  · refine ⟨⟨_, not_lt.mp s.shares.flexible_nonneg, rfl⟩, fun item hitem => ?_⟩
    obtain ⟨e, _, he⟩ := List.mem_filterMap.mp hitem
    obtain ⟨hfresh, hkind, _⟩ := isFresh_flexibleItem he
    exact ⟨hfresh, by rw [hkind]; decide⟩

/-! ## The bucket for extra payments -/

/-- An item of a debt asks for no more than the balance leaves. -/
theorem mem_debtItems {item : BucketItem Rat} (h : item ∈ debtItems b s) :
    item.IsFresh ∧ item.kind = .debt ∧ ∃ d, b.debts.get? item.id = some d ∧
      d.isForced = false ∧ ∀ l ∈ item.levels, l.value ≤ d.currentBalance - d.minimumPayment := by
  obtain ⟨e, he, hitem⟩ := List.mem_filterMap.mp h
  obtain ⟨hfresh, hkind, hid, hforced, hlevels⟩ := isFresh_debtItem hitem
  refine ⟨hfresh, hkind, e.2, ?_, hforced, hlevels⟩
  rw [hid]
  exact Ledger.get?_of_mem (Ledger.mem_entries_sorted.mp he)

/-- Items that keep the ids of what they are made of have these ids in order. -/
theorem map_filterMap_sublist {σ τ κ : Type} {f : σ → Option τ} {before : σ → κ} {after : τ → κ}
    (h : ∀ x y, f x = some y → after y = before x) (xs : List σ) :
    ((xs.filterMap f).map after).Sublist (xs.map before) := by
  induction xs with
  | nil => exact .slnil
  | cons x rest ih =>
    cases hx : f x with
    | none =>
      rw [List.filterMap_cons_none hx, List.map_cons]
      exact ih.cons _
    | some y =>
      rw [List.filterMap_cons_some hx, List.map_cons, List.map_cons, h x y hx]
      exact ih.cons_cons _

theorem nodup_debtItems : ((debtItems b s).map (·.id)).Nodup := by
  refine (b.debts.sorted.distinct).sublist (map_filterMap_sublist ?_ b.debts.sorted.entries)
  intro e item hitem
  exact (isFresh_debtItem hitem).2.2.1

section
variable {surplus : Rat} (hsurplus : 0 ≤ surplus)
include hsurplus

/-- The bucket for extra payments is spent as all others are. -/
theorem spending_debtBucket : Bucket.Spending
    (((debtItems b s).mergeSort Bucket.comesFirst).map BucketItem.offered)
    (surplus * s.shares.debtExtra)
    ((debtBucket b s surplus).spend.items, (debtBucket b s surplus).spend.remaining) :=
  Bucket.spending_spend (b := debtBucket b s surplus) (fun _ hitem => (mem_debtItems hitem).1)
    (mul_nonneg hsurplus (not_lt.mp s.shares.debtExtra_nonneg))

theorem nodup_spent : ((debtBucket b s surplus).spend.items.map (·.id)).Nodup := by
  have hids : (debtBucket b s surplus).spend.items.map (·.id) =
      ((debtItems b s).mergeSort Bucket.comesFirst).map (·.id) := by
    have hspending := spending_debtBucket (b := b) (s := s) hsurplus
    have := congrArg (List.map Offered.id) hspending.offers_eq
    rwa [List.map_map, List.map_map] at this
  rw [hids]
  exact ((List.mergeSort_perm _ _).map _).nodup_iff.mpr nodup_debtItems

/-- What a debt gets from the bucket. -/
theorem spent_item {item : BucketItem Rat} (h : item ∈ (debtBucket b s surplus).spend.items) :
    item.kind = .debt ∧ ∃ d, b.debts.get? item.id = some d ∧ d.isForced = false ∧
      0 ≤ item.allocated ∧ item.allocated ≤ d.currentBalance - d.minimumPayment := by
  obtain ⟨_, fresh, hfresh, heq⟩ := Bucket.exists_of_mem_spend (b := debtBucket b s surplus)
    (fun _ hitem => (mem_debtItems hitem).1)
    (mul_nonneg hsurplus (not_lt.mp s.shares.debtExtra_nonneg)) h
  obtain ⟨_, hkind, d, hd, hforced, hlevels⟩ := mem_debtItems hfresh
  have hfunded := (spending_debtBucket hsurplus).funded item h
  obtain ⟨l, hl, hle⟩ := hfunded.le_level
  simp only [BucketItem.offered, Offered.mk.injEq] at heq
  obtain ⟨hid, hkindEq, hlevelsEq⟩ := heq
  rw [← hlevelsEq] at hl
  exact ⟨hkindEq ▸ hkind, d, hid ▸ hd, hforced, hfunded.nonneg, hle.trans (hlevels l hl)⟩

end

/-! ## The proposal -/

/-- What a run of the strategy consists of. -/
theorem solve_spec {r : HybridResult Rat} (h : solve b s = .ok r) :
    phase1Total b ≤ b.income + deviationTolerance ∧ r.flexibleMinimums = flexibleMinimums b ∧
    r.phase1Total = phase1Total b ∧ r.final = r.buckets.foldl enterBucket (firstDetails b) ∧
    r.totalAllocated = (r.final.values.map (·.amount)).sum ∧
    ∃ bs, buckets b s (max 0 (b.income - phase1Total b)) = .ok bs ∧
      r.buckets = bs.map Bucket.spend := by
  unfold solve at h
  dsimp only at h
  split at h
  next => cases h
  next hfits =>
    obtain ⟨bs, hbs, h⟩ := bind_eq_ok.mp h
    rw [greatest_eq_max] at hbs
    cases h
    exact ⟨not_lt.mp hfits, rfl, rfl, rfl, total_eq_sum _, bs, hbs, rfl⟩

/-- What an item of another bucket is after spending it: no debt, and with nothing negative. -/
theorem spent_other {bucket : Bucket Rat} (hbudget : 0 ≤ bucket.budget)
    (hitems : ∀ item ∈ bucket.items, item.IsFresh ∧ item.kind ≠ .debt) (item : BucketItem Rat)
    (h : item ∈ bucket.spend.items) : item.kind ≠ .debt ∧ 0 ≤ item.allocated := by
  obtain ⟨hnonneg, fresh, hfresh, heq⟩ :=
    Bucket.exists_of_mem_spend (fun item hitem => (hitems item hitem).1) hbudget h
  have hsame : fresh.kind = item.kind := congrArg Offered.kind heq
  exact ⟨hsame ▸ (hitems fresh hfresh).2, hnonneg⟩

/-- The items after all buckets are spent: those for extra payments, all debts, between others
that are none. -/
theorem spent_items {r : HybridResult Rat} (h : solve b s = .ok r) :
    ∃ before after : List (BucketItem Rat),
      r.buckets.flatMap (·.items) =
        before ++ (debtBucket b s (max 0 (b.income - phase1Total b))).spend.items ++ after ∧
      ∀ item ∈ before ++ after, item.kind ≠ .debt ∧ 0 ≤ item.allocated := by
  obtain ⟨_, _, _, _, _, bs, hbs, hspent⟩ := solve_spec h
  obtain ⟨emergency, goals, flexible, rfl, hothers⟩ := buckets_spec hbs
  have hspend : ∀ bucket ∈ [emergency, goals, flexible], ∀ item ∈ bucket.spend.items,
      item.kind ≠ .debt ∧ 0 ≤ item.allocated := by
    intro bucket hbucket
    obtain ⟨⟨share, hshare, hbudget⟩, hitems⟩ := hothers bucket hbucket
    exact spent_other (hbudget ▸ mul_nonneg (le_max_left _ _) hshare) hitems
  refine ⟨emergency.spend.items, goals.spend.items ++ flexible.spend.items, ?_, ?_⟩
  · rw [hspent]
    simp
  · intro item hitem
    simp only [List.mem_append] at hitem
    rcases hitem with hitem | hitem | hitem
    · exact hspend emergency (by simp) item hitem
    · exact hspend goals (by simp) item hitem
    · exact hspend flexible (by simp) item hitem

/-- The extra payments proposed are what the debts got from their bucket. -/
theorem entries_debtExtra {r : HybridResult Rat} (h : solve b s = .ok r) :
    r.proposal.debtExtra.entries =
      (debtBucket b s (max 0 (b.income - phase1Total b))).spend.items.map
        fun item => (item.id, item.allocated) := by
  obtain ⟨before, after, hitems, hothers⟩ := spent_items h
  have hsurplus : 0 ≤ max 0 (b.income - phase1Total b) := le_max_left _ _
  have hnone : ∀ items : List (BucketItem Rat), (∀ item ∈ items, item.kind ≠ .debt) →
      items.filter (·.kind == .debt) = [] := by
    intro items hkinds
    rw [List.filter_eq_nil_iff]
    intro item hitem hdebt
    exact hkinds item hitem (eq_of_beq hdebt)
  -- of all buckets only the second one holds debts
  have hall : (debtBucket b s (max 0 (b.income - phase1Total b))).spend.items.filter
      (·.kind == .debt) = (debtBucket b s (max 0 (b.income - phase1Total b))).spend.items := by
    rw [List.filter_eq_self]
    intro item hitem
    rw [(spent_item hsurplus hitem).1]
    rfl
  have hdebts : (r.buckets.flatMap (·.items)).filter (·.kind == .debt) =
      (debtBucket b s (max 0 (b.income - phase1Total b))).spend.items := by
    rw [hitems, List.filter_append, List.filter_append, hall,
      hnone before fun item hmem => (hothers item (List.mem_append_left _ hmem)).1,
      hnone after fun item hmem => (hothers item (List.mem_append_right _ hmem)).1,
      List.append_nil, List.nil_append]
  unfold HybridResult.proposal
  dsimp only
  rw [List.partition_eq_filter_filter, hdebts]
  refine Ledger.entries_ofList ?_
  rw [List.map_map]
  exact nodup_spent hsurplus

/-- Only a debt without a forced payment gets something extra: nothing negative, and no more
than its balance exceeds the minimum payment. -/
theorem debtExtra_spec {r : HybridResult Rat} {x : Rat} (h : solve b s = .ok r)
    (hx : r.proposal.debtExtra.get? key = some x) :
    ∃ d, b.debts.get? key = some d ∧ d.isForced = false ∧ 0 ≤ x ∧
      x ≤ d.currentBalance - d.minimumPayment := by
  rw [Ledger.get?_eq_some_iff, entries_debtExtra h] at hx
  obtain ⟨item, hitem, heq⟩ := List.mem_map.mp hx
  cases heq
  exact (spent_item (le_max_left _ _) hitem).2

/-- All extra payments together are at most the share of the surplus. -/
theorem sum_debtExtra_le {r : HybridResult Rat} (h : solve b s = .ok r) :
    r.proposal.debtExtra.values.sum ≤
      max 0 (b.income - phase1Total b) * s.shares.debtExtra := by
  have hsurplus : 0 ≤ max 0 (b.income - phase1Total b) := le_max_left _ _
  have hspending := spending_debtBucket (b := b) (s := s) hsurplus
  have hbalance := hspending.balance
  have hleft := hspending.left_nonneg
  have hvalues : r.proposal.debtExtra.values =
      (debtBucket b s (max 0 (b.income - phase1Total b))).spend.items.map (·.allocated) := by
    rw [Ledger.values, entries_debtExtra h, List.map_map]
    rfl
  rw [hvalues]
  dsimp only at hbalance hleft
  linarith

theorem addTo_nonneg {l : Ledger Rat} {id : String} {x : Rat} (h : ∀ e ∈ l.entries, 0 ≤ e.2)
    (hx : 0 ≤ x) : ∀ e ∈ (l.addTo id x).entries, 0 ≤ e.2 := by
  intro e he
  rcases Ledger.mem_entries_insert he with hmem | rfl
  · exact h e hmem
  · show 0 ≤ l.getD id 0 + x
    exact add_nonneg (Ledger.getD_nonneg fun y hy =>
      h (id, y) (Ledger.get?_eq_some_iff.mp hy)) hx

theorem proposal_values_nonneg {r : HybridResult Rat} (h : solve b s = .ok r) :
    ∀ e ∈ r.proposal.values.entries, 0 ≤ e.2 := by
  obtain ⟨before, after, hitems, hothers⟩ := spent_items h
  have hsurplus : 0 ≤ max 0 (b.income - phase1Total b) := le_max_left _ _
  have hnonneg : ∀ item ∈ r.buckets.flatMap (·.items), 0 ≤ item.allocated := by
    intro item hitem
    rw [hitems, List.append_assoc, List.mem_append, List.mem_append] at hitem
    rcases hitem with hitem | hitem | hitem
    · exact (hothers item (List.mem_append_left _ hitem)).2
    · obtain ⟨_, _, _, _, hallocated, _⟩ := spent_item hsurplus hitem
      exact hallocated
    · exact (hothers item (List.mem_append_right _ hitem)).2
  unfold HybridResult.proposal
  dsimp only
  rw [List.partition_eq_filter_filter, (solve_spec h).2.1]
  refine List.foldlRecOn _ _ (motive := fun l : Ledger Rat => ∀ e ∈ l.entries, 0 ≤ e.2) ?_ ?_
  · refine List.foldlRecOn _ _ (motive := fun l : Ledger Rat => ∀ e ∈ l.entries, 0 ≤ e.2) ?_ ?_
    · intro e he
      cases he
    · intro l hl item hitem
      exact addTo_nonneg hl (hnonneg item (List.mem_of_mem_filter hitem))
  · intro l hl e he
    exact addTo_nonneg hl (le_of_lt (of_decide_eq_true (List.mem_filter.mp he).2))

/-! ## The first phase -/

/-- The first phase pays all minimums, those of nothing included. -/
theorem phase1Total_eq (b : Budget Rat) : phase1Total b =
    (b.mandatory.values.map (·.minimum)).sum + (b.debts.values.map (·.scheduledPayment)).sum +
      (b.flexible.map fun _ c => c.minimum).values.sum := by
  have hflexible : (flexibleMinimums b).values.sum =
      (b.flexible.map fun _ c => c.minimum).values.sum := by
    rw [flexibleMinimums, Ledger.sum_values_filter_pos, Ledger.map_map,
      Ledger.sum_values_map_sorted]
    refine congrArg (fun l : Ledger Rat => l.values.sum) (Ledger.map_congr fun _ c _ => ?_)
    exact max_eq_right (not_lt.mp c.minimum_nonneg)
  rw [phase1Total, total_eq_sum, total_eq_sum, total_eq_sum, hflexible, mandatoryMinimums,
    debtMinimums, Ledger.sum_values_map_sorted, Ledger.sum_values_map_sorted,
    Ledger.values_map_values, Ledger.values_map_values]

end GoalBudget.Hybrid
