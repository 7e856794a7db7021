import GoalBudget.Proofs.Allocation.Conservation
import GoalBudget.Proofs.Ledger.Gains

/-!
# Where the money of the hybrid strategy is

The same money is recorded more than once: what the first phase pays, what every bucket and every
item got, the final records, and what is proposed. The final records and the proposal are written by
two routines of their own. Both enter what the items got as grants (`gains_enter`,
`Ledger.gains_foldl_addTo`), on top of what the first phase pays, so they come to the same amounts
for every id. Where an item has no record and got nothing, none is made, and the amount is nothing
either way.

No id is in two ledgers of a budget, and an item has the id of what it stands for (`IsContender`).
So the payment due of a debt and what it got make up its final amount, and nothing else is mixed in.

The records are lists with an id each, so that sums are taken over lists and lookups over ledgers;
`amounts` is the one bridge between the two. That ids are not repeated is shown of the first phase
(`nodup_firstKeys`) and kept by every entry made.

Main result: `solve_conserves`.
-/

namespace GoalBudget

/-- What an item got from its bucket. -/
def BucketItem.grant (item : BucketItem Rat) : String × Rat := (item.id, item.allocated)

namespace Bucket

/-- Whether the money of a bucket is given to its items or left. -/
structure Balanced (b : Bucket Rat) : Prop where
  allocated_nonneg : 0 ≤ b.allocated
  allocated_le : b.allocated ≤ b.budget
  /-- What is not given out is left. -/
  balance : b.allocated + b.remaining = b.budget
  /-- What is given out the items have. -/
  allocated_eq : b.allocated = (b.items.map (·.allocated)).sum

/-- A bucket that is spent adds up. -/
theorem balanced_spend {b : Bucket Rat} (hfresh : ∀ item ∈ b.items, item.IsFresh)
    (hbudget : 0 ≤ b.budget) : b.spend.Balanced := by
  have hspending := spending_spend hfresh hbudget
  have hbalance : (b.spend.items.map (·.allocated)).sum + b.spend.remaining = b.budget :=
    hspending.balance
  have hgiven : b.spend.allocated = b.budget - b.spend.remaining := rfl
  have hsum : b.spend.allocated = (b.spend.items.map (·.allocated)).sum := by
    rw [hgiven, ← hbalance, add_sub_cancel_right]
  have hleft : 0 ≤ b.spend.remaining := hspending.left_nonneg
  refine ⟨?_, ?_, ?_, hsum⟩
  · rw [hsum]
    refine List.sum_nonneg fun x hx => ?_
    obtain ⟨item, hitem, rfl⟩ := List.mem_map.mp hx
    exact (hspending.funded item hitem).nonneg
  · rw [hgiven]
    exact sub_le_self _ hleft
  · rw [hgiven]
    exact sub_add_cancel _ _

end Bucket

namespace Hybrid

variable {b : Budget Rat} {s : Scenario Rat} {r : HybridResult Rat} {id : String}

/-! ## The final records -/

/-- The amounts of records. -/
def amounts (final : Ledger (Detail Rat)) : Ledger Rat := final.map fun _ d => d.amount

theorem entries_amounts (final : Ledger (Detail Rat)) :
    (amounts final).entries = final.entries.map fun e => (e.1, e.2.amount) := rfl

theorem keys_amounts (final : Ledger (Detail Rat)) : (amounts final).keys = final.keys :=
  Ledger.keys_map _ _

/-- A record whose amount is raised. -/
theorem amounts_modify {final : Ledger (Detail Rat)} {f : Detail Rat → Detail Rat} {x : Rat}
    (hid : id ∈ final.keys) (hf : ∀ d, (f d).amount = d.amount + x) :
    amounts (final.modify id f) = (amounts final).addTo id x := by
  rw [Ledger.addTo, Ledger.insert, dif_pos (keys_amounts final ▸ hid), amounts, Ledger.modify,
    Ledger.map_map, Ledger.modify, amounts, Ledger.map_map]
  refine Ledger.map_congr fun key d hd => ?_
  split
  next hkey =>
    have hold : (amounts final).getD key 0 = d.amount :=
      Ledger.getD_eq (by rw [amounts, Ledger.get?_map, Ledger.get?_eq_some_iff.mpr hd]; rfl)
    rw [hf, ← hkey]
    exact congrArg (· + x) hold.symm
  next => rfl

/-- A record that is new. -/
theorem amounts_insert {final : Ledger (Detail Rat)} {d : Detail Rat} (hid : id ∉ final.keys) :
    amounts (final.insert id d) = (amounts final).addTo id d.amount := by
  have hnew : id ∉ (amounts final).keys := keys_amounts final ▸ hid
  refine Ledger.ext_entries ?_
  rw [Ledger.addTo, Ledger.getD_eq_zero hnew, zero_add, Ledger.entries_insert_new hnew,
    entries_amounts, Ledger.entries_insert_new hid, List.map_append]
  rfl

/-- An item entered into the records is a grant to its id. -/
theorem gains_enter (purpose : Purpose) (final : Ledger (Detail Rat)) {item : BucketItem Rat}
    (h : 0 ≤ item.allocated) :
    (amounts final).Gains (amounts (enter purpose final item)) [item.grant] := by
  have hgrant : (amounts final).Gains ((amounts final).addTo item.id item.allocated) [item.grant] :=
    Ledger.gains_addTo _ _ _
  unfold enter
  split
  next hrecord =>
    rw [amounts_modify (x := item.allocated) (List.contains_iff_mem.mp hrecord) fun _ => rfl]
    exact hgrant
  next hnone =>
    split
    next =>
      rw [amounts_insert fun hmem => hnone (List.contains_iff_mem.mpr hmem)]
      exact hgrant
    next hpositive =>
      have hzero : item.allocated = 0 := le_antisymm (not_lt.mp hpositive) h
      rw [BucketItem.grant, hzero]
      exact Ledger.gains_zero _ _

/-- What all buckets gave entered into the records. -/
theorem gains_enterBuckets {bs : List (Bucket Rat)}
    (h : ∀ bucket ∈ bs, ∀ item ∈ bucket.items, 0 ≤ item.allocated)
    (final : Ledger (Detail Rat)) :
    (amounts final).Gains (amounts (bs.foldl enterBucket final))
      ((bs.flatMap (·.items)).map BucketItem.grant) := by
  rw [List.map_flatMap]
  refine Ledger.Gains.foldl amounts (fun bucket hbucket final => ?_) final
  have hentered (item : BucketItem Rat) (hitem : item ∈ bucket.items)
      (final : Ledger (Detail Rat)) :
      (amounts final).Gains (amounts (enter bucket.purpose final item)) [item.grant] :=
    gains_enter bucket.purpose final (h bucket hbucket item hitem)
  have hitems := Ledger.Gains.foldl amounts hentered final
  rwa [← List.map_eq_flatMap] at hitems

/-! ## The first phase -/

theorem keys_mandatoryMinimums_perm : (mandatoryMinimums b).keys.Perm b.mandatory.keys := by
  rw [mandatoryMinimums, Ledger.keys_map]
  exact Ledger.keys_sorted_perm

theorem keys_debtMinimums_perm : (debtMinimums b).keys.Perm b.debts.keys := by
  rw [debtMinimums, Ledger.keys_map]
  exact Ledger.keys_sorted_perm

theorem keys_flexibleMinimums_subset (h : id ∈ (flexibleMinimums b).keys) :
    id ∈ b.flexible.keys := by
  have hsorted : id ∈ (b.flexible.sorted.map fun _ c => c.minimum).keys :=
    (List.filter_sublist.map Prod.fst).mem h
  rw [Ledger.keys_map] at hsorted
  exact Ledger.keys_sorted_perm.mem_iff.mp hsorted

theorem nodup_firstKeys : ((mandatoryMinimums b).keys ++ (debtMinimums b).keys ++
    (flexibleMinimums b).keys).Nodup := by
  refine List.nodup_append.mpr ⟨List.nodup_append.mpr ⟨(mandatoryMinimums b).distinct,
    (debtMinimums b).distinct, ?_⟩, (flexibleMinimums b).distinct, ?_⟩
  · rintro id hmandatory _ hdebt rfl
    exact b.debts_not_mem id (.inl (keys_mandatoryMinimums_perm.mem_iff.mp hmandatory))
      (keys_debtMinimums_perm.mem_iff.mp hdebt)
  · rintro id hpaid _ hflexible rfl
    have hid := keys_flexibleMinimums_subset hflexible
    rcases List.mem_append.mp hpaid with hmandatory | hdebt
    · exact b.flexible_not_mem_mandatory id (keys_mandatoryMinimums_perm.mem_iff.mp hmandatory) hid
    · exact b.debts_not_mem id (.inr hid) (keys_debtMinimums_perm.mem_iff.mp hdebt)

/-- The records of the first phase, one after the other. -/
theorem entries_firstDetails : (amounts (firstDetails b)).entries =
    (mandatoryMinimums b).entries ++ (debtMinimums b).entries ++ (flexibleMinimums b).entries := by
  have hkeys : ((rewardedDetails b ++ (flexibleMinimums b).entries.map fun e =>
      (e.1, (⟨e.1, e.1, .category, 1, none, e.2, "minimum", 0⟩ : Detail Rat))).map Prod.fst) =
        (mandatoryMinimums b).keys ++ (debtMinimums b).keys ++ (flexibleMinimums b).keys := by
    simp only [rewardedDetails, List.map_append, List.map_map, Ledger.keys, debtMinimums,
      Ledger.map]
    rfl
  rw [entries_amounts, firstDetails, Ledger.entries_ofList (hkeys ▸ nodup_firstKeys)]
  simp only [rewardedDetails, List.map_append, List.map_map, debtMinimums, Ledger.map]
  refine congrArg₂ (· ++ ·) (congrArg₂ (· ++ ·) ?_ rfl) ?_
  · exact List.map_id _
  · exact List.map_id _

/-- What an id gets in the first phase. -/
theorem getD_firstDetails (b : Budget Rat) (id : String) : (amounts (firstDetails b)).getD id 0 =
    (mandatoryMinimums b).getD id 0 + (debtMinimums b).getD id 0 +
      (flexibleMinimums b).getD id 0 := by
  rw [← Ledger.grantedTo_entries, entries_firstDetails, grantedTo_append, grantedTo_append,
    Ledger.grantedTo_entries, Ledger.grantedTo_entries, Ledger.grantedTo_entries]

theorem sum_firstDetails (b : Budget Rat) :
    (amounts (firstDetails b)).values.sum = phase1Total b := by
  rw [Ledger.values, entries_firstDetails, List.map_append, List.map_append, List.sum_append,
    List.sum_append, phase1Total, total_eq_sum, total_eq_sum, total_eq_sum]
  rfl

/-! ## The items -/

/-- Whether an id is one of those whose items of a kind compete for the surplus. -/
def IsContender (b : Budget Rat) (kind : ItemKind) (id : String) : Prop :=
  match kind with
  | .category => id ∈ b.flexible.keys
  | .debt => id ∈ b.debts.keys
  | .goal => id ∈ b.goals.keys

/-- The items of a bucket are fresh, and compete for the surplus by their ids. -/
theorem contender_of_mem_buckets {surplus : Rat} {bs : List (Bucket Rat)}
    (h : buckets b s surplus = .ok bs) {bucket : Bucket Rat} (hbucket : bucket ∈ bs)
    {item : BucketItem Rat} (hitem : item ∈ bucket.items) :
    item.IsFresh ∧ IsContender b item.kind item.id := by
  rcases item_of_mem_buckets h hbucket hitem with
    ⟨key, g, hg, hmade⟩ | ⟨key, d, hd, hmade⟩ | ⟨key, c, hc, hmade⟩
  · obtain ⟨hfresh, hkind, hid⟩ := isFresh_goalItem hmade
    rw [hkind, hid]
    exact ⟨hfresh, Ledger.mem_keys_of_get? hg⟩
  · obtain ⟨hfresh, hkind, hid, _⟩ := isFresh_debtItem hmade
    rw [hkind, hid]
    exact ⟨hfresh, Ledger.mem_keys_of_get? hd⟩
  · obtain ⟨hfresh, hkind, hid⟩ := isFresh_flexibleItem hmade
    rw [hkind, hid]
    exact ⟨hfresh, Ledger.mem_keys_of_get? hc⟩

/-- What is known of the buckets before they are spent: a share of the surplus each, with fresh
items that stand for goals, debts or flexible categories. -/
theorem buckets_facts {surplus : Rat} (hsurplus : 0 ≤ surplus) {bs : List (Bucket Rat)}
    (h : buckets b s surplus = .ok bs) :
    (bs.map (·.budget)).sum = surplus * (s.shares.emergencyFund + s.shares.debtExtra +
      s.shares.goals + s.shares.flexible) ∧
    ∀ bucket ∈ bs, 0 ≤ bucket.budget ∧
      ∀ item ∈ bucket.items, item.IsFresh ∧ IsContender b item.kind item.id := by
  have hitems (bucket : Bucket Rat) (hbucket : bucket ∈ bs) :
      ∀ item ∈ bucket.items, item.IsFresh ∧ IsContender b item.kind item.id :=
    fun _ hitem => contender_of_mem_buckets h hbucket hitem
  obtain ⟨emergency, _, h⟩ := bind_eq_ok.mp h
  obtain ⟨goals, _, h⟩ := bind_eq_ok.mp h
  cases h
  constructor
  · simp only [bucket, List.map_cons, List.map_nil, List.sum_cons, List.sum_nil]
    ring
  · intro bucket hbucket
    refine ⟨?_, hitems bucket hbucket⟩
    simp only [List.mem_cons, List.not_mem_nil, or_false] at hbucket
    have hshare {share : Rat} (h : ¬share < 0) : 0 ≤ surplus * share :=
      mul_nonneg hsurplus (not_lt.mp h)
    rcases hbucket with rfl | rfl | rfl | rfl
    · exact hshare s.shares.emergencyFund_nonneg
    · exact hshare s.shares.debtExtra_nonneg
    · exact hshare s.shares.goals_nonneg
    · exact hshare s.shares.flexible_nonneg

/-! ## The result -/

section
variable (h : solve b s = .ok r)
include h

/-- What the spent buckets come to. -/
theorem spent_facts : ∀ bucket ∈ r.buckets, bucket.Balanced ∧
    ∀ item ∈ bucket.items, 0 ≤ item.allocated ∧ IsContender b item.kind item.id := by
  obtain ⟨_, _, _, _, _, bs, hbs, hspent⟩ := solve_spec h
  intro bucket hbucket
  rw [hspent] at hbucket
  obtain ⟨before, hbefore, rfl⟩ := List.mem_map.mp hbucket
  obtain ⟨hbudget, hitems⟩ := (buckets_facts (le_max_left _ _) hbs).2 before hbefore
  have hfresh := fun item hitem => (hitems item hitem).1
  refine ⟨Bucket.balanced_spend hfresh hbudget, fun item hitem => ?_⟩
  obtain ⟨hnonneg, fresh, hmem, hsame⟩ := Bucket.exists_of_mem_spend hfresh hbudget hitem
  have hcontender := (hitems fresh hmem).2
  rw [show fresh.kind = item.kind from congrArg Offered.kind hsame,
    show fresh.id = item.id from congrArg Offered.id hsame] at hcontender
  exact ⟨hnonneg, hcontender⟩

/-- Every item of a spent bucket stands for something of the budget. -/
theorem contender_of_mem_spent {item : BucketItem Rat}
    (hitem : item ∈ r.buckets.flatMap (·.items)) : IsContender b item.kind item.id := by
  obtain ⟨bucket, hbucket, hitem⟩ := List.mem_flatMap.mp hitem
  exact ((spent_facts h bucket hbucket).2 item hitem).2

/-- The final records are those of the first phase with what the items got. -/
theorem gains_final : (amounts (firstDetails b)).Gains (amounts r.final)
    ((r.buckets.flatMap (·.items)).map BucketItem.grant) := by
  obtain ⟨_, _, _, hfinal, _⟩ := solve_spec h
  rw [hfinal]
  exact gains_enterBuckets
    (fun bucket hbucket item hitem => ((spent_facts h bucket hbucket).2 item hitem).1) _

theorem totalAllocated_eq :
    r.totalAllocated = r.phase1Total + (r.buckets.map (·.allocated)).sum := by
  obtain ⟨_, _, hphase1, _, htotal, _⟩ := solve_spec h
  have hgiven : (((r.buckets.flatMap (·.items)).map BucketItem.grant).map Prod.snd).sum =
      (r.buckets.map (·.allocated)).sum := by
    rw [List.map_map, List.map_flatMap, List.flatMap, List.sum_flatten, List.map_map]
    refine congrArg List.sum (List.map_congr_left fun bucket hbucket => ?_)
    exact (spent_facts h bucket hbucket).1.allocated_eq.symm
  have hamounts : (amounts r.final).values = r.final.values.map (·.amount) :=
    Ledger.values_map_values _ _
  rw [htotal, ← hamounts, (gains_final h).sum_eq, sum_firstDetails, hphase1, hgiven]

/-- Shares that make at most the whole give out no more than the surplus. -/
theorem totalAllocated_le (hshares : s.shares.emergencyFund + s.shares.debtExtra +
    s.shares.goals + s.shares.flexible ≤ 1) : r.totalAllocated ≤ max b.income r.phase1Total := by
  obtain ⟨_, _, hphase1, _, _, bs, hbs, hspent⟩ := solve_spec h
  have hsurplus : 0 ≤ max 0 (b.income - phase1Total b) := le_max_left _ _
  have hbudgets : (r.buckets.map (·.budget)).sum = (bs.map (·.budget)).sum := by
    rw [hspent, List.map_map]
    rfl
  have hgiven : (r.buckets.map (·.allocated)).sum ≤ (r.buckets.map (·.budget)).sum :=
    List.sum_le_sum fun bucket hbucket => (spent_facts h bucket hbucket).1.allocated_le
  rw [hbudgets, (buckets_facts hsurplus hbs).1] at hgiven
  have hwhole := mul_le_of_le_one_right hsurplus hshares
  have hmoney : r.phase1Total + max 0 (b.income - phase1Total b) = max b.income r.phase1Total := by
    rw [hphase1, ← max_add_add_left, add_zero, add_sub_cancel, max_comm]
  rw [totalAllocated_eq h, ← hmoney]
  linarith

/-- What is proposed for an id that is no debt and no mandatory expense is its final amount. -/
theorem getD_values (hmandatory : id ∉ b.mandatory.keys) (hdebt : id ∉ b.debts.keys) :
    r.proposal.values.getD id 0 = (amounts r.final).getD id 0 := by
  have hpaid : (amounts (firstDetails b)).getD id 0 = (flexibleMinimums b).getD id 0 := by
    rw [getD_firstDetails,
      Ledger.getD_eq_zero (mt keys_mandatoryMinimums_perm.mem_iff.mp hmandatory),
      Ledger.getD_eq_zero (mt keys_debtMinimums_perm.mem_iff.mp hdebt), zero_add, zero_add]
  -- debts are proposed apart, and none of them has the id
  have hothers : grantedTo id (((r.buckets.flatMap (·.items)).filter (!·.kind == .debt)).map
      BucketItem.grant) = grantedTo id ((r.buckets.flatMap (·.items)).map BucketItem.grant) := by
    refine grantedTo_filter fun item hitem hkind heq => hdebt ?_
    have hcontender := contender_of_mem_spent h hitem
    rw [show item.kind = .debt by simpa using hkind] at hcontender
    exact heq ▸ hcontender
  unfold HybridResult.proposal
  dsimp only
  rw [List.partition_eq_filter_filter, (solve_spec h).2.1]
  have hitems := Ledger.gains_foldl_addTo BucketItem.grant
    ((r.buckets.flatMap (·.items)).filter (!·.kind == .debt)) ∅
  have hminimums := hitems.trans
    (Ledger.gains_foldl_addTo (fun e => e) (flexibleMinimums b).entries _)
  rw [List.map_id'] at hminimums
  refine (hminimums.getD_eq id).trans ?_
  rw [grantedTo_append, hothers, Ledger.grantedTo_entries, (gains_final h).getD_eq, hpaid,
    Ledger.getD_empty, zero_add, add_comm]

/-- What is paid to a debt, what is due and what is proposed on top, is its final amount. -/
theorem getD_debtExtra {d : Debt Rat} (hd : b.debts.get? id = some d) :
    d.scheduledPayment + r.proposal.debtExtra.getD id 0 = (amounts r.final).getD id 0 := by
  have hdebt : id ∈ b.debts.keys := Ledger.mem_keys_of_get? hd
  have hpaid : (amounts (firstDetails b)).getD id 0 = d.scheduledPayment := by
    have hdue : (debtMinimums b).get? id = some d.scheduledPayment := by
      rw [debtMinimums, Ledger.get?_map, Ledger.get?_sorted, hd]
      rfl
    have hmandatory : id ∉ (mandatoryMinimums b).keys := fun hmem =>
      b.debts_not_mem id (.inl (keys_mandatoryMinimums_perm.mem_iff.mp hmem)) hdebt
    have hflexible : id ∉ (flexibleMinimums b).keys := fun hmem =>
      b.debts_not_mem id (.inr (keys_flexibleMinimums_subset hmem)) hdebt
    rw [getD_firstDetails, Ledger.getD_eq hdue, Ledger.getD_eq_zero hmandatory,
      Ledger.getD_eq_zero hflexible, zero_add, add_zero]
  obtain ⟨before, after, hitems, hothers⟩ := spent_items h
  have hnone (items : List (BucketItem Rat)) (hsubset : ∀ item ∈ items, item ∈ before ++ after) :
      grantedTo id (items.map BucketItem.grant) = 0 := by
    refine grantedTo_eq_zero fun grant hgrant heq => ?_
    obtain ⟨item, hitem, rfl⟩ := List.mem_map.mp hgrant
    have hmem : item ∈ r.buckets.flatMap (·.items) := by
      rw [hitems, List.append_assoc, List.mem_append, List.mem_append]
      rcases List.mem_append.mp (hsubset item hitem) with hmem | hmem
      · exact .inl hmem
      · exact .inr (.inr hmem)
    have hcontender := contender_of_mem_spent h hmem
    have hkind := (hothers item (hsubset item hitem)).1
    have hid : item.id = id := heq
    rw [hid] at hcontender
    -- no goal and no flexible category has the id of a debt
    cases hcase : item.kind with
    | category =>
      rw [hcase] at hcontender
      exact b.debts_not_mem id (.inr hcontender) hdebt
    | debt => exact hkind hcase
    | goal =>
      rw [hcase] at hcontender
      exact b.goals_not_mem id (.inr hdebt) hcontender
  rw [(gains_final h).getD_eq, hpaid, hitems, List.map_append, List.map_append, grantedTo_append,
    grantedTo_append, hnone before fun item hitem => List.mem_append_left _ hitem,
    hnone after fun item hitem => List.mem_append_right _ hitem, zero_add, add_zero,
    ← Ledger.grantedTo_entries, entries_debtExtra h]
  rfl

end

/-- In every bucket the money is given to its items or left. What all buckets give and what the
first phase pays is what is allocated, and that is what the final records add up to, one for each
id; with shares that make at most the whole it is no more than the income, or than the first phase
if that is more. The same amounts are proposed: for goals and flexible categories as they are in
the final records, and for debts what is left of them beside the payment due. -/
theorem solve_conserves (h : solve b s = .ok r) :
    (∀ bucket ∈ r.buckets, bucket.Balanced) ∧
    r.totalAllocated = r.phase1Total + (r.buckets.map (·.allocated)).sum ∧
    r.totalAllocated = (r.final.values.map (·.amount)).sum ∧ r.final.keys.Nodup ∧
    (s.shares.emergencyFund + s.shares.debtExtra + s.shares.goals + s.shares.flexible ≤ 1 →
      r.totalAllocated ≤ max b.income r.phase1Total) ∧
    (∀ a : Allocator Rat, a.strategy = .hybrid → a.propose b s = .ok r.proposal) ∧
    (∀ id, id ∈ b.goals.keys ∨ id ∈ b.flexible.keys →
      r.proposal.values.getD id 0 = (r.final.get? id).elim 0 (·.amount)) ∧
    ∀ id d, b.debts.get? id = some d →
      d.scheduledPayment + r.proposal.debtExtra.getD id 0 =
        (r.final.get? id).elim 0 (·.amount) := by
  have hamount (id : String) :
      (amounts r.final).getD id 0 = (r.final.get? id).elim 0 (·.amount) := by
    rw [Ledger.getD, amounts, Ledger.get?_map]
    cases r.final.get? id <;> rfl
  obtain ⟨_, _, _, _, htotal, _⟩ := solve_spec h
  refine ⟨fun bucket hbucket => (spent_facts h bucket hbucket).1, totalAllocated_eq h, htotal,
    r.final.distinct, totalAllocated_le h, ?_, ?_, ?_⟩
  · intro a ha
    rw [Allocator.propose, ha]
    exact bind_eq_ok.mpr ⟨r, h, rfl⟩
  · intro id hid
    rw [← hamount]
    -- Goals and flexible categories share no id with fixed costs, nor with one another.
    rcases hid with hgoal | hflexible
    · exact getD_values h (fun hmem => b.goals_not_mem id (.inl hmem) hgoal)
        fun hmem => b.goals_not_mem id (.inr hmem) hgoal
    · exact getD_values h (fun hmem => b.flexible_not_mem_mandatory id hmem hflexible)
        (b.debts_not_mem id (.inr hflexible))
  · intro id d hd
    rw [← hamount]
    exact getD_debtExtra h hd

/-- Of the surplus of a household the card gets sixty on top of what is due, the trip thirty, and
the food nothing, as it has its minimum. -/
theorem solve_conserves_household : ∃ r, solve Allocator.household Allocator.halfway = .ok r ∧
    (∀ bucket ∈ r.buckets, bucket.Balanced) ∧ r.totalAllocated ≤ max 700 r.phase1Total ∧
    r.totalAllocated = 460 ∧
    r.proposal.values.getD "trip" 0 = (r.final.get? "trip").elim 0 (·.amount) ∧
    r.proposal.values.getD "food" 0 = (r.final.get? "food").elim 0 (·.amount) ∧
    20 + r.proposal.debtExtra.getD "card" 0 = (r.final.get? "card").elim 0 (·.amount) := by
  have hrun : ((solve Allocator.household Allocator.halfway).toOption.map (·.totalAllocated)) =
      some 460 := by decide +kernel
  obtain ⟨r, hr, htotal⟩ := exists_of_toOption_map hrun
  obtain ⟨hbuckets, _, _, _, hle, _, hvalues, hdebts⟩ := solve_conserves hr
  exact ⟨r, hr, hbuckets, hle (by norm_num [Allocator.halfway]), htotal, hvalues "trip" (by decide),
    hvalues "food" (by decide), hdebts "card" _ rfl⟩

end Hybrid

end GoalBudget
