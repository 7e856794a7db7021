import GoalBudget.Bucket.Basic
import GoalBudget.Proofs.Number.Exact

/-!
# Spending a bucket

Funding an item and buying an upgrade both move money from what is left to one item, and leave the
item at one of its levels or below. `Spending` says so of the items and the money left: the items
offer what they offered before, the money is given out or left, and no item has more than one of its
levels asks for. It holds after all items were funded (`spending_fundAll`) and is kept by every
upgrade (`Spending.upgrade`).

What an item offers is all of it but for what spending changes: its id, its kind and its levels
(`BucketItem.Offered`). Facts about items before spending are carried over to the spent items
through that (`exists_of_mem_spend`), so no later module looks at how a bucket is spent to know what
its items are.

Main result: `spending_spend`.
-/

namespace GoalBudget

/-- What an item brings to a bucket and keeps: its id, its kind and its levels. -/
structure Offered (α : Type) where
  /-- The id of the item. -/
  id : String
  /-- What the item is. -/
  kind : ItemKind
  /-- The levels. -/
  levels : List (Level α)

namespace BucketItem

/-- What the item brings to a bucket. -/
def offered (item : BucketItem Rat) : Offered Rat := ⟨item.id, item.kind, item.levels⟩

/-- An item that has nothing yet and asks for something. -/
structure IsFresh (item : BucketItem Rat) : Prop where
  /-- It has nothing. -/
  allocated_eq : item.allocated = 0
  /-- It has levels. -/
  levels_ne : item.levels ≠ []
  /-- No level asks for a negative amount. -/
  levels_nonneg : ∀ l ∈ item.levels, 0 ≤ l.value

/-- An item with a part of what it asks for. -/
structure IsFunded (item : BucketItem Rat) : Prop where
  /-- It has nothing negative. -/
  nonneg : 0 ≤ item.allocated
  /-- It has no more than one of its levels asks for. -/
  le_level : ∃ l ∈ item.levels, item.allocated ≤ l.value
  /-- No level asks for a negative amount. -/
  levels_nonneg : ∀ l ∈ item.levels, 0 ≤ l.value

variable {item : BucketItem Rat} {money : Rat}

/-- An item that has nothing is funded up to nothing. -/
theorem IsFresh.isFunded (h : item.IsFresh) : item.IsFunded := by
  obtain ⟨l, hl⟩ := List.exists_mem_of_ne_nil _ h.levels_ne
  exact ⟨h.allocated_eq.ge, ⟨l, hl, h.allocated_eq ▸ h.levels_nonneg l hl⟩, h.levels_nonneg⟩

/-- An item raised to one of its levels is funded up to that. -/
theorem isFunded_raiseTo {index : Nat} {l : Level Rat} (hl : l ∈ item.levels)
    (hlevels : ∀ l ∈ item.levels, 0 ≤ l.value) : (item.raiseTo index l).IsFunded :=
  ⟨hlevels l hl, ⟨l, hl, le_refl _⟩, hlevels⟩

/-- A level that is affordable is one of the item, and the money pays for it. -/
theorem affordable?_eq_some {l : Level Rat} {i : Nat} (h : item.affordable? money = some (l, i)) :
    l ∈ item.levels ∧ l.value ≤ money := by
  unfold affordable? at h
  have hmem := List.mem_of_find?_eq_some h
  have hle := List.find?_some h
  exact ⟨List.fst_mem_of_mem_zipIdx (List.mem_reverse.mp hmem), of_decide_eq_true hle⟩

/-- If no level is affordable, each of them costs more than there is. -/
theorem affordable?_eq_none (h : item.affordable? money = none) (l : Level Rat)
    (hl : l ∈ item.levels) : money < l.value := by
  unfold affordable? at h
  rw [List.find?_eq_none] at h
  obtain ⟨i, hi⟩ := List.mem_iff_getElem?.mp hl
  have hnot := h (l, i) (List.mem_reverse.mpr (List.mem_zipIdx_iff_getElem?.mpr hi))
  exact not_le.mp fun hle => hnot (decide_eq_true hle)

/-- What funding one item does. A part of the lowest level is given only when no level is
affordable, so it is less than any level asks for. -/
theorem fund_spec (h : item.IsFresh) (hmoney : 0 ≤ money) :
    (item.fund money).1.offered = item.offered ∧ (item.fund money).1.IsFunded ∧
      (item.fund money).1.allocated + (item.fund money).2 = money ∧ 0 ≤ (item.fund money).2 := by
  unfold fund
  cases hafford : item.affordable? money with
  | some pair =>
    obtain ⟨l, i⟩ := pair
    obtain ⟨hl, hle⟩ := affordable?_eq_some hafford
    exact ⟨rfl, isFunded_raiseTo hl h.levels_nonneg, add_sub_cancel _ _, sub_nonneg.mpr hle⟩
  | none =>
    dsimp only
    split
    next =>
      obtain ⟨l, hl⟩ := List.exists_mem_of_ne_nil _ h.levels_ne
      have hlt := affordable?_eq_none hafford l hl
      exact ⟨rfl, ⟨hmoney, ⟨l, hl, hlt.le⟩, h.levels_nonneg⟩, add_zero _, le_refl 0⟩
    next =>
      refine ⟨rfl, h.isFunded, ?_, hmoney⟩
      rw [h.allocated_eq, zero_add]

end BucketItem

namespace Bucket

/-- What a bucket that is being spent keeps, of its items and the money left. -/
structure Spending (offers : List (Offered Rat)) (budget : Rat)
    (state : List (BucketItem Rat) × Rat) : Prop where
  /-- The items offer what they offered. -/
  offers_eq : state.1.map BucketItem.offered = offers
  /-- No item has more than it asks for. -/
  funded : ∀ item ∈ state.1, item.IsFunded
  /-- The money is given out or left. -/
  balance : (state.1.map (·.allocated)).sum + state.2 = budget
  /-- What is left is not negative. -/
  left_nonneg : 0 ≤ state.2

variable {items : List (BucketItem Rat)} {money budget : Rat} {offers : List (Offered Rat)}

/-- By induction on the items: the first one is funded from the money there is, the others from
what it leaves. -/
theorem spending_fundAll (h : ∀ item ∈ items, item.IsFresh) (hmoney : 0 ≤ money) :
    Spending (items.map BucketItem.offered) money (fundAll money items) := by
  induction items generalizing money with
  | nil => exact ⟨rfl, (fun _ hitem => by cases hitem), zero_add _, hmoney⟩
  | cons item rest ih =>
    obtain ⟨hoffer, hfunded, hbalance, hleft⟩ :=
      BucketItem.fund_spec (h item (List.mem_cons_self ..)) hmoney
    have hrest := ih (fun item' hmem => h item' (List.mem_cons_of_mem _ hmem)) hleft
    unfold fundAll
    refine ⟨?_, ?_, ?_, hrest.left_nonneg⟩
    · exact congrArg₂ List.cons hoffer hrest.offers_eq
    · intro item' hmem
      rcases List.mem_cons.mp hmem with rfl | hmem
      · exact hfunded
      · exact hrest.funded item' hmem
    · have := hrest.balance
      rw [List.map_cons, List.sum_cons]
      linarith

/-- What an upgrade that is considered keeps to: the next level of an item, at its price, and no
more than the money there is. -/
def Upgrade.Fits (items : List (BucketItem Rat)) (money : Rat) (u : Upgrade Rat) : Prop :=
  ∃ item, items[u.place]? = some item ∧ u.level ∈ item.levels ∧
    u.cost = u.level.value - item.allocated ∧ 0 < u.cost ∧ u.cost ≤ money

/-- The better of two upgrades is one that can be bought. -/
theorem fits_consider {best : Option (Upgrade Rat)} {entry : BucketItem Rat × Nat}
    (hbest : ∀ u ∈ best, u.Fits items money) (hentry : items[entry.2]? = some entry.1) :
    ∀ u ∈ consider money best entry, u.Fits items money := by
  unfold consider
  dsimp only
  split
  next => exact hbest
  next l hl =>
    split
    next hcond =>
      simp only [Bool.and_eq_true, decide_eq_true_eq] at hcond
      rintro u ⟨⟩
      exact ⟨entry.1, hentry, List.mem_of_getElem? hl, rfl, hcond.1.1.1, hcond.1.1.2⟩
    next => exact hbest

/-- One upgrade bought. -/
theorem Spending.raise {u : Upgrade Rat} (h : Spending offers budget (items, money))
    (hu : u.Fits items money) :
    Spending offers budget
      (items.modify u.place fun item => item.raiseTo u.index u.level, money - u.cost) := by
  obtain ⟨item, hitem, hlevel, hcost, hpos, hle⟩ := hu
  obtain ⟨hplace, hget⟩ := List.getElem?_eq_some_iff.mp hitem
  have hmem : item ∈ items := List.mem_of_getElem? hitem
  refine ⟨?_, ?_, ?_, sub_nonneg.mpr hle⟩
  -- what is on offer stays the same when something is funded
  · rw [← h.offers_eq]
    apply List.ext_getElem?
    intro j
    rw [List.getElem?_map, List.getElem?_map, List.getElem?_modify]
    cases items[j]? with
    | none => rfl
    | some other =>
      show some (if u.place = j then _ else _ : BucketItem Rat).offered = some other.offered
      split <;> rfl
  · intro item' hitem'
    obtain ⟨j, hj⟩ := List.mem_iff_getElem?.mp hitem'
    rw [List.getElem?_modify] at hj
    obtain ⟨other, hother, rfl⟩ := Option.map_eq_some_iff.mp hj
    have hfunded := h.funded other (List.mem_of_getElem? hother)
    split
    -- only the item at the place is raised
    next heq =>
      rw [← heq, hitem, Option.some.injEq] at hother
      subst hother
      exact BucketItem.isFunded_raiseTo hlevel hfunded.levels_nonneg
    next => exact hfunded
  · have hbalance : (items.map (·.allocated)).sum + money = budget := h.balance
    show ((items.modify u.place fun item => item.raiseTo u.index u.level).map
      (·.allocated)).sum + (money - u.cost) = budget
    rw [sum_map_modify (·.allocated) _ hitem, hcost]
    show (items.map (·.allocated)).sum + (u.level.value - item.allocated) + _ = budget
    linarith

/-- Any number of upgrades keeps the books. -/
theorem Spending.upgrade {state : List (BucketItem Rat) × Rat} (rounds : Nat)
    (h : Spending offers budget state) : Spending offers budget (Bucket.upgrade rounds state) := by
  induction rounds generalizing state with
  | zero => exact h
  | succ rounds ih =>
    obtain ⟨items, money⟩ := state
    have hfits : ∀ u ∈ items.zipIdx.foldl (consider money) none, Upgrade.Fits items money u :=
      List.foldlRecOn items.zipIdx _ (motive := fun best => ∀ u ∈ best, Upgrade.Fits items money u)
        (fun u hu => by cases hu) fun _ hbest _ hentry =>
          fits_consider hbest (List.mem_zipIdx_iff_getElem?.mp hentry)
    unfold Bucket.upgrade
    split
    next => exact h
    next u hu => exact ih (h.raise (hfits u hu))

/-- Spending a bucket gives out its budget or leaves it, and gives no item more than it asks
for. -/
theorem spending_spend {b : Bucket Rat} (h : ∀ item ∈ b.items, item.IsFresh)
    (hbudget : 0 ≤ b.budget) :
    Spending ((b.items.mergeSort comesFirst).map BucketItem.offered) b.budget
      (b.spend.items, b.spend.remaining) :=
  (spending_fundAll
    (fun item hmem => h item ((List.mergeSort_perm _ _).mem_iff.mp hmem)) hbudget).upgrade 500

/-- Spending a bucket gives nobody anything negative, and to nobody but its items. -/
theorem exists_of_mem_spend {b : Bucket Rat} (h : ∀ item ∈ b.items, item.IsFresh)
    (hbudget : 0 ≤ b.budget) {item : BucketItem Rat} (hitem : item ∈ b.spend.items) :
    0 ≤ item.allocated ∧ ∃ fresh ∈ b.items, fresh.offered = item.offered := by
  have hspending := spending_spend h hbudget
  have hoffered : item.offered ∈ (b.items.mergeSort comesFirst).map BucketItem.offered := by
    rw [← hspending.offers_eq]
    exact List.mem_map_of_mem hitem
  obtain ⟨fresh, hfresh, heq⟩ := List.mem_map.mp hoffered
  exact ⟨(hspending.funded item hitem).nonneg, fresh,
    (List.mergeSort_perm _ _).mem_iff.mp hfresh, heq⟩

end Bucket

end GoalBudget
