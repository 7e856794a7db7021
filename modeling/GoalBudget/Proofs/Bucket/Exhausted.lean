import GoalBudget.Proofs.Allocation.Conservation
import GoalBudget.Proofs.Bucket.Hybrid
import Mathlib.Algebra.Module.Submodule.Lattice
import Mathlib.Data.List.Permutation

/-!
# A spent bucket has nothing more to buy

An item takes the highest level that the money there is pays for. So a level above that one costs
more than this money, and on top of the level taken it costs more than what is left then
(`BucketItem.beyond_fund`). The items behind it only take from what is left, so this stays true to
the end (`stands_fundAll`), and there is no upgrade to buy (`upgrade_of_beyond`). An item that gets
a part takes all there is, so nothing is left for a second one (`partly_fundAll`).

The upgrades that are tried after the items were funded thus never change anything: their loop is
the identity on every bucket that the strategy makes, whatever its share. Only the items that the
strategy makes are meant, which start with nothing and have a lowest level
(`BucketItem.IsUntouched`); an item that started with something could still buy its first level.

Main result: `buckets_exhausted`.
-/

namespace GoalBudget

namespace BucketItem

/-- An item that has nothing yet and has attained nothing. -/
structure IsUntouched (item : BucketItem Rat) : Prop extends item.IsFresh where
  attained_eq : item.attained = .unfunded

/-- Whether an item has what belongs to what it attained: nothing, less than any level asks for,
or what the level asks for. -/
def Stands (item : BucketItem Rat) : Prop :=
  match item.attained with
  | .unfunded => item.allocated = 0
  | .partly => 0 < item.allocated ∧ ∀ l ∈ item.levels, item.allocated < l.value
  | .level i => ∃ l, item.levels[i]? = some l ∧ item.allocated = l.value

/-- Whether every level above the one attained costs more than there is. What the item has is set
off against the cost. -/
def Beyond (item : BucketItem Rat) (money : Rat) : Prop :=
  ∀ i l, item.nextIndex ≤ i → item.levels[i]? = some l → money < l.value - item.allocated

variable {item : BucketItem Rat} {money : Rat}

theorem Beyond.mono (h : item.Beyond money) {less : Rat} (hle : less ≤ money) :
    item.Beyond less :=
  fun i l hi hl => hle.trans_lt (h i l hi hl)

/-- The level that an item takes is the highest one affordable. -/
theorem lt_value_of_affordable? {l : Level Rat} {i : Nat}
    (h : item.affordable? money = some (l, i)) :
    item.levels[i]? = some l ∧ ∀ j l', i < j → item.levels[j]? = some l' → money < l'.value := by
  unfold affordable? at h
  have hmem := List.mem_reverse.mp (List.mem_of_find?_eq_some h)
  refine ⟨List.mem_zipIdx_iff_getElem?.mp hmem, ?_⟩
  intro j l' hij hl'
  obtain ⟨_, before, after, hsplit, hbefore⟩ := List.find?_eq_some_iff_append.mp h
  -- the levels are searched from the highest one down, so their positions fall
  have hfalling : item.levels.zipIdx.reverse.Pairwise fun a b => b.2 < a.2 := by
    rw [List.pairwise_reverse, ← List.pairwise_map (f := Prod.snd), List.zipIdx_map_snd]
    exact List.pairwise_lt_range'
  have hmem' : (l', j) ∈ before ++ (l, i) :: after := by
    rw [← hsplit, List.mem_reverse]
    exact List.mem_zipIdx_iff_getElem?.mpr hl'
  rw [hsplit] at hfalling
  have hafter := (List.pairwise_cons.mp (List.pairwise_append.mp hfalling).2.1).1
  rcases List.mem_append.mp hmem' with hfront | hback
  · have hnot := hbefore _ hfront
    simpa using hnot
  · rcases List.mem_cons.mp hback with heq | hlower
    · have : j = i := congrArg Prod.snd heq
      omega
    · have := hafter _ hlower
      dsimp only at this
      omega

/-- What funding one item leaves. The cost of a level above the one taken is compared with the
money before and after: both are less by what was taken. -/
theorem beyond_fund (money : Rat) (h : item.IsUntouched) :
    (item.fund money).1.Stands ∧ (item.fund money).1.Beyond (item.fund money).2 ∧
      ((item.fund money).1.attained = .partly → 0 < money ∧ (item.fund money).2 = 0) := by
  unfold fund
  cases hafford : item.affordable? money with
  | some pair =>
    obtain ⟨l, i⟩ := pair
    obtain ⟨hl, hhigher⟩ := lt_value_of_affordable? hafford
    refine ⟨⟨l, hl, rfl⟩, ?_, fun hpartly => by cases hpartly⟩
    -- Every level above the one bought costs more than there was; both sides lose its price.
    intro j l' hj hl'
    show money - l.value < l'.value - l.value
    exact sub_lt_sub_right (hhigher j l' hj hl') l.value
  | none =>
    have hcostly := affordable?_eq_none hafford
    dsimp only
    split
    -- An item that can be funded in part takes everything that is left.
    next hpart =>
      simp only [Bool.and_eq_true, decide_eq_true_eq] at hpart
      refine ⟨⟨hpart.1, hcostly⟩, ?_, fun _ => ⟨hpart.1, rfl⟩⟩
      intro j l' _ hl'
      exact sub_pos.mpr (hcostly l' (List.mem_of_getElem? hl'))
    next =>
      refine ⟨?_, ?_, ?_⟩
      · rw [Stands, h.attained_eq]
        exact h.allocated_eq
      · intro j l' _ hl'
        rw [h.allocated_eq, sub_zero]
        exact hcostly l' (List.mem_of_getElem? hl')
      · intro hpartly
        rw [h.attained_eq] at hpartly
        cases hpartly

end BucketItem

namespace Bucket

/-- Whether a bucket has nothing left that an item could use. -/
structure Exhausted (b : Bucket Rat) : Prop where
  /-- Every item has what it attained. -/
  stands : ∀ item ∈ b.items, item.Stands
  /-- No level above the one attained is affordable. -/
  beyond : ∀ item ∈ b.items, item.Beyond b.remaining
  /-- No two items are funded in part. -/
  partly_le_one : b.items.countP (·.attained = .partly) ≤ 1
  /-- An item that is funded in part has taken all that was left. -/
  remaining_eq_zero : ∀ item ∈ b.items, item.attained = .partly → b.remaining = 0

variable {items : List (BucketItem Rat)} {money : Rat}

section
variable (h : ∀ item ∈ items, item.IsUntouched) (hmoney : 0 ≤ money)
include h hmoney

/-- Funding takes from the money, and no more than there is. -/
theorem left_fundAll : 0 ≤ (fundAll money items).2 ∧ (fundAll money items).2 ≤ money := by
  have hspending := spending_fundAll (fun item hitem => (h item hitem).toIsFresh) hmoney
  have hgiven : 0 ≤ ((fundAll money items).1.map (·.allocated)).sum := by
    refine List.sum_nonneg ?_
    intro x hx
    obtain ⟨item, hitem, rfl⟩ := List.mem_map.mp hx
    exact (hspending.funded item hitem).nonneg
  have hbalance := hspending.balance
  exact ⟨hspending.left_nonneg, by linarith⟩

/-- By induction on the items. What was beyond the money left by one item is beyond what the
others leave of that. -/
theorem stands_fundAll : ∀ item ∈ (fundAll money items).1,
    item.Stands ∧ item.Beyond (fundAll money items).2 := by
  induction items generalizing money with
  | nil =>
    intro item hitem
    cases hitem
  | cons first rest ih =>
    obtain ⟨hfirst, hrest⟩ := List.forall_mem_cons.mp h
    obtain ⟨hstands, hbeyond, _⟩ := BucketItem.beyond_fund money hfirst
    have hleft := (BucketItem.fund_spec hfirst.toIsFresh hmoney).2.2.2
    unfold fundAll
    intro item hitem
    rcases List.mem_cons.mp hitem with rfl | hitem
    · exact ⟨hstands, hbeyond.mono (left_fundAll hrest hleft).2⟩
    · exact ih hrest hleft item hitem

/-- By induction on the items. An item gets a part only if there is money, and leaves none. -/
theorem partly_fundAll : (fundAll money items).1.countP (·.attained = .partly) ≤ 1 ∧
    ∀ item ∈ (fundAll money items).1, item.attained = .partly →
      0 < money ∧ (fundAll money items).2 = 0 := by
  induction items generalizing money with
  | nil => exact ⟨Nat.zero_le 1, fun item hitem => by cases hitem⟩
  | cons first rest ih =>
    obtain ⟨hfirst, hrest⟩ := List.forall_mem_cons.mp h
    obtain ⟨_, _, hfirstPartly⟩ := BucketItem.beyond_fund money hfirst
    have hspec := BucketItem.fund_spec hfirst.toIsFresh hmoney
    have hleft := left_fundAll hrest hspec.2.2.2
    obtain ⟨hcount, hpartly⟩ := ih hrest hspec.2.2.2
    unfold fundAll
    by_cases hpart : (first.fund money).1.attained = .partly
    · obtain ⟨hpos, hnothing⟩ := hfirstPartly hpart
      -- nothing is left, so no later item gets a part
      have hnone : (fundAll (first.fund money).2 rest).1.countP (·.attained = .partly) = 0 := by
        rw [List.countP_eq_zero]
        intro item hitem hitemPartly
        have hmore := (hpartly item hitem (of_decide_eq_true hitemPartly)).1
        rw [hnothing] at hmore
        exact absurd hmore (lt_irrefl 0)
      have hend : (fundAll (first.fund money).2 rest).2 = 0 :=
        le_antisymm (hnothing ▸ hleft.2) hleft.1
      refine ⟨?_, fun _ _ _ => ⟨hpos, hend⟩⟩
      rw [List.countP_cons, hnone, if_pos (decide_eq_true hpart)]
    · constructor
      · rw [List.countP_cons, if_neg (by simpa using hpart)]
        exact hcount
      · intro item hitem hitemPartly
        rcases List.mem_cons.mp hitem with rfl | hitem
        · exact absurd hitemPartly hpart
        · obtain ⟨hpos, hend⟩ := hpartly item hitem hitemPartly
          have hgiven := hspec.2.2.1
          have hnonneg := hspec.2.1.nonneg
          exact ⟨by linarith, hend⟩

end

/-! ## Upgrades -/

/-- The next level of an item that all higher levels are beyond is not affordable. -/
theorem consider_of_beyond {entry : BucketItem Rat × Nat} (h : entry.1.Beyond money)
    (best : Option (Upgrade Rat)) : consider money best entry = best := by
  unfold consider
  dsimp only
  split
  next => rfl
  next l hl =>
    have hcost : ¬l.value - entry.1.allocated ≤ money := not_le.mpr (h _ l (le_refl _) hl)
    rw [decide_eq_false hcost, Bool.and_false, Bool.false_and, Bool.false_and,
      if_neg Bool.false_ne_true]

/-- Where everything is beyond the money no upgrade is bought. -/
theorem upgrade_of_beyond (h : ∀ item ∈ items, item.Beyond money) (rounds : Nat) :
    upgrade rounds (items, money) = (items, money) := by
  have hnone : items.zipIdx.foldl (consider money) none = none := by
    refine List.foldlRecOn items.zipIdx _ (motive := fun best => best = none) rfl ?_
    intro best hbest entry hentry
    rw [consider_of_beyond (h entry.1 (List.fst_mem_of_mem_zipIdx hentry)), hbest]
  cases rounds with
  | zero => rfl
  | succ rounds => rw [upgrade, hnone]

/-- A bucket of untouched items is spent when all of them were funded, and is exhausted then. -/
theorem exhausted_spend {b : Bucket Rat} (h : ∀ item ∈ b.items, item.IsUntouched)
    (hbudget : 0 ≤ b.budget) :
    let funded := fundAll b.budget (b.items.mergeSort comesFirst)
    upgrade 500 funded = funded ∧ (b.spend.items, b.spend.remaining) = funded ∧
      b.spend.Exhausted := by
  intro funded
  have hsorted : ∀ item ∈ b.items.mergeSort comesFirst, item.IsUntouched :=
    fun item hitem => h item ((List.mergeSort_perm _ _).mem_iff.mp hitem)
  have hstands := stands_fundAll hsorted hbudget
  have hpartly := partly_fundAll hsorted hbudget
  -- No upgrade is affordable after the first pass, so the loop stops in its first round.
  have hupgrade : upgrade 500 funded = funded :=
    upgrade_of_beyond (fun item hitem => (hstands item hitem).2) 500
  have hspent : (b.spend.items, b.spend.remaining) = funded := hupgrade
  obtain ⟨hitems, hremaining⟩ := Prod.mk.inj hspent
  refine ⟨hupgrade, hspent, ?_⟩
  constructor
  case stands =>
    intro item hitem
    exact (hstands item (hitems ▸ hitem)).1
  case beyond =>
    intro item hitem
    rw [hremaining]
    exact (hstands item (hitems ▸ hitem)).2
  case partly_le_one =>
    rw [hitems]
    exact hpartly.1
  case remaining_eq_zero =>
    intro item hitem hitemPartly
    rw [hremaining]
    exact (hpartly.2 item (hitems ▸ hitem) hitemPartly).2

end Bucket

namespace Hybrid

variable {b : Budget Rat} {s : Scenario Rat} {key : String}

/-! ## The items of a budget -/

theorem isUntouched_goalItem {factor : Rat} {g : Goal Rat} {item : BucketItem Rat}
    (h : goalItem factor key g = .ok (some item)) : item.IsUntouched := by
  refine ⟨(isFresh_goalItem h).1, ?_⟩
  unfold goalItem at h
  dsimp only at h
  split at h
  next => cases h
  next =>
    obtain ⟨_, _, h⟩ := bind_eq_ok.mp h
    cases h
    rfl

theorem isUntouched_debtItem {share : Rat} {d : Debt Rat} {item : BucketItem Rat}
    (h : debtItem share key d = some item) : item.IsUntouched := by
  refine ⟨(isFresh_debtItem h).1, ?_⟩
  unfold debtItem at h
  dsimp only at h
  split at h
  next => cases h
  next =>
    cases h
    rfl

theorem isUntouched_flexibleItem {level : Rat} {c : Category Rat} {item : BucketItem Rat}
    (h : flexibleItem level key c = some item) : item.IsUntouched := by
  refine ⟨(isFresh_flexibleItem h).1, ?_⟩
  unfold flexibleItem at h
  dsimp only at h
  split at h
  next => cases h
  next =>
    cases h
    rfl

/-- No item of a bucket has anything before the bucket is spent. -/
theorem isUntouched_of_mem_buckets {surplus : Rat} {bs : List (Bucket Rat)}
    (h : buckets b s surplus = .ok bs) :
    ∀ bucket ∈ bs, ∀ item ∈ bucket.items, item.IsUntouched := by
  intro bucket hbucket item hitem
  rcases item_of_mem_buckets h hbucket hitem with
    ⟨_, _, _, hmade⟩ | ⟨_, _, _, hmade⟩ | ⟨_, _, _, hmade⟩
  · exact isUntouched_goalItem hmade
  · exact isUntouched_debtItem hmade
  · exact isUntouched_flexibleItem hmade

/-- Whatever budget a bucket is given, it is spent when all its items were funded, and no upgrade
changes anything. Then every level above what an item attained costs more than what is left; at
most one item is funded in part, and then nothing is left. -/
theorem buckets_exhausted {surplus : Rat} {bs : List (Bucket Rat)}
    (hbuckets : buckets b s surplus = .ok bs) {bucket : Bucket Rat} (hbucket : bucket ∈ bs)
    {money : Rat} (hmoney : 0 ≤ money) :
    let funded := Bucket.fundAll money (bucket.items.mergeSort Bucket.comesFirst)
    let spent := Bucket.spend { bucket with budget := money }
    Bucket.upgrade 500 funded = funded ∧ (spent.items, spent.remaining) = funded ∧
      spent.Exhausted :=
  Bucket.exhausted_spend (b := { bucket with budget := money })
    (isUntouched_of_mem_buckets hbuckets bucket hbucket) hmoney

/-- Two savings goals, of which the roof is the more important one. -/
def twoSavings : Budget Rat where
  income := 410
  mandatory := ∅
  flexible := ∅
  debts := ∅
  goals := ⟨[
    ("trip", ⟨"trip", "trip", 60, 600, "travel", .high, 9, by decide, by decide, by decide⟩),
    ("roof", ⟨"roof", "roof", 90, 900, "house", .high, 4, by decide, by decide, by decide⟩)],
    by decide⟩
  income_nonneg := by decide
  ids_distinct := by decide

/-- What the items of a bucket attain and get from some money. -/
def attainments (money : Rat) (bucket : Bucket Rat) : List (Attainment × Rat) :=
  (Bucket.spend { bucket with budget := money }).items.map fun item =>
    (item.attained, item.allocated)

/-- Of eighty the roof takes its second level, sixty-three, and the trip the seventeen that are
left, which are less than its lowest level. -/
theorem buckets_exhausted_twoSavings : ∃ bs, buckets twoSavings Allocator.halfway 410 = .ok bs ∧
    ∃ bucket ∈ bs, (0 : Rat) ≤ 80 ∧ attainments 80 bucket = [(.level 1, 63), (.partly, 17)] ∧
      (Bucket.spend { bucket with budget := 80 }).Exhausted := by
  have hrun : (buckets twoSavings Allocator.halfway 410).toOption.map
      (·.map (attainments 80)) = some [[], [], [(.level 1, 63), (.partly, 17)], []] := by
    cbv
  obtain ⟨bs, hbs, hattained⟩ := exists_of_toOption_map hrun
  have hgoals : (bs.map (attainments 80))[2]? = some [(.level 1, 63), (.partly, 17)] := by
    rw [hattained]
    rfl
  rw [List.getElem?_map] at hgoals
  obtain ⟨bucket, hbucket, hspent⟩ := Option.map_eq_some_iff.mp hgoals
  have hmem : bucket ∈ bs := List.mem_of_getElem? hbucket
  obtain ⟨_, _, hexhausted⟩ := buckets_exhausted hbs hmem (show (0 : Rat) ≤ 80 by decide)
  exact ⟨bs, hbs, bucket, hmem, by decide, hspent, hexhausted⟩

end Hybrid

end GoalBudget
