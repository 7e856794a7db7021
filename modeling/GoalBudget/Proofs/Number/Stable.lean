import GoalBudget.Proofs.Number.Exact
import GoalBudget.Strategy.Priority

/-!
# Stable orders

A sorted list in which ties keep their order is determined by what is sorted (`eq_of_filter_eq`):
the items that tie with an item are the same in both lists, and the first item of one ties with the
first of the other.

So serving tier by tier, each by descending key, is serving in the one stable order by priority and
then by descending key: `flatMap_tiers`. A run over tiers is a run over one list then, and what one
step keeps is kept by the run without an induction over tiers and one over their items.

Sorting by a Boolean comparison is only specified for comparisons that are transitive and total. The
two that occur, `comesFirst` and `higherFirst`, are here with their proofs.
-/

namespace GoalBudget

section
variable {τ : Type} {le : τ → τ → Bool}

/-- Whether neither of two items has to come first. -/
def ties (le : τ → τ → Bool) (a b : τ) : Bool := le a b && le b a

/-- Two sorted lists that agree on the ties of every item are the same. -/
theorem eq_of_filter_eq (hrefl : ∀ a, le a a = true) {as bs : List τ}
    (has : as.Pairwise fun a b => le a b = true) (hbs : bs.Pairwise fun a b => le a b = true)
    (h : ∀ x, as.filter (ties le x) = bs.filter (ties le x)) : as = bs := by
  have hself (a : τ) : ties le a a = true := by rw [ties, hrefl]; rfl
  induction as generalizing bs with
  | nil =>
    cases bs with
    | nil => rfl
    | cons b bs =>
      have hb := h b
      rw [List.filter_cons_of_pos (hself b)] at hb
      cases hb
  | cons a as ih =>
    cases bs with
    | nil =>
      have ha := h a
      rw [List.filter_cons_of_pos (hself a)] at ha
      cases ha
    | cons b bs =>
      have hmem (c : τ) : c ∈ a :: as ↔ c ∈ b :: bs := by
        have hc := congrArg (c ∈ ·) (h c)
        simpa only [List.mem_filter, hself, and_true, eq_iff_iff] using hc
      have hfirst {c d : τ} {cs : List τ} (hcs : (c :: cs).Pairwise fun a b => le a b = true)
          (hd : d ∈ c :: cs) : le c d = true := by
        rcases List.mem_cons.mp hd with rfl | hd
        · exact hrefl d
        · exact (List.pairwise_cons.mp hcs).1 d hd
      -- each of the first items comes before the other
      have hab : ties le a b = true := by
        rw [ties, hfirst has ((hmem b).mpr (List.mem_cons_self ..)),
          hfirst hbs ((hmem a).mp (List.mem_cons_self ..))]
        rfl
      have ha := h a
      rw [List.filter_cons_of_pos (hself a), List.filter_cons_of_pos hab] at ha
      cases (List.cons.inj ha).1
      refine congrArg (a :: ·) (ih (List.pairwise_cons.mp has).2 (List.pairwise_cons.mp hbs).2 ?_)
      intro x
      have hx := h x
      by_cases hxa : ties le x a = true
      · rw [List.filter_cons_of_pos hxa, List.filter_cons_of_pos hxa] at hx
        exact (List.cons.inj hx).2
      · rwa [List.filter_cons_of_neg hxa, List.filter_cons_of_neg hxa] at hx

variable (htrans : ∀ a b c, le a b = true → le b c = true → le a c = true)
  (htotal : ∀ a b, (le a b || le b a) = true)
include htrans htotal

/-- Sorting keeps the order of ties. -/
theorem filter_mergeSort (items : List τ) (x : τ) :
    (items.mergeSort le).filter (ties le x) = items.filter (ties le x) := by
  have hties : (items.filter (ties le x)).Pairwise fun a b => le a b = true := by
    refine List.pairwise_of_forall_mem_list fun a ha b hb => ?_
    have ha := (Bool.and_eq_true_iff.mp (List.mem_filter.mp ha).2).2
    have hb := (Bool.and_eq_true_iff.mp (List.mem_filter.mp hb).2).1
    exact htrans a x b ha hb
  have hsub := (List.sublist_mergeSort htrans htotal hties List.filter_sublist).filter (ties le x)
  rw [List.filter_filter] at hsub
  simp only [Bool.and_self] at hsub
  refine (hsub.eq_of_length ?_).symm
  exact ((List.mergeSort_perm items le).filter _).length_eq.symm

end

/-! ## Tiers -/

theorem nodup_eraseDups (levels : List Int) : levels.eraseDups.Nodup := by
  match levels with
  | [] => exact List.nodup_nil
  | level :: rest =>
    rw [List.eraseDups_cons, List.nodup_cons]
    refine ⟨?_, nodup_eraseDups _⟩
    rw [List.mem_eraseDups, List.mem_filter]
    simp
  termination_by levels.length
  decreasing_by
    rw [List.length_cons]
    exact Nat.lt_succ_of_le (List.length_filter_le _ _)

/-- Among different levels, one is picked once if it is there. -/
theorem flatMap_ite {τ : Type} {levels : List Int} (hnodup : levels.Nodup) (level : Int)
    (items : List τ) : levels.flatMap (fun l => if l = level then items else []) =
      if level ∈ levels then items else [] := by
  induction levels with
  | nil => rfl
  | cons l rest ih =>
    rw [List.nodup_cons] at hnodup
    rw [List.flatMap_cons, ih hnodup.2]
    by_cases hl : l = level
    · subst hl
      rw [if_pos rfl, if_neg hnodup.1, if_pos (List.mem_cons_self ..), List.append_nil]
    · rw [if_neg hl, List.nil_append]
      simp only [List.mem_cons, Ne.symm hl, false_or]

section
variable {τ : Type} (priority : τ → Int) (key : τ → Rat)

/-- Whether an item comes before another or ties with it, by priority and then by descending
key. -/
def comesFirst (a b : τ) : Bool :=
  priority a < priority b || (priority a == priority b && !(key a < key b : Bool))

/-- What the order of service compares: the priority, then the key. -/
theorem comesFirst_iff {a b : τ} : comesFirst priority key a b = true ↔
    priority a < priority b ∨ priority a = priority b ∧ key b ≤ key a := by
  simp [comesFirst]

/-- The order of service is transitive. -/
theorem comesFirst_trans (a b c : τ) (hab : comesFirst priority key a b = true)
    (hbc : comesFirst priority key b c = true) : comesFirst priority key a c = true := by
  rw [comesFirst_iff] at hab hbc ⊢
  rcases hab with hab | ⟨hab, hkab⟩
  · rcases hbc with hbc | ⟨hbc, _⟩ <;> left <;> omega
  · rcases hbc with hbc | ⟨hbc, hkbc⟩
    · left
      omega
    · exact .inr ⟨hab.trans hbc, hkbc.trans hkab⟩

/-- Of two items one comes first, or they tie. -/
theorem comesFirst_total (a b : τ) :
    (comesFirst priority key a b || comesFirst priority key b a) = true := by
  rw [Bool.or_eq_true, comesFirst_iff, comesFirst_iff]
  rcases lt_trichotomy (priority a) (priority b) with h | h | h
  · exact .inl (.inl h)
  · rcases le_total (key a) (key b) with hk | hk
    · exact .inr (.inr ⟨h.symm, hk⟩)
    · exact .inl (.inr ⟨h, hk⟩)
  · exact .inr (.inl h)

/-- Items tie in the order of service if priority and key are the same. -/
theorem ties_comesFirst {a b : τ} : ties (comesFirst priority key) a b = true ↔
    priority a = priority b ∧ key a = key b := by
  rw [ties, Bool.and_eq_true, comesFirst_iff, comesFirst_iff]
  constructor
  · rintro ⟨h | ⟨h, hk⟩, h' | ⟨h', hk'⟩⟩
    · omega
    · omega
    · omega
    · exact ⟨h, le_antisymm hk' hk⟩
  · rintro ⟨h, hk⟩
    exact ⟨.inr ⟨h, hk.ge⟩, .inr ⟨h.symm, hk.le⟩⟩

/-- The priorities in use, each once, in ascending order. -/
def levels (items : List τ) : List Int :=
  (items.map priority).eraseDups.mergeSort fun a b => a ≤ b

/-- The levels ascend. -/
theorem levels_pairwise (items : List τ) : (levels priority items).Pairwise (· < ·) := by
  have hsorted : (levels priority items).Pairwise fun a b => decide (a ≤ b) = true :=
    List.pairwise_mergeSort (fun a b c => by simpa using le_trans)
      (fun a b => by simpa using le_total a b) _
  have hnodup : (levels priority items).Nodup :=
    (List.mergeSort_perm _ _).nodup_iff.mpr (nodup_eraseDups _)
  refine (hsorted.and hnodup).imp fun {a b} h => ?_
  exact lt_of_le_of_ne (of_decide_eq_true h.1) h.2

theorem mem_levels {items : List τ} {level : Int} :
    level ∈ levels priority items ↔ ∃ item ∈ items, priority item = level := by
  rw [levels, (List.mergeSort_perm _ _).mem_iff, List.mem_eraseDups, List.mem_map]

/-- Whether an item comes before another or ties with it, by descending key. -/
def higherFirst (a b : τ) : Bool := !(key a < key b : Bool)

theorem higherFirst_iff {a b : τ} : higherFirst key a b = true ↔ key b ≤ key a := by
  simp [higherFirst]

/-- Items tie within a tier if their keys are the same. -/
theorem ties_higherFirst {a b : τ} : ties (higherFirst key) a b = true ↔ key a = key b := by
  rw [ties, Bool.and_eq_true, higherFirst_iff, higherFirst_iff, le_antisymm_iff, and_comm]

/-- The order within a tier is transitive. -/
theorem higherFirst_trans (a b c : τ) (hab : higherFirst key a b = true)
    (hbc : higherFirst key b c = true) : higherFirst key a c = true := by
  rw [higherFirst_iff] at hab hbc ⊢
  exact hbc.trans hab

/-- Of two items of a tier one has the higher key, or they tie. -/
theorem higherFirst_total (a b : τ) : (higherFirst key a b || higherFirst key b a) = true := by
  rw [Bool.or_eq_true, higherFirst_iff, higherFirst_iff]
  exact le_total (key b) (key a)

/-- No key is undefined here, so descending order is a stable merge sort. -/
theorem byDescending_eq (items : List τ) :
    byDescending key items = items.mergeSort (higherFirst key) := by
  rw [byDescending, if_neg (by simp)]
  rfl

/-- The items of a tier have its priority. -/
theorem mem_tier {items : List τ} {level : Int} {y : τ}
    (h : y ∈ byDescending key (items.filter fun item => priority item == level)) :
    priority y = level :=
  eq_of_beq (List.mem_filter.mp ((byDescending_perm key _).mem_iff.mp h)).2

/-- The items of one tier that tie with an item: all that do, if it is the item's tier. -/
theorem filter_tier (items : List τ) (x : τ) (level : Int) :
    (byDescending key (items.filter fun item => priority item == level)).filter
        (ties (comesFirst priority key) x) =
      if level = priority x then items.filter (ties (comesFirst priority key) x) else [] := by
  split
  next h =>
    -- within the tier the key alone decides
    have hkey : ∀ y ∈ byDescending key (items.filter fun item => priority item == level),
        ties (comesFirst priority key) x y = ties (higherFirst key) x y := by
      intro y hy
      rw [Bool.eq_iff_iff, ties_comesFirst, ties_higherFirst, mem_tier priority key hy, h]
      exact and_iff_right rfl
    rw [List.filter_congr hkey, byDescending_eq,
      filter_mergeSort (higherFirst_trans key) (higherFirst_total key), List.filter_filter]
    refine List.filter_congr fun y _ => ?_
    rw [Bool.eq_iff_iff, Bool.and_eq_true, ties_comesFirst, ties_higherFirst, beq_iff_eq, h,
      and_comm, eq_comm]
  next h =>
    rw [List.filter_eq_nil_iff]
    intro y hy hties
    exact h ((mem_tier priority key hy).symm.trans
      ((ties_comesFirst priority key).mp hties).1.symm)

/-- Tier by tier, each by descending key, is the stable order by priority and key. -/
theorem flatMap_tiers (items : List τ) :
    (tiers priority items).flatMap (fun tier => byDescending key tier.2) =
      items.mergeSort (comesFirst priority key) := by
  have htrans := comesFirst_trans priority key
  have htotal := comesFirst_total priority key
  have hrefl (a : τ) : comesFirst priority key a a = true :=
    (comesFirst_iff priority key).mpr (.inr ⟨rfl, le_refl _⟩)
  have htiers : (tiers priority items).flatMap (fun tier => byDescending key tier.2) =
      (levels priority items).flatMap fun level =>
        byDescending key (items.filter fun item => priority item == level) :=
    List.flatMap_map ..
  rw [htiers]
  refine eq_of_filter_eq hrefl ?_ (List.pairwise_mergeSort htrans htotal items) fun x => ?_
  · rw [List.pairwise_flatMap]
    constructor
    · intro level _
      have hsorted := List.pairwise_mergeSort (higherFirst_trans key) (higherFirst_total key)
        (items.filter fun item => priority item == level)
      rw [← byDescending_eq] at hsorted
      refine hsorted.imp_of_mem fun {a b} ha hb hab => (comesFirst_iff priority key).mpr ?_
      right
      rw [mem_tier priority key ha, mem_tier priority key hb]
      exact ⟨rfl, (higherFirst_iff key).mp hab⟩
    · refine (levels_pairwise priority items).imp fun {l m} hlm a ha b hb => ?_
      rw [comesFirst_iff, mem_tier priority key ha, mem_tier priority key hb]
      exact .inl hlm
  · have hnodup := (levels_pairwise priority items).imp fun {l m} h => ne_of_lt h
    rw [List.filter_flatMap, filter_mergeSort htrans htotal]
    simp only [filter_tier]
    rw [flatMap_ite hnodup]
    split
    next => rfl
    next hnone =>
      -- an item that ties with `x` would be of the missing tier
      rw [eq_comm, List.filter_eq_nil_iff]
      intro y hy hties
      exact hnone ((mem_levels priority).mpr
        ⟨y, hy, ((ties_comesFirst priority key).mp hties).1.symm⟩)

end

end GoalBudget
