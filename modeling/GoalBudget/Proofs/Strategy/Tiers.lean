import GoalBudget.Proofs.Fuzzy.Greedy
import GoalBudget.Proofs.Number.Stable

/-!
# Tiers up to a priority

The tiers up to a priority are the front of all tiers. What is in them depends on the items up to
that priority alone (`tiersUpTo_eq`), and behind them come only less important items
(`lt_priority_of_mem_tiersBeyond`). So whatever serves tier by tier can be stopped after a priority,
and two goal programs that agree up to it (`GoalProgram.AgreesUpTo`) are in the same state there.

No order or arithmetic of the amounts is involved, so all of this holds with any number type.
-/

namespace GoalBudget

section
variable {τ : Type} (priority : τ → Int) (k m : Int) (items : List τ)

/-- The tiers up to a priority. -/
def tiersUpTo : List (Int × List τ) := (tiers priority items).takeWhile fun tier => tier.1 ≤ k

/-- The tiers behind a priority. -/
def tiersBeyond : List (Int × List τ) := (tiers priority items).dropWhile fun tier => tier.1 ≤ k

/-- The tiers fall into those up to a priority and those beyond it. -/
theorem tiersUpTo_append_tiersBeyond :
    tiersUpTo priority k items ++ tiersBeyond priority k items = tiers priority items :=
  List.takeWhile_append_dropWhile ..

/-- In ascending order the levels up to a priority come first. -/
theorem takeWhile_eq_filter {levels : List Int} (hsorted : levels.Pairwise (· < ·)) :
    levels.takeWhile (· ≤ k) = levels.filter (· ≤ k) := by
  induction levels with
  | nil => rfl
  | cons level rest ih =>
    obtain ⟨hfirst, hrest⟩ := List.pairwise_cons.mp hsorted
    by_cases hlevel : level ≤ k
    · rw [List.takeWhile_cons_of_pos (by simpa using hlevel),
        List.filter_cons_of_pos (by simpa using hlevel), ih hrest]
    · rw [List.takeWhile_cons_of_neg (by simpa using hlevel),
        List.filter_cons_of_neg (by simpa using hlevel), eq_comm, List.filter_eq_nil_iff]
      intro other hother
      have := hfirst other hother
      simp only [decide_eq_true_eq]
      omega

/-- Behind the levels up to a priority come those beyond it. -/
theorem lt_of_mem_dropWhile {levels : List Int} (hsorted : levels.Pairwise (· < ·)) {level : Int}
    (h : level ∈ levels.dropWhile (· ≤ k)) : k < level := by
  induction levels with
  | nil => cases h
  | cons first rest ih =>
    obtain ⟨hfirst, hrest⟩ := List.pairwise_cons.mp hsorted
    by_cases hle : first ≤ k
    · rw [List.dropWhile_cons_of_pos (by simpa using hle)] at h
      exact ih hrest h
    · rw [List.dropWhile_cons_of_neg (by simpa using hle)] at h
      rcases List.mem_cons.mp h with rfl | h
      · exact not_le.mp hle
      · exact (not_le.mp hle).trans (hfirst level h)

/-- The levels up to a priority are those of the items up to it. -/
theorem takeWhile_levels : (levels priority items).takeWhile (· ≤ k) =
    levels priority (items.filter (priority · ≤ k)) := by
  have hsorted := levels_pairwise priority items
  have hsorted' := levels_pairwise priority (items.filter (priority · ≤ k))
  rw [takeWhile_eq_filter k hsorted]
  have hperm : ((levels priority items).filter (· ≤ k)).Perm
      (levels priority (items.filter (priority · ≤ k))) := by
    refine (List.perm_ext_iff_of_nodup ((hsorted.imp ne_of_lt).filter _)
      (hsorted'.imp ne_of_lt)).mpr fun level => ?_
    simp only [List.mem_filter, mem_levels, decide_eq_true_eq]
    constructor
    · rintro ⟨⟨item, hitem, rfl⟩, hle⟩
      exact ⟨item, ⟨hitem, hle⟩, rfl⟩
    · rintro ⟨item, ⟨hitem, hle⟩, rfl⟩
      exact ⟨⟨item, hitem, rfl⟩, hle⟩
  exact hperm.eq_of_pairwise (fun a b _ _ hab hba => absurd hab (lt_asymm hba))
    (hsorted.filter _) hsorted'

/-- What the tiers up to a priority are depends on the items up to it alone. -/
theorem tiersUpTo_eq :
    tiersUpTo priority k items = tiers priority (items.filter (priority · ≤ k)) := by
  have hfront : tiersUpTo priority k items =
      ((levels priority items).takeWhile (· ≤ k)).map
        fun level => (level, items.filter (priority · == level)) :=
    List.takeWhile_map ..
  rw [hfront, takeWhile_levels]
  refine List.map_congr_left fun level hlevel => congrArg (Prod.mk level) ?_
  obtain ⟨other, hother, hsame⟩ := (mem_levels priority).mp hlevel
  have hle : level ≤ k := hsame ▸ of_decide_eq_true (List.mem_filter.mp hother).2
  rw [List.filter_filter]
  refine List.filter_congr fun item _ => ?_
  rw [Bool.eq_iff_iff, Bool.and_eq_true, beq_iff_eq, decide_eq_true_eq]
  constructor
  · intro hitem
    exact ⟨hitem, hitem ▸ hle⟩
  · exact And.left

/-- Two lists with the same items up to a priority have the same tiers up to it. -/
theorem tiersUpTo_congr {items items' : List τ}
    (h : items.filter (priority · ≤ k) = items'.filter (priority · ≤ k)) :
    tiersUpTo priority k items = tiersUpTo priority k items' := by
  rw [tiersUpTo_eq, tiersUpTo_eq, h]

/-- The tiers up to a less important priority go on where those up to a priority end. -/
theorem tiersUpTo_append (hkm : k ≤ m) : tiersUpTo priority m items =
    tiersUpTo priority k items ++ tiersBeyond priority k (items.filter (priority · ≤ m)) := by
  have hfront : tiersUpTo priority k items =
      tiersUpTo priority k (items.filter (priority · ≤ m)) := by
    refine tiersUpTo_congr priority k ?_
    rw [List.filter_filter]
    refine List.filter_congr fun item _ => ?_
    rw [Bool.eq_iff_iff, Bool.and_eq_true, decide_eq_true_eq, decide_eq_true_eq]
    omega
  rw [hfront, tiersUpTo_append_tiersBeyond, tiersUpTo_eq]

variable {priority k items}

/-- What comes behind a priority is less important. -/
theorem lt_priority_of_mem_tiersBeyond {tier : Int × List τ} {item : τ}
    (htier : tier ∈ tiersBeyond priority k items) (hitem : item ∈ tier.2) :
    item ∈ items ∧ k < priority item := by
  have hmem : tier ∈ tiers priority items := (List.dropWhile_sublist _).mem htier
  refine ⟨mem_of_mem_tiers hmem hitem, ?_⟩
  have hrest : tiersBeyond priority k items =
      ((levels priority items).dropWhile (· ≤ k)).map
        fun level => (level, items.filter (priority · == level)) :=
    List.dropWhile_map ..
  rw [hrest] at htier
  obtain ⟨level, hlevel, rfl⟩ := List.mem_map.mp htier
  rw [eq_of_beq (List.mem_filter.mp hitem).2]
  exact lt_of_mem_dropWhile k (levels_pairwise priority items) hlevel

end

/-- Two goal programs with the same income and variables, and with the same goals up to a
priority in the same order. The less important goals of each are its own, wherever they
stand among the others. -/
structure GoalProgram.AgreesUpTo {α γ : Type} [Scalar α] [Scores γ] (priority : γ → Int)
    (k : Int) (p q : GoalProgram α γ) : Prop where
  income : p.income = q.income
  vars : p.vars = q.vars
  goals : p.goals.filter (priority · ≤ k) = q.goals.filter (priority · ≤ k)

end GoalBudget
