import GoalBudget.Proofs.Budget.Changed
import GoalBudget.Proofs.Deviation.Queue
import Mathlib.Data.Prod.Lex

/-!
# A goal served earlier

Goals are served by their ranks (`DeviationGoal.rank`). Where two programs aim at the same wishes
with the same income and differ in the rank of one goal only, the goals before it are among those
before it in the program that ranks it later (`front_subset`). So it gets at least as much where it
is ranked earlier (`AimsAt.amount_le_of_earlier`).

A rank is a tier and, within the tier, a weight that counts the other way round. Goals of one rank
are served in their own order, which is the same in both programs, since sorting is stable.

In the program of a budget the rank of a goal is that of its item (`Ranked`), and a higher priority
weight is a later rank (`Goal.rank_lt`), for savings goals that are no emergency fund.
-/

namespace GoalBudget

/-- A list with an item that is ranked later in another list of the same items: what comes before
it comes before it there. -/
theorem front_subset {τ ρ : Type} [LinearOrder ρ] {rank rank' : τ → ρ} {xs ys : List τ} {i : τ}
    {front back front' back' : List τ} (hxs : xs.Pairwise fun a b => rank a ≤ rank b)
    (hys : ys.Pairwise fun a b => rank' a ≤ rank' b) (hperm : xs.Perm ys) (hnodup : xs.Nodup)
    (hothers : ∀ j, j ≠ i → rank j = rank' j) (hearlier : rank i < rank' i)
    (hfront : xs = front ++ i :: back) (hfront' : ys = front' ++ i :: back') :
    front ⊆ front' := by
  subst hfront hfront'
  intro x hx
  have hbefore : rank x ≤ rank i :=
    (List.pairwise_append.mp hxs).2.2 x hx i (List.mem_cons_self ..)
  have hne : x ≠ i := (List.nodup_append.mp hnodup).2.2 x hx i (List.mem_cons_self ..)
  have hmem : x ∈ front' ++ i :: back' := hperm.mem_iff.mp (List.mem_append_left _ hx)
  rcases List.mem_append.mp hmem with hbefore' | hrest
  · exact hbefore'
  · have hback' : x ∈ back' := (List.mem_cons.mp hrest).resolve_left hne
    have hafter : rank' i ≤ rank' x :=
      (List.pairwise_cons.mp (List.pairwise_append.mp hys).2.1).1 x hback'
    rw [hothers x hne] at hbefore
    exact absurd (hearlier.trans_le hafter) hbefore.not_gt

/-- The rank of a goal in the order of service: by priority, then by descending weight. -/
def DeviationGoal.rank (g : DeviationGoal Rat) : Int ×ₗ Rat := toLex (g.priority, -g.weight)

namespace DeviationProgram

variable {p q : DeviationProgram Rat} {ws : List Wish} {i : Nat}

/-- The order of service is by rank. -/
theorem pairwise_inOrder (p : DeviationProgram Rat) :
    p.inOrder.Pairwise fun a b => a.rank ≤ b.rank := by
  have hsorted := List.pairwise_mergeSort 
    (comesFirst_trans DeviationGoal.priority DeviationGoal.weight)
    (comesFirst_total DeviationGoal.priority DeviationGoal.weight) p.goals
  refine hsorted.imp fun {a b} hab => ?_
  rw [DeviationGoal.rank, DeviationGoal.rank, Prod.Lex.toLex_le_toLex, neg_le_neg_iff]
  exact (comesFirst_iff _ _).mp hab

theorem needAt_nonneg (ws : List Wish) (i : Nat) : 0 ≤ needAt ws i := by
  unfold needAt
  cases ws[i]? with
  | none => exact le_refl 0
  | some w =>
    rw [Option.elim_some, Wish.need, Variable.headroom]
    split
    next =>
      rw [Limit.hold_upTo, greatest_eq_max]
      exact le_min (le_max_left _ _) (le_max_left _ _)
    next => exact le_max_left _ _

section
variable (h : p.AimsAt ws) (h' : q.AimsAt ws) (hincome : p.income = q.income)
include h h' hincome

/-- Programs with the same wishes and the same income start alike. -/
theorem AimsAt.start_eq : p.start = q.start := by
  rw [start, start, h.vars, h'.vars, hincome]

theorem AimsAt.left_eq : p.served.left = q.served.left := by
  rw [h.left_served, h'.left_served, h.start_eq h' hincome]

/-- Where something is left, the order does not matter. -/
theorem AimsAt.amounts_eq_of_left (hleft : 0 < p.served.left) :
    p.served.amounts = q.served.amounts := by
  have hlength := h.length_served
  have hlength' := h'.length_served
  refine List.ext_getElem (hlength.trans hlength'.symm) fun i hi hi' => ?_
  have hleft' : 0 < q.served.left := h.left_eq h' hincome ▸ hleft
  have hamount := h.amount_served_of_left hleft (hlength ▸ hi)
  have hamount' := h'.amount_served_of_left hleft' (hlength' ▸ hi')
  rw [← h.start_eq h' hincome, ← hamount, Funds.amount, Funds.amount,
    List.getD_eq_getElem _ _ hi, List.getD_eq_getElem _ _ hi'] at hamount'
  exact hamount'.symm

/-- A goal that is served earlier gets at least as much. -/
theorem AimsAt.amount_le_of_earlier {rank rank' : Nat → Int ×ₗ Rat}
    (hrank : ∀ g ∈ p.goals, g.rank = rank g.index) (hrank' : ∀ g ∈ q.goals, g.rank = rank' g.index)
    (hothers : ∀ j, j ≠ i → rank j = rank' j) (hearlier : rank i < rank' i)
    (hi : i < ws.length) : q.served.amount i ≤ p.served.amount i := by
  have hmem : i ∈ p.queue := h.queue_perm.mem_iff.mpr (List.mem_range.mpr hi)
  have hmem' : i ∈ q.queue := h'.queue_perm.mem_iff.mpr (List.mem_range.mpr hi)
  obtain ⟨front, back, hqueue⟩ := List.append_of_mem hmem
  obtain ⟨front', back', hqueue'⟩ := List.append_of_mem hmem'
  have hnodup : p.queue.Nodup := h.queue_perm.nodup_iff.mpr List.nodup_range
  have hsorted : p.queue.Pairwise fun a b => rank a ≤ rank b := by
    rw [queue, List.pairwise_map]
    refine p.pairwise_inOrder.imp_of_mem fun {a b} ha hb hab => ?_
    rwa [← hrank a (mem_inOrder.mp ha), ← hrank b (mem_inOrder.mp hb)]
  have hsorted' : q.queue.Pairwise fun a b => rank' a ≤ rank' b := by
    rw [queue, List.pairwise_map]
    refine q.pairwise_inOrder.imp_of_mem fun {a b} ha hb hab => ?_
    rwa [← hrank' a (mem_inOrder.mp ha), ← hrank' b (mem_inOrder.mp hb)]
  -- Whoever is served before it in the first queue is served before it in the second as well.
  have hsubset : front ⊆ front' := front_subset hsorted hsorted'
    (h.queue_perm.trans h'.queue_perm.symm) hnodup hothers hearlier hqueue hqueue'
  have hfront : front.Nodup := (List.nodup_append.mp (hqueue ▸ hnodup)).1
  have hsum := sum_map_le_of_subset (needAt_nonneg ws) hfront hsubset
  rw [h.amount_served hqueue, h'.amount_served hqueue', h.start_eq h' hincome]
  gcongr

end

end DeviationProgram

/-! ## Ranks of items -/

/-- The rank of a savings goal in the order of service. -/
def Goal.rank (g : Goal Rat) : Int ×ₗ Rat :=
  if g.isEmergency then toLex (3, -1)
  else if g.priorityWeight ≤ 10 then toLex (4, -((11 - g.priorityWeight : Int) : Rat))
  else toLex (6, -((100 - g.priorityWeight : Int) : Rat))

/-- A higher priority weight is a later rank. -/
theorem Goal.rank_lt {g : Goal Rat} (hweighted : g.isEmergency = false) {v w : Int} (hv : 0 ≤ v)
    (hw : 0 ≤ w) (hvw : v < w) : (g.withWeight v hv).rank < (g.withWeight w hw).rank := by
  have hweight : (v : Rat) < w := Int.cast_lt.mpr hvw
  have hplain (u : Int) (hu : 0 ≤ u) : (g.withWeight u hu).isEmergency = false := hweighted
  have hten {x y : Int} (hxy : (x : Rat) < y) : (toLex (4, -((11 - x : Int) : Rat)) : Int ×ₗ Rat) <
      toLex (4, -((11 - y : Int) : Rat)) := by
    refine Prod.Lex.toLex_lt_toLex.mpr (.inr ⟨rfl, ?_⟩)
    push_cast
    linarith
  have hbeyond {x y : Int} (hxy : (x : Rat) < y) :
      (toLex (6, -((100 - x : Int) : Rat)) : Int ×ₗ Rat) <
        toLex (6, -((100 - y : Int) : Rat)) := by
    refine Prod.Lex.toLex_lt_toLex.mpr (.inr ⟨rfl, ?_⟩)
    push_cast
    linarith
  simp only [rank, hplain, Bool.false_eq_true, if_false]
  show (if v ≤ 10 then _ else _) < (if w ≤ 10 then _ else _)
  -- Both on the scale of ten, only the lower one, only the higher one, neither.
  split_ifs with hvten hwten hwten
  · exact hten hweight
  · exact Prod.Lex.toLex_lt_toLex.mpr (.inl (show (4 : Int) < 6 by decide))
  · omega
  · exact hbeyond hweight

/-- The rank of the item of a budget with an id. Flexible categories come last. -/
def Budget.rankOf (b : Budget Rat) (id : String) : Int ×ₗ Rat :=
  (b.goals.get? id).elim (toLex (7, -1)) Goal.rank

/-- Another weight for one goal leaves the ranks of the others. -/
theorem Budget.rankOf_reweigh {b : Budget Rat} {id key : String} {weight : Int} {h : 0 ≤ weight}
    (hne : key ≠ id) : (b.reweigh id weight h).rankOf key = b.rankOf key := by
  rw [rankOf, rankOf, get?_reweigh]
  simp only [if_neg hne, Option.map_id']

namespace DeviationProgram

variable {p q : DeviationProgram Rat} {b : Budget Rat} {s : Scenario Rat} {ws : List Wish}

/-- The tier of a savings goal with its weight is its rank. -/
theorem goalTier_rank {g : Goal Rat} {tier : Int × Rat} (h : goalTier g = .ok tier) :
    (toLex (tier.1, -tier.2) : Int ×ₗ Rat) = g.rank := by
  unfold goalTier at h
  unfold Goal.rank
  split at h
  next hemergency =>
    cases h
    rw [if_pos hemergency]
  next hemergency =>
    rw [if_neg hemergency]
    split at h
    next hten =>
      cases h
      rw [if_pos hten]
    next hten =>
      cases h
      rw [if_neg hten]

/-- Goals that have the ranks of the items of a budget. -/
def Ranked (b : Budget Rat) (goals : List (DeviationGoal Rat)) : Prop :=
  ∀ g ∈ goals, g.rank = b.rankOf g.id

/-- A goal with the rank of its item may be added. -/
theorem Ranked.concat {goals : List (DeviationGoal Rat)} {g : DeviationGoal Rat}
    (h : Ranked b goals) (hg : g.rank = b.rankOf g.id) : Ranked b (goals ++ [g]) := by
  intro g' hg'
  rcases List.mem_append.mp hg' with hold | hnew
  · exact h g' hold
  · rw [List.mem_singleton.mp hnew]
    exact hg

/-- A draft with no goals yet, all of whose goals to come have the ranks of their items. -/
structure Draft.Ranked (b : Budget Rat) (d : Draft Rat) : Prop where
  goals : d.program.goals = []
  pending : DeviationProgram.Ranked b (d.pending.map fun g => g.2 g.1)

/-- Drafting a savings goal keeps the ranks. -/
theorem Draft.Ranked.draftGoal {factor : Rat} {d d' : Draft Rat} {e : String × Goal Rat}
    (h : d.Ranked b) (he : b.goals.get? e.1 = some e.2)
    (hd : draftGoal factor d e.1 e.2 = .ok d') : d'.Ranked b := by
  unfold DeviationProgram.draftGoal at hd
  split at hd
  next =>
    cases hd
    exact h
  next =>
    obtain ⟨v, _, hd⟩ := bind_eq_ok.mp hd
    obtain ⟨tier, htier, hd⟩ := bind_eq_ok.mp hd
    cases hd
    refine ⟨h.goals, ?_⟩
    rw [List.map_append, List.map_singleton]
    refine h.pending.concat ?_
    show toLex (tier.1, -tier.2) = b.rankOf e.1
    rw [Budget.rankOf, he, goalTier_rank htier]
    rfl

theorem Ranked.tierFlexible {level : Rat} {e : String × Category Rat} (h : Ranked b p.goals)
    (he : b.flexible.get? e.1 = some e.2) (hq : p.tierFlexible level e.1 e.2 = .ok q) :
    Ranked b q.goals := by
  have hnone : b.goals.get? e.1 = none :=
    Ledger.get?_eq_none_iff.mpr (b.goals_not_mem_flexible _ (Ledger.mem_keys_of_get? he))
  unfold DeviationProgram.tierFlexible at hq
  obtain ⟨v, _, hq⟩ := bind_eq_ok.mp hq
  rw [GoalProgram.goals_addItem hq]
  refine h.concat ?_
  show toLex (7, -1) = b.rankOf e.1
  rw [Budget.rankOf, hnone]
  rfl

/-- In the tiers of a budget every goal has the rank of its item. -/
theorem ranked_tiersOfBudget (hmandatory : b.mandatory = ∅) (hdebts : b.debts = ∅)
    (h : tiersOfBudget b s = .ok p) : Ranked b p.goals := by
  unfold tiersOfBudget at h
  rw [hmandatory, hdebts] at h
  simp only [Ledger.entries_sorted_empty, List.foldlM_nil, List.zipIdx_nil, pure_bind] at h
  obtain ⟨d, hdraft, h⟩ := bind_eq_ok.mp h
  obtain ⟨q, hgoals, hflexible⟩ := bind_eq_ok.mp h
  have hstart : Draft.Ranked b ⟨.ofIncome b.income, []⟩ := ⟨rfl, List.forall_mem_nil _⟩
  have hd : d.Ranked b := by
    refine foldlM_invariant (Draft.Ranked b) ?_ hstart hdraft
    intro e he d d' hd hstep
    exact hd.draftGoal (Ledger.get?_of_mem (Ledger.mem_entries_sorted.mp he)) hstep
  have hq : Ranked b q.goals := by
    rw [(addGoals_eq_ok hgoals).2, hd.goals, List.nil_append]
    exact hd.pending
  refine foldlM_invariant (fun q : DeviationProgram Rat => Ranked b q.goals) ?_ hq hflexible
  intro e he q q' hq hstep
  exact hq.tierFlexible (Ledger.get?_of_mem (Ledger.mem_entries_sorted.mp he)) hstep

end DeviationProgram

end GoalBudget
