import GoalBudget.Proofs.Allocation.Conservation
import GoalBudget.Proofs.Bucket.Outcome
import GoalBudget.Proofs.Deviation.Outcome
import GoalBudget.Proofs.Fuzzy.Outcome
import GoalBudget.Proofs.Ladder.Outcome

/-!
# When there is an allocation

Minimums are checked in several places: the commitments before anything else, without tolerance; the
flexible minimums by the strategy, against what the commitments leave of the income and with a
tolerance. The hybrid strategy checks both together on the whole budget, the others the flexible
minimums alone on the budget that is left to them, and this is the same (`propose_decided`).

Nothing else fails. Amounts can always be rounded, nothing negative is allocated
(`check_eq_ok_of_nonneg`), and the passes find every item that they look up and never divide by a
sum of weights that is zero (`Pools.Defined`).

The last is stated of its own because the definitions do not show it: a lookup that finds nothing
has a default, and a division by zero is zero with exact numbers. `Pools.Defined` says that neither
is used.

Main result: `solve_outcome`, three cases that exclude each other.
-/

namespace GoalBudget

variable {a : Allocator Rat} {b : Budget Rat} {s : Scenario Rat}

/-! ## The budget left to a strategy -/

namespace Allocator

/-- There is always a budget left. -/
theorem exists_reduced (b : Budget Rat) : ∃ r, reduced b = .ok r := by
  have hsurplus : ¬b.surplus < 0 := by
    rw [Budget.surplus, greatest_eq_max]
    exact not_lt.mpr (le_max_left _ _)
  -- the ids that stay are among those that are distinct
  have hids : sharedIds [] [[], b.flexible.keys, [], b.goals.keys] = none := by
    refine sharedIds_of_disjoint (by simp) (sharedIds_of_disjoint (by simp)
      (sharedIds_of_disjoint (by simp) (sharedIds_of_disjoint (fun id hid => ?_) rfl)))
    simp only [List.nil_append, List.append_nil] at hid
    exact b.goals_not_mem_flexible id hid
  unfold reduced Budget.make requireNonNegative
  rw [dif_neg hsurplus]
  refine exists_bind rfl ?_
  dsimp only
  split
  next ids hshared => cases hshared.symm.trans hids
  next => exact ⟨_, rfl⟩

/-- What is left to a strategy: what the commitments leave of the income, and the same flexible
categories. -/
theorem checkFloor_reduced {r : Budget Rat} (hshortfall : b.shortfall? = none)
    (hr : reduced b = .ok r) :
    checkFloor r r.income = checkFloor b (b.income - b.committed) := by
  obtain ⟨hincome, _, _, hflexible, _⟩ := reduced_spec hr
  rw [checkFloor, checkFloor, flexibleFloor, flexibleFloor, hflexible, hincome,
    surplus_eq hshortfall]

/-- A strategy on the budget that is left, if it can make its program of every budget and solving
the program can only fail in the check of the lower bounds. -/
theorem reduced_decided {γ τ : Type} [Scores γ]
    {build : Budget Rat → Except (Fault Rat) (GoalProgram Rat γ)}
    {run : GoalProgram Rat γ → Except (Fault Rat) τ} (hshortfall : b.shortfall? = none)
    (hbuild : ∀ r, ∃ p, build r = .ok p)
    (hadds : ∀ r p, r.mandatory = ∅ → r.debts = ∅ → build r = .ok p →
      GoalProgram.Adds (.ofIncome r.income) p (0 + flexibleFloor r))
    (hrun : ∀ p, 0 ≤ p.income → DecidedBy (checkMinimums p.vars p.income) (run p)) :
    DecidedBy (checkFloor b (b.income - b.committed)) (reduced b >>= fun r => build r >>= run) := by
  obtain ⟨r, hr⟩ := exists_reduced b
  obtain ⟨p, hp⟩ := hbuild r
  obtain ⟨_, hmandatory, hdebts, _, _⟩ := reduced_spec hr
  have hadded := hadds r p hmandatory hdebts hp
  have hincome : 0 ≤ p.income := hadded.income ▸ not_lt.mp r.income_nonneg
  have hdecided := hrun p hincome
  rw [checkMinimums_of_adds hadded, checkFloor_reduced hshortfall hr] at hdecided
  exact .after hr (.after hp hdecided)

/-- A strategy fails when the flexible minimums do not fit into what the commitments leave of the
income, and never else. -/
theorem propose_decided (hstrategy : a.strategy ≠ .linear)
    (hbackends : a.strategy = .fuzzy ∨ a.strategy = .ladder → AnswersAsScripted a.backends)
    (hshortfall : b.shortfall? = none) :
    DecidedBy (checkFloor b (b.income - b.committed)) (a.propose b s) := by
  unfold propose
  split
  next => exact (Hybrid.solve_decided b s).before fun r _ => ⟨_, rfl⟩
  next hfuzzy =>
    refine reduced_decided hshortfall (fun r => FuzzyProgram.exists_ofBudget r s)
      (fun r p => FuzzyProgram.adds_ofBudget) fun p hincome => ?_
    exact (FuzzyProgram.solve_decided hincome (hbackends (.inl hfuzzy))).before
      fun result _ => ⟨_, rfl⟩
  next hladder =>
    refine reduced_decided hshortfall (fun r => LadderProgram.exists_ofBudget r s)
      (fun r p => LadderProgram.adds_ofBudget) fun p hincome => ?_
    exact (LadderProgram.solve_decided hincome (hbackends (.inr hladder))).before
      fun result _ => ⟨_, rfl⟩
  next =>
    refine reduced_decided hshortfall (fun r => DeviationProgram.exists_tiersOfBudget r s)
      (fun r p => DeviationProgram.adds_tiersOfBudget) fun p _ => ?_
    exact DeviationProgram.solvePreemptive_decided.before fun result _ => ⟨_, rfl⟩
  next hlinear => exact absurd hlinear hstrategy

/-! ## From a proposal to an allocation -/

/-- An exact amount can always be rounded. -/
theorem exists_roundToUnit (amount : Rat) (unit : Option Rat) :
    ∃ rounded, roundToUnit amount unit = .ok rounded := by
  unfold roundToUnit
  cases unit with
  | none => exact ⟨_, rfl⟩
  | some u =>
    dsimp only
    split
    next => exact ⟨_, rfl⟩
    next =>
      rw [isUndefined_rat, isInfinite_rat]
      exact ⟨_, rfl⟩

/-- Entries that can each be changed can be changed together. -/
theorem exists_mapEntries {β : Type} {f : String → β → Except (Fault Rat) Rat}
    (h : ∀ key x, ∃ y, f key x = .ok y) (l : Ledger β) : ∃ m, mapEntries f l = .ok m := by
  unfold mapEntries
  refine exists_bind_of_forall (exists_mapM_eq_ok fun e _ => ?_) fun entries => ⟨_, rfl⟩
  exact exists_bind_of_forall (h e.1 e.2) fun y => ⟨_, rfl⟩

/-- The flexible amounts are always defined. -/
theorem exists_flexibleAmounts (a : Allocator Rat) (b : Budget Rat) (values : Ledger Rat) :
    ∃ l, a.flexibleAmounts b values = .ok l := by
  refine exists_mapEntries (fun key c => ?_) _
  exact exists_bind_of_forall (exists_roundToUnit _ _) fun rounded => ⟨_, rfl⟩

theorem exists_goalAmounts (a : Allocator Rat) (b : Budget Rat) (values : Ledger Rat) :
    ∃ l, a.goalAmounts b values = .ok l := by
  refine exists_mapEntries (fun key g => ?_) _
  exact exists_bind_of_forall (exists_roundToUnit _ _) fun rounded => ⟨_, rfl⟩

/-- An allocation with nothing negative passes its check. -/
theorem check_eq_ok_of_nonneg {r : Allocation Rat} (hcategories : ∀ x ∈ r.categories.values, 0 ≤ x)
    (hgoals : ∀ x ∈ r.goals.values, 0 ≤ x) (hdebts : ∀ p ∈ r.debts.values, 0 ≤ p.total) :
    r.check = .ok r := by
  have hleeway {x : Rat} (hx : 0 ≤ x) : ¬Allocation.isNegative x = true := by
    have hlt : (-1e-9 : Rat) < 0 := by norm_num
    exact fun h => not_lt.mpr (hlt.le.trans hx) (of_decide_eq_true h)
  have hamounts : (r.categories.merge r.goals).entries.find?
      (fun e => Allocation.isNegative e.2) = none := by
    rw [List.find?_eq_none]
    intro e he
    rcases Ledger.mem_entries_foldl_insert he with hmem | hmem
    · exact hleeway (hcategories e.2 (List.mem_map_of_mem hmem))
    · exact hleeway (hgoals e.2 (List.mem_map_of_mem hmem))
  have hpayments : r.debts.entries.find? (fun e => Allocation.isNegative e.2.total) = none := by
    rw [List.find?_eq_none]
    exact fun e he => hleeway (hdebts e.2 (List.mem_map_of_mem he))
  rw [Allocation.check, hamounts]
  dsimp only
  rw [hpayments]

/-- Nothing negative is paid to a debt. -/
theorem payments_nonneg {extra : Ledger Rat} (h : ∀ key x, extra.get? key = some x → 0 ≤ x)
    (p : Payment Rat) (hp : p ∈ (payments b extra).values) : 0 ≤ p.total := by
  obtain ⟨⟨key, p⟩, he, rfl⟩ := List.mem_map.mp hp
  have hmem : key ∈ (payments b extra).keys := List.mem_map_of_mem he
  rw [keys_payments, Ledger.keys_sorted_perm.mem_iff] at hmem
  obtain ⟨d, hd⟩ := Ledger.mem_keys_iff.mp hmem
  have htotal := total_payments hd (Ledger.get?_of_mem he)
  exact htotal ▸ add_nonneg d.scheduledPayment_nonneg (Ledger.getD_nonneg (h key))

/-- Nothing negative is given to a category. -/
theorem categories_nonneg {p : Pools Rat} (h : p.Within b) (x : Rat)
    (hx : x ∈ ((b.mandatory.sorted.map fun _ c => c.minimum).merge p.flexible).values) :
    0 ≤ x := by
  obtain ⟨e, he, rfl⟩ := List.mem_map.mp hx
  rcases Ledger.mem_entries_foldl_insert he with hmem | hmem
  · obtain ⟨e', _, rfl⟩ := List.mem_map.mp hmem
    exact not_lt.mp e'.2.minimum_nonneg
  · exact h.flexible_nonneg e.2 (List.mem_map_of_mem hmem)

/-- Where the commitments fit into the income, an allocation fails when the flexible minimums do
not fit into what is left, and never else. -/
theorem solve_decided (hstrategy : a.strategy ≠ .linear)
    (hunit : ∀ u ∈ a.roundingUnit, 0 < u)
    (hbackends : a.strategy = .fuzzy ∨ a.strategy = .ladder → AnswersAsScripted a.backends)
    (hshortfall : b.shortfall? = none) :
    DecidedBy (checkFloor b (b.income - b.committed)) (a.solve b s) := by
  have hlp : a.HasSoundLp := fun hlinear => absurd hlinear hstrategy
  unfold solve
  rw [hshortfall]
  refine (propose_decided hstrategy hbackends hshortfall).before fun proposal hproposal => ?_
  obtain ⟨flexible, hflexible⟩ := a.exists_flexibleAmounts b proposal.values
  obtain ⟨goals, hgoals⟩ := a.exists_goalAmounts b proposal.values
  have hfits := propose_fits hlp hproposal
  have hstart : Pools.Within b ⟨flexible, goals⟩ :=
    within_start hunit (fun key _ => hfits.getD_nonneg key) hflexible hgoals
  refine exists_bind hflexible (exists_bind hgoals ?_)
  have hend := within_normalize (s := s)
    (total (b.mandatory.sorted.map fun _ c => c.minimum).values +
      total ((payments b proposal.debtExtra).values.map (·.total))) maxPasses hstart
  refine ⟨_, check_eq_ok_of_nonneg (categories_nonneg hend) hend.goals_nonneg ?_⟩
  refine payments_nonneg fun key x hx => ?_
  obtain ⟨_, _, _, hnonneg, _⟩ := hfits.debtExtra key x hx
  exact hnonneg

end Allocator

/-! ## Lookups and quotients of the passes -/

/-- What the passes look up and divide by is there: every amount belongs to an item of the budget,
every entry with room has an amount, and the weights of the entries with room do not add up to
zero. -/
structure Pools.Defined (b : Budget Rat) (s : Scenario Rat) (p : Pools Rat) : Prop where
  goals : ∀ key ∈ p.goals.keys, ∃ g, b.goals.get? key = some g
  flexible : ∀ key ∈ p.flexible.keys, ∃ c, b.flexible.get? key = some c
  goalRoom : ∀ key ∈ (goalRoom b p.goals).keys, key ∈ p.goals.keys
  flexibleRoom : ∀ key ∈ (flexibleRoom b s p.flexible).keys, key ∈ p.flexible.keys
  goalWeights : (GoalBudget.goalRoom b p.goals).entries ≠ [] →
    total (spreadWeights p.goals (GoalBudget.goalRoom b p.goals)).values ≠ 0
  flexibleWeights : (GoalBudget.flexibleRoom b s p.flexible).entries ≠ [] →
    total (spreadWeights p.flexible (GoalBudget.flexibleRoom b s p.flexible)).values ≠ 0

/-- Amounts within their bounds are looked up and shared without defaults. -/
theorem Pools.Within.defined {p : Pools Rat} (h : p.Within b) : p.Defined b s where
  goals key hkey := by
    obtain ⟨x, hx⟩ := Ledger.mem_keys_iff.mp hkey
    obtain ⟨g, hg, _⟩ := h.goal_of_get? hx
    exact ⟨g, hg⟩
  flexible key hkey := by
    obtain ⟨x, hx⟩ := Ledger.mem_keys_iff.mp hkey
    obtain ⟨c, hc, _⟩ := h.category_of_get? hx
    exact ⟨c, hc⟩
  goalRoom := keys_goalRoom_subset
  flexibleRoom := keys_flexibleRoom_subset
  goalWeights hne := by
    rw [total_eq_sum]
    exact (sum_spreadWeights_pos hne).ne'
  flexibleWeights hne := by
    rw [total_eq_sum]
    exact (sum_spreadWeights_pos hne).ne'

namespace Allocator

/-- The allocator fails in two cases and no others. When the commitments exceed the income, the
fault carries by how much; when commitments and flexible minimums together exceed it by more than
a hundredth, by how much these do. Else there is an allocation, extra payments go to debts that
there are, and whatever number of passes has been made, the next one finds all it needs. -/
theorem solve_outcome (hstrategy : a.strategy ≠ .linear)
    (hunit : ∀ u ∈ a.roundingUnit, 0 < u)
    (hbackends : a.strategy = .fuzzy ∨ a.strategy = .ladder → ∀ n backend,
      a.backends n = some backend → ∃ status solution, backend = .scripted status solution n) :
    (b.income < b.committed →
      a.solve b s = .error (.infeasibleMinimums (b.committed - b.income))) ∧
    (b.committed ≤ b.income → b.income + 0.01 < b.committed + flexibleFloor b →
      a.solve b s = .error (.infeasibleMinimums (b.committed + flexibleFloor b - b.income))) ∧
    (b.committed ≤ b.income → b.committed + flexibleFloor b ≤ b.income + 0.01 →
      ∃ r proposal start, a.solve b s = .ok r ∧ a.Run b s r proposal start ∧
        (∀ key ∈ proposal.debtExtra.keys, key ∈ b.debts.keys) ∧
        ∀ passes,
          (normalize b s (settledFirst b proposal.debtExtra) passes start).Defined b s) := by
  have hlp : a.HasSoundLp := fun hlinear => absurd hlinear hstrategy
  refine ⟨fun hshort => ?_, fun hcommitted hfloor => ?_, fun hcommitted hfloor => ?_⟩
  · have hshortfall : b.shortfall? = some (b.committed - b.income) := if_pos hshort
    rw [solve, hshortfall]
    rfl
  · have hshortfall : b.shortfall? = none := if_neg (not_lt.mpr hcommitted)
    -- The tolerance is on the check of the floor, not on that of the fixed costs.
    have hcheck : checkFloor b (b.income - b.committed) =
        .error (.infeasibleMinimums (b.committed + flexibleFloor b - b.income)) := by
      have hdeficit : flexibleFloor b - (b.income - b.committed) =
          b.committed + flexibleFloor b - b.income := by ring
      rw [checkFloor, deviationTolerance, if_pos (by linarith), hdeficit]
    exact (solve_decided hstrategy hunit hbackends hshortfall).fault _ hcheck
  · have hshortfall : b.shortfall? = none := if_neg (not_lt.mpr hcommitted)
    have hcheck : checkFloor b (b.income - b.committed) = .ok () := by
      rw [checkFloor, deviationTolerance, if_neg (by linarith)]
    obtain ⟨r, hr⟩ := (solve_decided hstrategy hunit hbackends hshortfall).result hcheck
    obtain ⟨proposal, start, hrun⟩ := solve_eq_ok hr
    refine ⟨r, proposal, start, hr, hrun, ?_, fun passes => ?_⟩
    · exact fun key hkey => keys_debtExtra (propose_fits hlp hrun.proposed) hkey
    · exact (within_normalize _ passes (hrun.within_start hlp hunit)).defined

/-- The household of before with another income. -/
def earning (income : Rat) (h : ¬income < 0) : Budget Rat :=
  { household with income := income, income_nonneg := h }

/-- An allocator that rounds to sevens and asks a backend, which knows the target of the trip and
a middle amount for food. -/
def asking : Allocator Rat :=
  { bySevens .fuzzy with backends := fun n => some (.scripted .optimal [100, 125] n) }

/-- The three cases, with incomes that fall short of the commitments, of the minimums, and of
nothing. -/
theorem solve_outcome_households :
    asking.solve (earning 300 (by decide)) halfway = .error (.infeasibleMinimums 20) ∧
      asking.solve (earning 340 (by decide)) halfway = .error (.infeasibleMinimums 30) ∧
      ∃ r, asking.solve household halfway = .ok r := by
  have hunit : ∀ u ∈ asking.roundingUnit, 0 < u := by
    rintro u ⟨⟩
    norm_num
  have hbackends : ∀ n backend, asking.backends n = some backend →
      ∃ status solution, backend = .scripted status solution n := by
    rintro n _ ⟨⟩
    exact ⟨.optimal, [100, 125], rfl⟩
  obtain ⟨hshort, _, _⟩ := solve_outcome (a := asking) (b := earning 300 (by decide))
    (s := halfway) nofun hunit fun _ => hbackends
  obtain ⟨_, htight, _⟩ := solve_outcome (a := asking) (b := earning 340 (by decide))
    (s := halfway) nofun hunit fun _ => hbackends
  obtain ⟨_, _, hfine⟩ := solve_outcome (a := asking) (b := household) (s := halfway) nofun
    hunit fun _ => hbackends
  refine ⟨?_, ?_, ?_⟩
  · have hdeficit : (earning 300 (by decide)).committed - 300 = 20 := by decide +kernel
    rw [← hdeficit]
    exact hshort (by decide +kernel)
  · have hdeficit : (earning 340 (by decide)).committed +
        flexibleFloor (earning 340 (by decide)) - 340 = 30 := by decide +kernel
    rw [← hdeficit]
    exact htight (by decide +kernel) (by decide +kernel)
  · obtain ⟨r, _, _, hr, _⟩ := hfine (by decide +kernel) (by decide +kernel)
    exact ⟨r, hr⟩

end Allocator

end GoalBudget
