import GoalBudget.Proofs.Ladder.Consultation
import GoalBudget.Proofs.Ladder.Tiers

/-!
# The greedy run over ladders leaves nothing it could pay for

The money that is left and the amount of a variable make up the most that the variable can still
reach. No purchase raises that for any variable, its own included, and none lowers an amount
(`Funds.Grows`). So a level that a variable has or that is beyond its reach stays so whatever is
bought later, on the same variable or on others (`Exhausted.grows`), and after a goal's turn this is
said of all levels that the bound admits (`exhausted_takeTurn`).

So when all goals of a tier had their turns there is no upgrade to buy (`upgrade_of_exhausted`), and
the whole run is one turn for each goal (`serveTiers_eq_takeTurns`). Several goals may share a
variable; the goal whose turn comes later starts from what the earlier ones have taken.

The levels have to be in order for this, as they are when goals are made by the checks of the
library (`LadderGoal.ascending_of_checkLevels`): the search ends at a level that the variable has
already, and only in order are the levels below it settled, too.

Main result: `greedy_exhausts`.
-/

namespace GoalBudget

namespace Funds

variable {f f' : Funds Rat} {i : Nat} {value : Rat}

/-- Whether a variable has a value or cannot be paid up to it. -/
def Settles (f : Funds Rat) (i : Nat) (value : Rat) : Prop :=
  value ≤ f.amount i ∨ f.left < value - f.amount i

/-- A level that is settled stays so. -/
theorem Settles.grows (h : f.Settles i value) (hgrows : f.Grows f') : f'.Settles i value := by
  rcases h with hhas | hbeyond
  · exact .inl (hhas.trans (hgrows.amount_le i))
  · have hreach := hgrows.reach_le i
    exact .inr (by linarith)

end Funds

/-- A ladder that passes the check is in ascending order. -/
theorem LadderGoal.ascending_of_checkLevels {id : String} {levels sorted : List (Level Rat)}
    (h : checkLevels id levels = .ok sorted) : sorted.Pairwise (·.value ≤ ·.value) := by
  unfold checkLevels at h
  split at h
  next => cases h
  next =>
    cases h
    rw [sortLevels, byAscending, if_neg (by simp)]
    refine List.Pairwise.imp (fun hab => ?_) (List.pairwise_mergeSort ?_ ?_ levels)
    · simpa using hab
    · intro a b c hab hbc
      simp only [Bool.not_eq_true', decide_eq_false_iff_not, not_lt] at hab hbc ⊢
      exact hab.trans hbc
    · intro a b
      simpa using le_total a.value b.value

/-- A ladder in ascending order passes the check as it is. -/
theorem LadderGoal.checkLevels_of_ascending (id : String) {levels : List (Level Rat)}
    (hlevels : levels ≠ []) (hsorted : levels.Pairwise (·.value ≤ ·.value)) :
    checkLevels id levels = .ok levels := by
  have hsame : sortLevels levels = levels := by
    rw [sortLevels, byAscending, if_neg (by simp)]
    exact List.mergeSort_of_pairwise (hsorted.imp fun hab => by simpa using hab)
  rw [checkLevels, if_neg (by simpa using hlevels), hsame]

namespace LadderProgram

variable {p : LadderProgram Rat} {money : Rat} {f f' : Funds Rat} {i : Nat} {g : LadderGoal Rat}
  {goals tier : List (LadderGoal Rat)}

/-- A bound admits a level that it exceeds, but for the tolerance. -/
theorem admits_iff {l : Level Rat} {v : Variable Rat} (hv : p.vars[i]? = some v) :
    p.admits i l = true ↔ (v.isBounded = true → l.value ≤ v.maximum + levelTolerance) := by
  rw [admits, hv]
  show (!(v.isBounded && decide (v.maximum + levelTolerance < l.value))) = true ↔ _
  cases v.isBounded with
  | false => simp
  | true => simp

/-! ## Turns -/

/-- A turn raises the goal's variable, or nothing. -/
theorem grows_takeHighest {levels : List (Level Rat)} (hi : i < f.amounts.length) :
    f.Grows (p.takeHighest i f levels) := by
  induction levels with
  | nil => exact .refl f
  | cons l lower ih =>
    unfold takeHighest
    dsimp only
    split
    next => exact ih
    next =>
      split
      next => exact .refl f
      next hneeded =>
        split
        next =>
          rw [Funds.raiseTo_eq_give hi]
          exact Funds.grows_give hi (not_le.mp hneeded).le
        next => exact ih

/-- Whether the variable of a goal has every level that its bound admits, or cannot be paid up
to it. -/
def Exhausted (p : LadderProgram Rat) (f : Funds Rat) (g : LadderGoal Rat) : Prop :=
  ∀ l ∈ g.levels, p.admits g.index l = true → f.Settles g.index l.value

/-- A ladder that is exhausted stays so. -/
theorem Exhausted.grows (h : p.Exhausted f g) (hgrows : f.Grows f') : p.Exhausted f' g :=
  fun l hl hadmits => (h l hl hadmits).grows hgrows

/-- By induction on the levels from the highest one down. Where the search ends with a level that
the variable has, it has all lower ones. -/
theorem settles_takeHighest {levels : List (Level Rat)} (hi : i < f.amounts.length)
    (hsorted : levels.Pairwise fun a b => b.value ≤ a.value) :
    ∀ l ∈ levels, p.admits i l = true → (p.takeHighest i f levels).Settles i l.value := by
  induction levels with
  | nil => exact fun l hl => absurd hl List.not_mem_nil
  | cons highest lower ih =>
    obtain ⟨hhighest, hlower⟩ := List.pairwise_cons.mp hsorted
    have hle (l : Level Rat) (hl : l ∈ highest :: lower) : l.value ≤ highest.value := by
      rcases List.mem_cons.mp hl with rfl | hl
      · exact le_refl _
      · exact hhighest l hl
    unfold takeHighest
    dsimp only
    split
    -- The highest level is not admitted: the choice is that of the lower ones.
    next hbound =>
      intro l hl hadmits
      rcases List.mem_cons.mp hl with rfl | hl
      · rw [hadmits] at hbound
        cases hbound
      · exact ih hlower l hl hadmits
    next =>
      split
      -- It is held already, and with it every level below.
      next hhas => exact fun l hl _ => .inl ((hle l hl).trans (sub_nonpos.mp hhas))
      -- It is affordable: the variable rises to it, past every level below.
      next =>
        split
        next =>
          intro l hl _
          refine .inl ((hle l hl).trans ?_)
          rw [Funds.raiseTo_eq_give hi, Funds.amount_give hi, if_pos rfl, add_sub_cancel]
        -- It is beyond what is left. What the lower levels take leaves even less, so it stays
        -- beyond.
        next hbeyond =>
          intro l hl hadmits
          rcases List.mem_cons.mp hl with rfl | hl
          · exact Funds.Settles.grows (.inr (not_le.mp hbeyond)) (grows_takeHighest hi)
          · exact ih hlower l hl hadmits

/-- A turn exhausts the ladder. -/
theorem exhausted_takeTurn (hi : g.index < f.amounts.length)
    (hsorted : g.levels.Pairwise (·.value ≤ ·.value)) : p.Exhausted (p.takeTurn f g) g :=
  fun l hl => settles_takeHighest hi (List.pairwise_reverse.mpr hsorted) l (List.mem_reverse.mpr hl)

/-- Goals that take turns one after the other. -/
def takeTurns (p : LadderProgram Rat) (f : Funds Rat) (goals : List (LadderGoal Rat)) :
    Funds Rat :=
  goals.foldl p.takeTurn f

/-- Turns can be taken in parts. -/
theorem takeTurns_append (goals later : List (LadderGoal Rat)) :
    p.takeTurns f (goals ++ later) = p.takeTurns (p.takeTurns f goals) later :=
  List.foldl_append ..

section
variable (h : f.Sound p.vars levelTolerance money)
include h

/-- A turn takes nothing away. -/
theorem grows_takeTurn (hg : g ∈ p.goals) : f.Grows (p.takeTurn f g) :=
  grows_takeHighest (h.length ▸ p.index_lt g hg)

/-- Turns keep the state sound. -/
theorem sound_takeTurns (hgoals : ∀ g ∈ goals, g ∈ p.goals) :
    (p.takeTurns f goals).Sound p.vars levelTolerance money :=
  List.foldlRecOn _ _ (motive := fun f : Funds Rat => f.Sound p.vars levelTolerance money) h
    fun _ hf g hg => sound_takeHighest hf (p.index_lt g (hgoals g hg))

/-- The turn of a further goal lowers no variable. -/
theorem amount_le_takeTurns_concat (hgoals : ∀ g' ∈ goals ++ [g], g' ∈ p.goals) (i : Nat) :
    (p.takeTurns f goals).amount i ≤ (p.takeTurns f (goals ++ [g])).amount i := by
  have hsound := sound_takeTurns h fun g' hg' => hgoals g' (List.mem_append_left _ hg')
  have hg : g ∈ p.goals := hgoals g (List.mem_append_right _ (List.mem_singleton_self g))
  rw [takeTurns_append]
  exact (grows_takeTurn hsound hg).amount_le i

/-- By induction on the goals: after its own turn a goal is exhausted, and stays so in the turns
of the later ones. -/
theorem exhausted_takeTurns (hgoals : ∀ g ∈ goals, g ∈ p.goals)
    (hsorted : ∀ g ∈ goals, g.levels.Pairwise (·.value ≤ ·.value)) :
    ∀ g ∈ goals, p.Exhausted (p.takeTurns f goals) g := by
  induction goals using List.reverseRecOn with
  | nil => exact fun g hg => absurd hg List.not_mem_nil
  | append_singleton before last ih =>
    have hbefore (g : LadderGoal Rat) (hg : g ∈ before) := List.mem_append_left [last] hg
    have hlast : last ∈ before ++ [last] := List.mem_append_right _ (List.mem_singleton_self _)
    have hsound := sound_takeTurns h fun g hg => hgoals g (hbefore g hg)
    rw [takeTurns_append]
    intro g hg
    rcases List.mem_append.mp hg with hg | hg
    · have hexhausted := ih (fun g hg => hgoals g (hbefore g hg))
        (fun g hg => hsorted g (hbefore g hg)) g hg
      exact hexhausted.grows (grows_takeTurn hsound (hgoals last hlast))
    · rw [List.mem_singleton.mp hg]
      exact exhausted_takeTurn (hsound.length ▸ p.index_lt last (hgoals last hlast))
        (hsorted last hlast)

end

/-! ## Upgrades -/

/-- The next level of an exhausted goal is beyond the bound or not affordable. -/
theorem considerUpgrade_of_exhausted (h : p.Exhausted f g) (best : Option (Upgrade Rat)) :
    p.considerUpgrade f best g = .ok best := by
  unfold considerUpgrade
  dsimp only
  split
  next => rfl
  next next hnext =>
    have hfound := List.find?_some hnext
    have hgap : f.amount g.index + levelTolerance < next.value := of_decide_eq_true hfound
    have htolerance := levelTolerance_nonneg
    split
    next => rfl
    next hadmits =>
      have hcost : f.left < next.value - f.amount g.index := by
        rcases h next (List.mem_of_find?_eq_some hnext) (by simpa using hadmits) with hhas | hbeyond
        · linarith
        · exact hbeyond
      rw [decide_eq_false (not_le.mpr hcost), Bool.false_and, if_neg Bool.false_ne_true]
      rfl

/-- Where all ladders are exhausted no upgrade is bought. -/
theorem upgrade_of_exhausted (h : ∀ g ∈ tier, p.Exhausted f g) (made rounds : Nat) :
    p.upgrade tier made rounds f = .ok (made, f) := by
  have hbest : tier.foldlM (p.considerUpgrade f) none = .ok none := by
    induction tier with
    | nil => rfl
    | cons g rest ih =>
      rw [List.foldlM_cons, considerUpgrade_of_exhausted (h g (List.mem_cons_self ..))]
      exact ih fun g hg => h g (List.mem_cons_of_mem _ hg)
  cases rounds with
  | zero => rfl
  | succ rounds =>
    rw [upgrade, hbest]
    rfl

/-! ## The run -/

/-- The goals in the order of their turns: tier by tier, each by descending weight. -/
def turnOrder (ts : List (Int × List (LadderGoal Rat))) : List (LadderGoal Rat) :=
  ts.flatMap fun tier => byDescending (·.weight) tier.2

theorem mem_turnOrder {ts : List (Int × List (LadderGoal Rat))} :
    g ∈ turnOrder ts ↔ ∃ tier ∈ ts, g ∈ tier.2 := by
  simp only [turnOrder, List.mem_flatMap, (byDescending_perm _ _).mem_iff]

theorem mem_goals_of_mem_order (htier : ∀ g ∈ tier, g ∈ p.goals) :
    ∀ g ∈ byDescending (·.weight) tier, g ∈ p.goals :=
  fun g hg => htier g ((byDescending_perm _ _).mem_iff.mp hg)

section
variable (hsorted : ∀ g ∈ p.goals, g.levels.Pairwise (·.value ≤ ·.value))
include hsorted

/-- Serving a tier is one turn for each of its goals. -/
theorem serveTier_eq_takeTurns {state : Nat × Funds Rat}
    (h : state.2.Sound p.vars levelTolerance money) (htier : ∀ g ∈ tier, g ∈ p.goals) :
    p.serveTier state tier =
      .ok (state.1 + tier.length, p.takeTurns state.2 (byDescending (·.weight) tier)) := by
  have horder := mem_goals_of_mem_order htier
  have hexhausted := exhausted_takeTurns h horder fun g hg => hsorted g (horder g hg)
  have hnothing := upgrade_of_exhausted hexhausted 0 500
  rw [serveTier]
  refine bind_eq_ok.mpr ⟨_, hnothing, ?_⟩
  rw [(byDescending_perm _ tier).length_eq]
  rfl

/-- By induction on the tiers. -/
theorem serveTiers_eq_takeTurns {state : Nat × Funds Rat} {ts : List (Int × List (LadderGoal Rat))}
    (h : state.2.Sound p.vars levelTolerance money)
    (hts : ∀ tier ∈ ts, ∀ g ∈ tier.2, g ∈ p.goals) :
    p.serveTiers state ts =
      .ok (state.1 + (turnOrder ts).length, p.takeTurns state.2 (turnOrder ts)) := by
  induction ts generalizing state with
  | nil => rfl
  | cons tier rest ih =>
    have htier := hts tier (List.mem_cons_self ..)
    have hserved := serveTier_eq_takeTurns hsorted h htier
    have hsound := sound_takeTurns h (mem_goals_of_mem_order htier)
    rw [serveTiers, List.foldlM_cons, bind_of_eq_ok hserved]
    refine (ih hsound fun tier hmem => hts tier (List.mem_cons_of_mem _ hmem)).trans ?_
    have hfirst : turnOrder (tier :: rest) = byDescending (·.weight) tier.2 ++ turnOrder rest :=
      List.flatMap_cons
    rw [hfirst, List.length_append, takeTurns_append, (byDescending_perm _ tier.2).length_eq,
      Nat.add_assoc]

/-- However many tiers were served before, there is no upgrade to buy after the turns of the next
one. -/
theorem upgrade_takeTurns {ts : List (Int × List (LadderGoal Rat))}
    {last : Int × List (LadderGoal Rat)} (h : f.Sound p.vars levelTolerance money)
    (hts : ∀ tier ∈ ts ++ [last], ∀ g ∈ tier.2, g ∈ p.goals) :
    ∃ state, p.serveTiers (0, f) ts = .ok state ∧
      let order := byDescending (·.weight) last.2
      let served := p.takeTurns state.2 order
      p.upgrade order 0 500 served = .ok (0, served) := by
  have hbefore (tier : Int × List (LadderGoal Rat)) (htier : tier ∈ ts) :=
    hts tier (List.mem_append_left _ htier)
  have hlast := mem_goals_of_mem_order
    (hts last (List.mem_append_right _ (List.mem_singleton_self last)))
  have hsound : (p.takeTurns f (turnOrder ts)).Sound p.vars levelTolerance money := by
    refine sound_takeTurns h fun g hg => ?_
    obtain ⟨tier, htier, hg⟩ := mem_turnOrder.mp hg
    exact hbefore tier htier g hg
  have hexhausted := exhausted_takeTurns hsound hlast fun g hg => hsorted g (hlast g hg)
  exact ⟨_, serveTiers_eq_takeTurns hsorted h hbefore, upgrade_of_exhausted hexhausted 0 500⟩

end

theorem turnOrder_perm (p : LadderProgram Rat) :
    (turnOrder (tiers (·.priority) p.goals)).Perm p.goals := by
  rw [turnOrder, flatMap_tiers]
  exact List.mergeSort_perm _ _

/-- What a result says of the solution that it was made from. -/
theorem summarize_reads {solution : List Rat} {method : Method} {iterations : Nat}
    {r : LadderResult Rat} (h : p.summarize solution method iterations = .ok r) :
    r.iterations = iterations ∧ r.method = method ∧
      r.isFeasible = decide (solution.sum ≤ p.income + deviationTolerance) := by
  obtain ⟨_, _, h⟩ := bind_eq_ok.mp h
  cases h
  rw [← total_eq_sum]
  exact ⟨rfl, rfl, rfl⟩

/-- The greedy run of a program with an income for its lower bounds. It is one turn for each goal,
none of which lowers a variable, and after the turns of a tier there is no upgrade to buy. At the
end the variables are within their bounds, but for the tolerance, and make up the income together
with what is left; and of every goal each level that the bound admits is reached, or costs more
than what is left. -/
theorem greedy_exhausts (hincome : 0 < p.income) (hminimums : sumOfMinimums p.vars ≤ p.income)
    (hladders : ∀ g ∈ p.goals, ∃ levels, LadderGoal.checkLevels g.id levels = .ok g.levels) :
    let ts := tiers (·.priority) p.goals
    ∃ start f r, startAtMinimums p.vars p.income = .ok (start.amounts, start.left) ∧
      p.greedy = .ok (p.goals.length, f) ∧
      f = p.takeTurns start (turnOrder ts) ∧
      (∀ before g, before ++ [g] <+: turnOrder ts → ∀ i,
        (p.takeTurns start before).amount i ≤ (p.takeTurns start (before ++ [g])).amount i) ∧
      (∀ before tier, before ++ [tier] <+: ts →
        ∃ state, p.serveTiers (0, start) before = .ok state ∧
          let order := byDescending (·.weight) tier.2
          let served := p.takeTurns state.2 order
          p.upgrade order 0 500 served = .ok (0, served)) ∧
      f.Sound p.vars levelTolerance p.income ∧
      (∀ g ∈ p.goals, ∀ v, p.vars[g.index]? = some v → ∀ l ∈ g.levels,
        (v.isBounded = true → l.value ≤ v.maximum + levelTolerance) →
        l.value ≤ f.amount g.index ∨ f.left < l.value - f.amount g.index) ∧
      p.solveGreedily = .ok r ∧ (p.vars ≠ [] → p.solve (fun _ => none) = .ok r) ∧
      r.variableValues = p.valuesById f.amounts ∧ r.isFeasible = true ∧
      r.iterations = p.goals.length := by
  intro ts
  have hsorted (g : LadderGoal Rat) (hg : g ∈ p.goals) : g.levels.Pairwise (·.value ≤ ·.value) := by
    obtain ⟨levels, hlevels⟩ := hladders g hg
    exact LadderGoal.ascending_of_checkLevels hlevels
  have htolerance : (0 : Rat) < deviationTolerance := by norm_num [deviationTolerance]
  have hcheck : checkMinimums p.vars p.income = .ok () := if_neg (by linarith)
  obtain ⟨⟨amounts, left⟩, hstart, hsound⟩ := Funds.exists_start levelTolerance_nonneg hcheck
  rw [max_eq_left hminimums] at hsound
  -- Whatever the tiers serve, they serve goals of the program.
  have hts (tier : Int × List (LadderGoal Rat)) (htier : tier ∈ ts) :
      ∀ g ∈ tier.2, g ∈ p.goals := fun g hg => mem_of_mem_tiers htier hg
  have horder (g : LadderGoal Rat) (hg : g ∈ turnOrder ts) : g ∈ p.goals :=
    p.turnOrder_perm.mem_iff.mp hg
  have hrun : p.greedy =
      .ok (p.goals.length, p.takeTurns ⟨amounts, left⟩ (turnOrder ts)) := by
    refine bind_eq_ok.mpr ⟨_, hstart, (serveTiers_eq_takeTurns hsorted hsound hts).trans ?_⟩
    rw [p.turnOrder_perm.length_eq, Nat.zero_add]
  -- Budget and floors at the end of the run, and no affordable level above what is held.
  have hend := sound_takeTurns hsound horder
  have hexhausted := exhausted_takeTurns hsound horder fun g hg => hsorted g (horder g hg)
  obtain ⟨r, hr⟩ := exists_summarize hend.length .greedy p.goals.length
  have hgreedily : p.solveGreedily = .ok r := bind_eq_ok.mpr ⟨_, hrun, hr⟩
  obtain ⟨hiterations, _, hfeasible⟩ := summarize_reads hr
  refine ⟨⟨amounts, left⟩, _, r, hstart, hrun, rfl, ?lowers, ?upgrades, hend, ?levels, hgreedily,
    ?solve, summarize_values hr, ?feasible, hiterations⟩
  case lowers =>
    intro before g hfront i
    exact amount_le_takeTurns_concat hsound (fun g' hg' => horder g' (hfront.subset hg')) i
  case upgrades =>
    intro before tier hfront
    exact upgrade_takeTurns hsorted hsound fun tier' htier' => hts tier' (hfront.subset htier')
  case levels =>
    intro g hg v hv l hl hbound
    exact hexhausted g (p.turnOrder_perm.mem_iff.mpr hg) l hl ((admits_iff hv).mpr hbound)
  case solve =>
    intro hvars
    have hundecided : p.Undecided := ⟨hvars, hcheck, hincome⟩
    rw [solve_of_absent hundecided rfl, hgreedily]
  case feasible =>
    -- Amounts and what is left make up the income, and what is left is not negative.
    rw [hfeasible, decide_eq_true_eq]
    linarith [hend.balance, hend.left_nonneg]

/-- Two ladders on a bounded variable, of which one ends beyond the bound, and one on a variable
without a bound. -/
def threeLadders : LadderProgram Rat where
  income := 100
  vars := [⟨"food", "food", .category, 15, 85, by decide, by decide⟩,
    ⟨"fun", "fun", .category, 5, 0, by decide, by decide⟩]
  goals := [⟨"eat", 0, [⟨20, 1, "some"⟩, ⟨60, 2, "all"⟩], 1, 1, ""⟩,
    ⟨"feast", 0, [⟨30, 1, "some"⟩, ⟨90, 5, "all"⟩], 2, 2, ""⟩,
    ⟨"play", 1, [⟨25, 1, "some"⟩, ⟨50, 2, "all"⟩], 2, 1, ""⟩]
  index_lt := by decide

/-- Three turns, and with fifteen left the level that costs twenty-five more is beyond reach. -/
theorem greedy_exhausts_threeLadders :
    0 < threeLadders.income ∧ sumOfMinimums threeLadders.vars ≤ threeLadders.income ∧
      (∀ g ∈ threeLadders.goals, ∃ levels, LadderGoal.checkLevels g.id levels = .ok g.levels) ∧
      threeLadders.greedy = .ok (3, ⟨[60, 25], 15⟩) ∧ (15 : Rat) < 50 - 25 ∧
      ∃ r, threeLadders.solve (fun _ => none) = .ok r ∧ r.isFeasible = true ∧
        r.iterations = 3 := by
  have hladders : ∀ g ∈ threeLadders.goals,
      ∃ levels, LadderGoal.checkLevels g.id levels = .ok g.levels := by
    have hascending : ∀ g ∈ threeLadders.goals,
        g.levels.isEmpty = false ∧ g.levels.Pairwise (·.value ≤ ·.value) := by decide +kernel
    intro g hg
    obtain ⟨hlevels, hsorted⟩ := hascending g hg
    exact ⟨g.levels, LadderGoal.checkLevels_of_ascending g.id (by simpa using hlevels) hsorted⟩
  have hincome : 0 < threeLadders.income := by decide
  have hminimums : sumOfMinimums threeLadders.vars ≤ threeLadders.income := by decide +kernel
  -- the goals stand in the order of their turns
  have horder : turnOrder (tiers (·.priority) threeLadders.goals) = threeLadders.goals := by
    rw [turnOrder, flatMap_tiers]
    exact List.mergeSort_of_pairwise (by decide +kernel)
  obtain ⟨start, f, r, hstart, hrun, hturns, _, _, _, hlevels, _, hsolve, _, hfeasible,
    hiterations⟩ := greedy_exhausts hincome hminimums hladders
  have hminimum : start = ⟨[15, 5], 80⟩ := by
    obtain ⟨_, _, hstart⟩ := bind_eq_ok.mp hstart
    obtain ⟨hamounts, hleft⟩ := Prod.mk.inj (pure_eq_ok.mp hstart)
    have hsurplus : greatest 0 (threeLadders.income - sumOfMinimums threeLadders.vars) = 80 := by
      decide +kernel
    exact congrArg₂ Funds.mk hamounts.symm (hleft.symm.trans hsurplus)
  have hend : (threeLadders.takeTurns ⟨[15, 5], 80⟩ threeLadders.goals).amounts = [60, 25] ∧
      (threeLadders.takeTurns ⟨[15, 5], 80⟩ threeLadders.goals).left = 15 := by decide +kernel
  have hamounts : f = ⟨[60, 25], 15⟩ := by
    rw [hturns, horder, hminimum]
    exact congrArg₂ Funds.mk hend.1 hend.2
  rw [hamounts] at hrun hlevels
  refine ⟨hincome, hminimums, hladders, hrun, ?_, r, hsolve nofun, hfeasible, hiterations⟩
  -- fifty for fun would be admitted, and what is left does not pay for it
  exact (hlevels ⟨"play", 1, [⟨25, 1, "some"⟩, ⟨50, 2, "all"⟩], 2, 1, ""⟩
    (List.mem_of_getElem? (i := 2) rfl) _ rfl ⟨50, 2, "all"⟩ (List.mem_of_getElem? (i := 1) rfl)
    nofun).resolve_left (by decide)

end LadderProgram

end GoalBudget
