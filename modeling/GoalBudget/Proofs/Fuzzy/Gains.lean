import GoalBudget.Proofs.Curve.Monotone
import GoalBudget.Proofs.Fuzzy.Outcome
import GoalBudget.Proofs.Fuzzy.Steps
import Mathlib.Algebra.Module.Submodule.Lattice

/-!
# No step of the greedy fuzzy run costs satisfaction

With one goal at most on every variable a step concerns one goal only. A goal that takes its share
of a round has offered a whole step that gains, and gets a part of it: on the way to more
satisfaction there is never less (`degree_le_of_offer`). Its variable is still where it was when the
offer was made, since the goals before it are on other variables (`amount_eq_of_done`). A completion
is made for a gain (`gain_of_bestCompletion`). All other money goes no further than the end of the
plateau of a curve that falls again (`degree_le_of_room`, `degree_le_of_harmlessRoom`).

So no step lowers the satisfaction of any goal (`Step.degree_le`), and in the end no goal has less
than with the lower bound of its variable. Main result: `degrees_never_fall`.

What is asked of the curves is that they come from one of the constructors (`Curve.Regular`): they
do not fall before the end of their plateau. With two goals on one variable the statement fails, as
what one of them gains by can cost the other.
-/

open Relation (ReflTransGen)

namespace GoalBudget.FuzzyProgram

variable {p : FuzzyProgram Rat} {money : Rat} {f f' : Funds Rat} {goals : List (FuzzyGoal Rat)}
  {g : FuzzyGoal Rat} {i : Nat}

/-! ## The goal that a step is for -/

/-- A step that gains, counted with a weight that is not negative, gains satisfaction. -/
theorem degree_lt_of_gain {x step : Rat} (hweight : 0 ≤ g.weight)
    (h : 0 < (g.curve.degree (x + step) - g.curve.degree x) * g.weight) :
    g.curve.degree x < g.curve.degree (x + step) :=
  sub_pos.mp (pos_of_mul_pos_left h hweight)

/-- A part of a step that was offered does not cost the goal satisfaction. -/
theorem degree_le_of_offer {increment share : Rat} {o : Offer Rat} (hregular : g.curve.Regular)
    (hweight : 0 ≤ g.weight) (hoffer : p.offer? f increment g = .ok (some o))
    (hshare : 0 ≤ share) (hle : share ≤ o.step) :
    g.curve.degree (f.amount g.index) ≤ g.curve.degree (f.amount g.index + share) := by
  obtain ⟨_, _, hgain⟩ := offer?_eq_some hoffer
  exact hregular.degree_le_of_lt (by linarith) (by linarith) (degree_lt_of_gain hweight hgain)

/-- The best completion gains. -/
theorem gain_of_bestCompletion {best : Option (Completion Rat)}
    (h : goals.foldlM (p.considerCompletion f) none = .ok best) :
    ∀ c ∈ best, 0 < (c.goal.curve.degree (f.amount c.goal.index + c.step) -
      c.goal.curve.degree (f.amount c.goal.index)) * c.goal.weight := by
  refine foldlM_invariant (fun best : Option (Completion Rat) => ∀ c ∈ best,
    0 < (c.goal.curve.degree (f.amount c.goal.index + c.step) -
      c.goal.curve.degree (f.amount c.goal.index)) * c.goal.weight) ?_ (fun c hc => by cases hc) h
  -- The scan keeps its best or takes over the goal at hand, and takes it over only when it gains.
  intro g _ best next hbest hnext
  unfold considerCompletion at hnext
  dsimp only at hnext
  rw [gainOf_eq, bind_of_eq_ok rfl] at hnext
  split at hnext
  next =>
    cases hnext
    exact hbest
  next =>
    split at hnext
    next hgain =>
      obtain ⟨ratio, _, hnext⟩ := bind_eq_ok.mp hnext
      cases hnext
      split
      next =>
        rintro c ⟨⟩
        exact hgain
      next => exact hbest
    next =>
      cases hnext
      exact hbest

/-- What a goal with room takes leads no further than its useful limit. -/
theorem degree_le_of_room {x : Rat} (hregular : g.curve.Regular) (hx : 0 ≤ x)
    (hroom : x ≤ p.room f g) :
    g.curve.degree (f.amount g.index) ≤ g.curve.degree (f.amount g.index + x) := by
  rcases hx.eq_or_lt with rfl | hpos
  · rw [add_zero]
  · refine hregular.degree_le_of_le_peakRight (le_add_of_nonneg_right hx) fun hfalls => ?_
    rw [← Curve.usefulLimit_of_falls hfalls]
    rw [room, greatest_eq_max] at hroom
    have hdraw := (le_max_iff.mp hroom).resolve_left (not_le.mpr hpos)
    have hlimit := Limit.drawIn_le (a := g.curve.usefulLimit - f.amount g.index)
      (p.headroomAt f g.index)
    linarith

/-- The harmless room of a variable ends with the plateau of any goal on it that falls again. -/
theorem harmlessRoom_le_plateau {v : Variable Rat} (hg : g ∈ p.goals) (hindex : g.index = i)
    (hfalls : g.curve.isMonotone = false) : ∃ bound, p.harmlessRoom f i v = .upTo bound ∧
      bound ≤ max 0 (g.curve.corners.peakRight - f.amount i) := by
  obtain ⟨before, after, hsplit⟩ := List.append_of_mem hg
  unfold harmlessRoom
  rw [hsplit, List.foldl_append, List.foldl_cons]
  -- the goals behind this one only draw the room in further
  refine List.foldlRecOn after _ (motive := fun room => ∃ bound, room = Limit.upTo bound ∧
    bound ≤ max 0 (g.curve.corners.peakRight - f.amount i)) ?_ ?_
  · rw [if_pos (by simp [hindex, hfalls]), greatest_eq_max]
    exact ⟨_, rfl, Limit.drawIn_le _ _⟩
  · rintro _ ⟨bound, rfl, hle⟩ other _
    split
    next =>
      refine ⟨_, rfl, ?_⟩
      rw [Limit.drawIn_upTo]
      exact (min_le_left _ _).trans hle
    next => exact ⟨bound, rfl, hle⟩

/-- What is put on a variable leads no further than the plateau of a goal on it. -/
theorem degree_le_of_harmlessRoom {v : Variable Rat} {money : Rat} (hregular : g.curve.Regular)
    (hg : g ∈ p.goals) (hindex : g.index = i) (hx : 0 ≤ (p.harmlessRoom f i v).drawIn money) :
    g.curve.degree (f.amount i) ≤
      g.curve.degree (f.amount i + (p.harmlessRoom f i v).drawIn money) := by
  rcases hx.eq_or_lt with hzero | hpos
  · rw [← hzero, add_zero]
  · refine hregular.degree_le_of_le_peakRight (le_add_of_nonneg_right hx) fun hfalls => ?_
    obtain ⟨bound, hroom, hle⟩ := harmlessRoom_le_plateau (f := f) (v := v) hg hindex hfalls
    rw [hroom, Limit.drawIn_upTo] at hpos ⊢
    have hplateau := (min_le_left bound money).trans hle
    have hrest := (le_max_iff.mp hplateau).resolve_left (not_le.mpr hpos)
    linarith

/-! ## All goals -/

/-- The goals that make an offer are some of those that were asked, in their order. -/
theorem offers_sublist {increment : Rat} {offers : List (Option (Offer Rat))}
    (h : goals.mapM (p.offer? f increment) = .ok offers) :
    ((offers.filterMap id).map (·.goal)).Sublist goals := by
  have hall := mapM_eq_ok h
  clear h
  induction hall with
  | nil => exact List.Sublist.refl _
  | @cons g offer goals offers hoffer _ ih =>
    cases offer with
    | none => exact ih.cons g
    | some o =>
      have hgoal : o.goal = g := (offer?_eq_some hoffer).1
      exact hgoal ▸ ih.cons_cons o.goal

/-- The goals of a round are on different variables if all goals are. -/
theorem nodup_order {increment : Rat} {offers : List (Option (Offer Rat))}
    {order : List (Offer Rat)} (hone : (p.goals.map (·.index)).Nodup)
    (hgoals : goals.Sublist p.goals) (hoffers : goals.mapM (p.offer? f increment) = .ok offers)
    (horder : byDescending (·.ratio) (offers.filterMap id) = order) :
    (order.map (·.goal.index)).Nodup := by
  rw [← horder, ((byDescending_perm Offer.ratio _).map _).nodup_iff]
  have hsublist := (((offers_sublist hoffers).trans hgoals).map FuzzyGoal.index).nodup hone
  rwa [List.map_map] at hsublist

/-- Shares of goals on other variables leave a variable alone. -/
theorem amount_eq_of_done {increment totalGain : Rat} {done : List (Offer Rat)}
    {start state : Funds Rat × Bool} (hdone : ∀ o ∈ done, o.goal ∈ p.goals ∧ o.goal.index ≠ i)
    (h : done.foldlM (p.takeShare increment totalGain) start = .ok state) :
    state.1.amount i = start.1.amount i := by
  refine foldlM_invariant (fun state : Funds Rat × Bool => state.1.amount i = start.1.amount i)
    ?_ rfl h
  intro o ho state next hsame hnext
  obtain ⟨hgoal, hother⟩ := hdone o ho
  rcases takeShare_eq_ok hgoal hnext with hkept | ⟨share, _, _, hgiven⟩
  · rw [hkept, hsame]
  · rw [hgiven, Funds.amount_give_ne hother.symm, hsame]

/-- What is given to a variable only concerns the goals on it. -/
theorem degree_le_give {x : Rat} (hi : i < f.amounts.length)
    (hgoals : ∀ g ∈ p.goals, g.index = i →
      g.curve.degree (f.amount i) ≤ g.curve.degree (f.amount i + x)) :
    ∀ g ∈ p.goals,
      g.curve.degree (f.amount g.index) ≤ g.curve.degree ((f.give i x).amount g.index) := by
  intro g hg
  rw [Funds.amount_give hi]
  split
  next hindex =>
    rw [hindex]
    exact hgoals g hg hindex
  next => exact le_refl _

/-- What is given for the only goal on a variable concerns this goal alone. -/
theorem degree_le_give_own (hone : (p.goals.map (·.index)).Nodup) {x : Rat}
    (hlength : f.amounts.length = p.vars.length) {own : FuzzyGoal Rat} (hown : own ∈ p.goals)
    (h : own.curve.degree (f.amount own.index) ≤ own.curve.degree (f.amount own.index + x)) :
    ∀ g ∈ p.goals, g.curve.degree (f.amount g.index) ≤
      g.curve.degree ((f.give own.index x).amount g.index) := by
  refine degree_le_give (hlength ▸ index_lt_of_mem hown) fun g hg hindex => ?_
  rw [List.inj_on_of_nodup_map hone hg hown hindex]
  exact h

section
variable (hone : (p.goals.map (·.index)).Nodup) (hweights : ∀ g ∈ p.goals, 0 ≤ g.weight)
  (hcurves : ∀ g ∈ p.goals, g.curve.Regular)
include hone hweights hcurves

/-- No step of the run lowers the satisfaction of any goal. -/
theorem Step.degree_le (h : p.Step f f') (hsound : f.Sound p.vars 0 money) :
    ∀ g ∈ p.goals,
      g.curve.degree (f.amount g.index) ≤ g.curve.degree (f'.amount g.index) := by
  have hsame : ∀ g ∈ p.goals,
      g.curve.degree (f.amount g.index) ≤ g.curve.degree (f.amount g.index) :=
    fun g _ => le_refl _
  cases h with
  | @share goals increment round offers done rest o state next hgoals hoffers horder hdone htake =>
    have hmem := fun o' => mem_goals_of_mem_order (o := o') hoffers horder
    -- Of the offers of a round, this goal has exactly one.
    obtain ⟨hgoal, hoffer⟩ := hmem o (List.mem_append_right _ (List.mem_cons_self ..))
    have hown := hgoals.subset hgoal
    rcases takeShare_eq_ok hown htake with hkept | ⟨share, hle, hcan, hgiven⟩
    · rw [hkept]
      exact hsame
    · have hnodup := nodup_order hone hgoals hoffers horder
      rw [List.map_append, List.nodup_append] at hnodup
      have hothers : ∀ o' ∈ done, o'.goal ∈ p.goals ∧ o'.goal.index ≠ o.goal.index := by
        intro o' ho'
        refine ⟨hgoals.subset (hmem o' (List.mem_append_left _ ho')).1, ?_⟩
        exact hnodup.2.2 _ (List.mem_map_of_mem ho') _ (List.mem_map_of_mem (List.mem_cons_self ..))
      -- The others served in the round are of other variables, so the offer, measured at the start
      -- of the round, still fits the amount.
      have hround := amount_eq_of_done hothers hdone
      rw [hgiven]
      refine degree_le_give_own hone hsound.length hown ?_
      rw [hround]
      exact degree_le_of_offer (hcurves _ hown) (hweights _ hown) hoffer hcan.nonneg hle
  | @completion goals f best hgoals hbest =>
    -- A completion is chosen only when it gains.
    obtain ⟨best', hbest', hfits⟩ := exists_bestCompletion (f := f) hgoals
    cases hbest.symm.trans hbest'
    have hgoal := (hfits best rfl).1
    refine degree_le_give_own hone hsound.length hgoal ?_
    exact (degree_lt_of_gain (hweights _ hgoal) (gain_of_bestCompletion hbest best rfl)).le
  | proportion hg hincrement htotal huseful htake =>
    rw [takeProportion_eq htotal] at htake
    cases htake
    have hwanted := div_nonneg (mul_nonneg hincrement huseful) htotal.le
    have hcan := canGive_proportion hg hwanted hsound.left_nonneg
    -- No curve falls before the end of its room.
    refine degree_le_give_own hone hsound.length hg ?_
    exact degree_le_of_room (hcurves _ hg) hcan.nonneg ((min_le_left _ _).trans (min_le_right _ _))
  | topUp hentry =>
    rcases p.topUp_cases f hentry with hkept | ⟨hcan, hgiven⟩
    · rw [hkept]
      exact hsame
    · rw [hgiven]
      refine degree_le_give (hsound.length ▸ hcan.index_lt) fun g hg hindex => ?_
      exact degree_le_of_harmlessRoom (hcurves g hg) hg hindex hcan.nonneg

/-- No number of steps lowers a satisfaction. -/
theorem degree_le_of_steps (h : ReflTransGen p.Step f f') (hsound : f.Sound p.vars 0 money) :
    ∀ g ∈ p.goals,
      g.curve.degree (f.amount g.index) ≤ g.curve.degree (f'.amount g.index) := by
  induction h with
  | refl => exact fun g _ => le_refl _
  | tail hsteps hstep ih =>
    have hnext := hstep.degree_le hone hweights hcurves (sound_of_steps hsteps hsound)
    exact fun g hg => (ih g hg).trans (hnext g hg)

end

/-! ## The result -/

/-- What is listed under an id is the satisfaction of a goal with this id. -/
theorem goalMemberships_of_summarize {solution : List Rat} {method : Method} {iterations : Nat}
    {r : FuzzyResult Rat} (hlength : solution.length = p.vars.length)
    (h : p.summarize solution method iterations = .ok r) : ∀ e ∈ r.goalMemberships.entries,
      ∃ g ∈ p.goals, g.id = e.1 ∧ e.2 = g.curve.degree (solution.getD g.index 0) := by
  obtain ⟨scored, hscored, h⟩ := bind_eq_ok.mp h
  cases h
  intro e he
  obtain ⟨s, hs, rfl⟩ := List.mem_map.mp (Ledger.mem_of_mem_ofList he)
  obtain ⟨g, hg, hscore⟩ := exists_of_mem_mapM hscored hs
  obtain ⟨value, hvalue, hscore⟩ := bind_eq_ok.mp hscore
  obtain ⟨degree, hdegree, hscore⟩ := bind_eq_ok.mp hscore
  have hi : g.index < solution.length := hlength ▸ index_lt_of_mem hg
  rw [amountAt_of_lt hi] at hvalue
  rw [Curve.degree?_eq_ok] at hdegree
  cases hvalue
  cases hdegree
  cases hscore
  refine ⟨g, hg, rfl, ?_⟩
  rw [List.getD_eq_getElem _ _ hi]

/-- With one goal at most on every variable, weights that are not negative and curves made by the
constructors, no step of the greedy run lowers the satisfaction of any goal. So every satisfaction
of the result is at least that with the lower bound of the variable. -/
theorem degrees_never_fall (hone : (p.goals.map (·.index)).Nodup)
    (hweights : ∀ g ∈ p.goals, 0 ≤ g.weight) (hcurves : ∀ g ∈ p.goals, g.curve.Regular)
    (hcheck : checkMinimums p.vars p.income = .ok ()) :
    ∃ rounds start climbed completed spread r,
      p.Phases rounds start climbed completed spread ∧
      (∀ f f', ReflTransGen p.Step start f → p.Step f f' → ∀ g ∈ p.goals,
        g.curve.degree (f.amount g.index) ≤ g.curve.degree (f'.amount g.index)) ∧
      p.solveGreedily = .ok r ∧ ∀ e ∈ r.goalMemberships.entries, ∃ g ∈ p.goals, g.id = e.1 ∧
        e.2 = g.curve.degree ((p.spendOnHeadroom spread).amount g.index) ∧
        ∃ v, p.vars[g.index]? = some v ∧ g.curve.degree v.minimum ≤ e.2 := by
  obtain ⟨rounds, start, climbed, completed, spread, hphases, hsound⟩ := exists_phases hcheck
  have hsteps := hphases.steps.trans hphases.topping
  have hend := sound_of_steps hsteps hsound
  obtain ⟨r, hr, _⟩ := exists_summarize hend.length .greedy rounds
  refine ⟨rounds, start, climbed, completed, spread, r, hphases, ?_,
    bind_eq_ok.mpr ⟨_, hphases.greedy_eq, hr⟩, ?_⟩
  · intro f f' hf hstep
    exact hstep.degree_le hone hweights hcurves (sound_of_steps hf hsound)
  · intro e he
    obtain ⟨g, hg, hid, hdegree⟩ := goalMemberships_of_summarize hend.length hr e he
    have hv := List.getElem?_eq_getElem (index_lt_of_mem hg)
    refine ⟨g, hg, hid, hdegree, _, hv, ?_⟩
    rw [hdegree, ← Funds.amount_start hphases.start_eq hv]
    exact degree_le_of_steps hone hweights hcurves hsteps hsound g hg

/-- A goal of each kind: a line, a peak, and a chain that jumps at the second of its anchors. -/
def threeCurves : FuzzyProgram Rat where
  income := 6
  vars := [⟨"food", "food", .category, 1, 4, by decide, by decide⟩,
    ⟨"fun", "fun", .category, 1, 0, by decide, by decide⟩,
    ⟨"trip", "trip", .goal, 0, 3, by decide, by decide⟩]
  goals := [⟨"eat", 0, ⟨.linear, ⟨0, 0, 2, 2⟩, []⟩, 1, 1, ""⟩,
    ⟨"play", 1, ⟨.triangular, ⟨0, 2, 2, 3⟩, []⟩, 2, 1, ""⟩,
    ⟨"save", 2, ⟨.piecewise, ⟨0, 0, 0, 3⟩, [⟨0, 1, 1 / 2, 0, 1 / 2⟩, ⟨1, 3, 1 / 5, 2 / 5, 1⟩]⟩,
      2, 1, ""⟩]
  index_lt := by decide

/-- A line, a plateau and a sigmoid are regular. -/
theorem regular_threeCurves : ∀ g ∈ threeCurves.goals, g.curve.Regular := by
  have hline : Curve.linear (0 : Rat) 2 = .ok ⟨.linear, ⟨0, 0, 2, 2⟩, []⟩ := by cbv
  have hpeak : Curve.triangular (0 : Rat) 2 3 = .ok ⟨.triangular, ⟨0, 2, 2, 3⟩, []⟩ := by cbv
  have hchain : Curve.throughPoints [((0 : Rat), (0 : Rat)), (1, 1 / 2), (1, 3 / 5), (3, 1)] =
      .ok ⟨.piecewise, ⟨0, 0, 0, 3⟩,
        [⟨0, 1, 1 / 2, 0, 1 / 2⟩, ⟨1, 3, 1 / 5, 2 / 5, 1⟩]⟩ := by
    cbv
  intro g hg
  simp only [threeCurves, List.mem_cons, List.not_mem_nil, or_false] at hg
  rcases hg with rfl | rfl | rfl
  · exact .linear hline
  · exact .triangular hpeak
  · exact .throughPoints (by decide +kernel) (by decide +kernel) hchain

/-- Half of the satisfaction with the food is there from the start, and stays. -/
theorem degrees_never_fall_threeCurves :
    (threeCurves.goals.map (·.index)).Nodup ∧ (∀ g ∈ threeCurves.goals, 0 ≤ g.weight) ∧
      (∀ g ∈ threeCurves.goals, g.curve.Regular) ∧
      checkMinimums threeCurves.vars threeCurves.income = .ok () ∧
      ∃ r, threeCurves.solveGreedily = .ok r ∧ ∀ e ∈ r.goalMemberships.entries, e.1 = "eat" →
        1 / 2 ≤ e.2 := by
  have hone : (threeCurves.goals.map (·.index)).Nodup := by decide
  have hweights : ∀ g ∈ threeCurves.goals, 0 ≤ g.weight := by decide +kernel
  have hcheck : checkMinimums threeCurves.vars threeCurves.income = .ok () :=
    checkMinimums_of_le (by decide +kernel)
  obtain ⟨_, _, _, _, _, r, _, _, hsolve, hdegrees⟩ :=
    degrees_never_fall hone hweights regular_threeCurves hcheck
  refine ⟨hone, hweights, regular_threeCurves, hcheck, r, hsolve, fun e he heat => ?_⟩
  obtain ⟨g, hg, hid, _, v, hv, hle⟩ := hdegrees e he
  have hown : ∀ g ∈ threeCurves.goals, g.id = "eat" → ∀ v ∈ threeCurves.vars[g.index]?,
      1 / 2 ≤ g.curve.degree v.minimum := by decide +kernel
  exact (hown g hg (hid.trans heat) v hv).trans hle

end GoalBudget.FuzzyProgram
