import GoalBudget.Fuzzy.Solve
import GoalBudget.Proofs.Curve.Checked
import GoalBudget.Proofs.Strategy.Funds

/-!
# The greedy run of a fuzzy goal program stays within bounds

Every phase moves amounts from what is left to variables, never more than there is left and never
more than a variable has headroom: `CanGive`. So `Funds.Sound` holds from the lower bounds on
through all phases (`CanGive.sound`). No phase fails either: only steps worth making are offered,
and only for a gain, so nothing is divided by zero. The proofs follow the phases, one lemma for each
step and one for each loop, and each of them says both: `exists_greedy`.

The shares of a round are the delicate part, since they are computed from offers made before the
round began. An offer says what its goal gains and which step it asks for (`Offer.Fits`); the
headroom and the money are looked at again when the share is given, so the share fits even if
earlier ones have changed them (`exists_takeShare`).

Main result: `solve_values_nonneg`, for every backend and without any. Negative bounds are refused
when a variable is made, so the amounts start from zero or above.
-/

namespace GoalBudget

/-- A goal in a tier is one of the goals. -/
theorem mem_of_mem_tiers {τ : Type} {priority : τ → Int} {items : List τ} {tier : Int × List τ}
    {item : τ} (h : tier ∈ tiers priority items) (hitem : item ∈ tier.2) : item ∈ items := by
  obtain ⟨level, _, rfl⟩ := List.mem_map.mp h
  exact List.mem_of_mem_filter hitem

/-- What an offer keeps to: a goal of the program, and something gained. -/
def Offer.Fits (p : FuzzyProgram Rat) (o : Offer Rat) : Prop := o.goal ∈ p.goals ∧ 0 < o.gain

namespace FuzzyProgram

variable {p : FuzzyProgram Rat} {money : Rat} {f : Funds Rat} {goals : List (FuzzyGoal Rat)}

theorem index_lt_of_mem {g : FuzzyGoal Rat} (h : g ∈ p.goals) : g.index < p.vars.length :=
  p.index_lt g h

/-- What a variable can take ends at its upper bound. -/
theorem hold_headroomAt_le {i : Nat} {v : Variable Rat} (y : Rat) (hv : p.vars[i]? = some v)
    (h : v.isBounded = true) : (p.headroomAt f i).hold y ≤ max 0 (v.maximum - f.amount i) := by
  rw [headroomAt, hv]
  exact Variable.hold_headroom_le h

/-- An amount that can be given to a variable: not negative, and no more than what is left and
the upper bound admit. -/
structure CanGive (p : FuzzyProgram Rat) (f : Funds Rat) (i : Nat) (x : Rat) : Prop where
  index_lt : i < p.vars.length
  nonneg : 0 ≤ x
  le_left : x ≤ f.left
  le_room : ∀ v, p.vars[i]? = some v → v.isBounded = true → x ≤ max 0 (v.maximum - f.amount i)

/-- Giving what can be given keeps the state sound. -/
theorem CanGive.sound {i : Nat} {x : Rat} (h : p.CanGive f i x) (hsound : f.Sound p.vars 0 money) :
    (f.give i x).Sound p.vars 0 money :=
  hsound.spend le_rfl h.index_lt h.nonneg h.le_left h.le_room

/-! ## Climbing -/

theorem minStep_pos : (0 : Rat) < minStep := by
  show (0 : Rat) < 0.01
  norm_num

theorem minGain_pos : (0 : Rat) < minGain := by
  show (0 : Rat) < 0.001
  norm_num

theorem gainOf_eq (g : FuzzyGoal Rat) (x step : Rat) :
    gainOf g x step = .ok ((g.curve.degree (x + step) - g.curve.degree x) * g.weight) := by
  rw [gainOf, Curve.degree?_eq_ok, Curve.degree?_eq_ok]
  rfl

/-- A goal makes an offer or none, and never fails to. -/
theorem exists_offer? (increment : Rat) {g : FuzzyGoal Rat} (hg : g ∈ p.goals) :
    ∃ offer, p.offer? f increment g = .ok offer ∧ ∀ o ∈ offer, o.Fits p := by
  unfold offer?
  dsimp only
  rw [gainOf_eq]
  split
  next => exact ⟨none, rfl, fun o ho => by cases ho⟩
  next hstep =>
    have hpos := minStep_pos.trans (not_le.mp hstep)
    show ∃ offer, (if minGain < _ then _ else _) = _ ∧ _
    split
    next hgain =>
      rw [quotient_of_pos hpos]
      refine ⟨_, rfl, ?_⟩
      rintro o ⟨⟩
      exact ⟨hg, minGain_pos.trans hgain⟩
    next => exact ⟨none, rfl, fun o ho => by cases ho⟩

theorem exists_offers (increment : Rat) (hgoals : ∀ g ∈ goals, g ∈ p.goals) :
    ∃ offers, goals.mapM (p.offer? f increment) = .ok offers ∧
      ∀ o ∈ offers.filterMap id, o.Fits p := by
  obtain ⟨offers, hoffers⟩ := exists_mapM_eq_ok fun g hg =>
    (exists_offer? (p := p) (f := f) increment (hgoals g hg)).imp fun _ h => h.1
  refine ⟨offers, hoffers, fun o ho => ?_⟩
  obtain ⟨offer, hmem, rfl⟩ := List.mem_filterMap.mp ho
  obtain ⟨g, hg, hoffer⟩ := exists_of_mem_mapM hoffers hmem
  obtain ⟨offer', hoffer', hfits⟩ := exists_offer? (f := f) increment (hgoals g hg)
  cases hoffer.symm.trans hoffer'
  exact hfits o rfl

/-- What a goal takes as its share is no more than the step that it has offered to take. -/
theorem takeShare_eq_ok {increment totalGain : Rat} {state next : Funds Rat × Bool}
    {o : Offer Rat} (hgoal : o.goal ∈ p.goals)
    (h : p.takeShare increment totalGain state o = .ok next) :
    next.1 = state.1 ∨ ∃ share, share ≤ o.step ∧ p.CanGive state.1 o.goal.index share ∧
      next.1 = state.1.give o.goal.index share := by
  obtain ⟨part, _, h⟩ := bind_eq_ok.mp h
  rw [pure_eq_ok] at h
  subst h
  split
  next hshare =>
    have hle := Limit.hold_le (a := least (least part o.step) state.1.left)
      (p.headroomAt state.1 o.goal.index)
    rw [least_eq_min, least_eq_min] at hle hshare ⊢
    refine .inr ⟨_, hle.trans ((min_le_left _ _).trans (min_le_right _ _)), ?_, rfl⟩
    constructor
    case index_lt => exact index_lt_of_mem hgoal
    case nonneg => exact (minStep_pos.trans hshare).le
    case le_left => exact hle.trans (min_le_right _ _)
    case le_room => exact fun v hv hbounded => hold_headroomAt_le _ hv hbounded
  next => exact .inl rfl

/-- A share is given without fault, and the state stays sound. -/
theorem exists_takeShare (increment : Rat) {totalGain : Rat} {state : Funds Rat × Bool}
    {o : Offer Rat} (htotal : 0 < totalGain) (h : state.1.Sound p.vars 0 money)
    (ho : o.Fits p) : ∃ next, p.takeShare increment totalGain state o = .ok next ∧
      next.1.Sound p.vars 0 money := by
  have htake : ∃ next, p.takeShare increment totalGain state o = .ok next := by
    rw [takeShare, quotient_of_pos htotal]
    exact ⟨_, rfl⟩
  obtain ⟨next, hnext⟩ := htake
  refine ⟨next, hnext, ?_⟩
  rcases takeShare_eq_ok ho.1 hnext with hkept | ⟨share, _, hcan, hgiven⟩
  · rwa [hkept]
  · rw [hgiven]
    exact hcan.sound h

/-- By induction on the rounds that are left. -/
theorem exists_climb (increment : Rat) (made rounds : Nat) (hgoals : ∀ g ∈ goals, g ∈ p.goals)
    (h : f.Sound p.vars 0 money) : ∃ result, p.climb goals increment made rounds f = .ok result ∧
      result.2.Sound p.vars 0 money := by
  induction rounds generalizing made f with
  | zero => exact ⟨_, rfl, h⟩
  | succ rounds ih =>
    obtain ⟨offers, hoffers, hfits⟩ := exists_offers (f := f) increment hgoals
    unfold climb
    rw [hoffers]
    show ∃ result, (if (offers.filterMap id).isEmpty = true then _ else _) = _ ∧ _
    split
    next => exact ⟨_, rfl, h⟩
    next hne =>
      have htotal : 0 < total ((offers.filterMap id).map (·.gain)) := by
        rw [total_eq_sum]
        refine List.sum_pos _ ?_ (by simpa using hne)
        intro gain hgain
        obtain ⟨o, ho, rfl⟩ := List.mem_map.mp hgain
        exact (hfits o ho).2
      -- each share keeps the funds sound, whatever was given before it
      obtain ⟨state, hstate, hsound⟩ := exists_foldlM
        (fun state : Funds Rat × Bool => state.1.Sound p.vars 0 money)
        (fun o ho state hstate => exists_takeShare increment htotal hstate
          (hfits o ((byDescending_perm (·.ratio) _).mem_iff.mp ho)))
        (show (f, false).1.Sound p.vars 0 money from h)
      rw [hstate]
      show ∃ result, (if state.2 = true then _ else _) = _ ∧ _
      split
      next => exact ih _ hsound
      next => exact ⟨_, rfl, hsound⟩

theorem exists_climbTier {state : Nat × Funds Rat} (hgoals : ∀ g ∈ goals, g ∈ p.goals)
    (h : state.2.Sound p.vars 0 money) : ∃ result, p.climbTier state goals = .ok result ∧
      result.2.Sound p.vars 0 money := by
  obtain ⟨⟨coarse, f₁⟩, hcoarse, h₁⟩ :=
    exists_climb (greatest (state.2.left / 200) 0.5) 0 500 hgoals h
  obtain ⟨⟨fine, f₂⟩, hfine, h₂⟩ := exists_climb (greatest (f₁.left / 50) 1) 0 100 hgoals h₁
  refine ⟨_, bind_eq_ok.mpr ⟨_, hcoarse, bind_eq_ok.mpr ⟨_, hfine, rfl⟩⟩, h₂⟩

theorem exists_climbAll (h : checkMinimums p.vars p.income = .ok ()) :
    ∃ result, p.climbAll = .ok result ∧
      result.2.Sound p.vars 0 (max p.income (sumOfMinimums p.vars)) := by
  obtain ⟨start, hstart, hsound⟩ := Funds.exists_start (le_refl (0 : Rat)) h
  obtain ⟨result, hresult, hend⟩ := exists_foldlM
    (fun state : Nat × Funds Rat =>
      state.2.Sound p.vars 0 (max p.income (sumOfMinimums p.vars)))
    (fun tier htier state hstate =>
      exists_climbTier (fun g hg => mem_of_mem_tiers htier hg) hstate)
    (show (0, (⟨start.1, start.2⟩ : Funds Rat)).2.Sound p.vars 0 _ from hsound)
  exact ⟨result, bind_eq_ok.mpr ⟨start, hstart, hresult⟩, hend⟩

/-! ## Spending what is left -/

theorem room_nonneg (g : FuzzyGoal Rat) : 0 ≤ p.room f g := by
  rw [room, greatest_eq_max]
  exact le_max_left _ _

/-- No goal can use more than its variable has room for. -/
theorem room_le {g : FuzzyGoal Rat} {v : Variable Rat} (hv : p.vars[g.index]? = some v)
    (h : v.isBounded = true) : p.room f g ≤ max 0 (v.maximum - f.amount g.index) := by
  rw [room, headroomAt, hv]
  dsimp only
  rw [Variable.headroom, if_pos h, greatest_eq_max, greatest_eq_max, Limit.drawIn_upTo]
  exact max_le (le_max_left _ _) (min_le_left _ _)

/-- A goal with room has room below its useful limit. -/
theorem lt_usefulLimit {g : FuzzyGoal Rat} (h : 0 < p.room f g) :
    f.amount g.index < g.curve.usefulLimit := by
  rw [room, greatest_eq_max] at h
  have hdraw := (lt_max_iff.mp h).resolve_left (lt_irrefl 0)
  exact sub_pos.mp (hdraw.trans_le (Limit.drawIn_le _ _))

/-- What a completion keeps to: a goal of the program, what is left, and the goal's room. -/
def Completion.Fits (p : FuzzyProgram Rat) (f : Funds Rat) (c : Completion Rat) : Prop :=
  c.goal ∈ p.goals ∧ 0 ≤ c.step ∧ c.step ≤ f.left ∧ c.step ≤ p.room f c.goal

/-- A completion can be given. -/
theorem Completion.Fits.canGive {c : Completion Rat} (h : c.Fits p f) :
    p.CanGive f c.goal.index c.step := by
  obtain ⟨hgoal, hstep, hleft, hroom⟩ := h
  refine ⟨index_lt_of_mem hgoal, hstep, hleft, fun v hv hbounded => ?_⟩
  exact hroom.trans (room_le hv hbounded)

/-- The better of two completions is found without fault. -/
theorem exists_considerCompletion {best : Option (Completion Rat)} {g : FuzzyGoal Rat}
    (hbest : ∀ c ∈ best, c.Fits p f) (hg : g ∈ p.goals) :
    ∃ next, p.considerCompletion f best g = .ok next ∧ ∀ c ∈ next, c.Fits p f := by
  unfold considerCompletion
  dsimp only
  rw [gainOf_eq]
  split
  next => exact ⟨best, rfl, hbest⟩
  next hstep =>
    -- a completion is only considered when its step is worth making
    have hpos := minStep_pos.trans (not_le.mp hstep)
    show ∃ next, (if 0 < _ then _ else _) = _ ∧ _
    split
    next =>
      rw [quotient_of_pos hpos]
      refine ⟨_, rfl, ?_⟩
      split
      next =>
        rintro c ⟨⟩
        refine ⟨hg, hpos.le, ?_, ?_⟩
        · rw [least_eq_min]
          exact min_le_left _ _
        · rw [least_eq_min]
          exact min_le_right _ _
      next => exact hbest
    next => exact ⟨best, rfl, hbest⟩

theorem exists_bestCompletion (hgoals : ∀ g ∈ goals, g ∈ p.goals) :
    ∃ best, goals.foldlM (p.considerCompletion f) none = .ok best ∧ ∀ c ∈ best, c.Fits p f :=
  exists_foldlM (fun best : Option (Completion Rat) => ∀ c ∈ best, c.Fits p f)
    (fun g hg _ hstate => exists_considerCompletion hstate (hgoals g hg))
    (show ∀ c ∈ none, Completion.Fits p f c from fun c hc => by cases hc)

/-- Completing goals never fails and keeps the state sound. -/
theorem exists_spendOnGoals (times : Nat) (hgoals : ∀ g ∈ goals, g ∈ p.goals)
    (h : f.Sound p.vars 0 money) : ∃ result, p.spendOnGoals goals times f = .ok result ∧
      result.Sound p.vars 0 money := by
  induction times generalizing f with
  | zero => exact ⟨f, rfl, h⟩
  | succ times ih =>
    obtain ⟨best, hbest, hfits⟩ := exists_bestCompletion (f := f) hgoals
    unfold spendOnGoals
    rw [hbest]
    cases best with
    | none => exact ⟨f, rfl, h⟩
    | some c => exact ih ((hfits c rfl).canGive.sound h)

/-- A proportion, held by room and money, can be given. -/
theorem canGive_proportion {g : FuzzyGoal Rat} {wanted : Rat} (hg : g ∈ p.goals)
    (hwanted : 0 ≤ wanted) (hleft : 0 ≤ f.left) :
    p.CanGive f g.index (min (min wanted (p.room f g)) f.left) := by
  constructor
  case index_lt => exact index_lt_of_mem hg
  case nonneg => exact le_min (le_min hwanted (room_nonneg g)) hleft
  case le_left => exact min_le_right _ _
  case le_room =>
    intro v hv hbounded
    exact (min_le_left _ _).trans ((min_le_right _ _).trans (room_le hv hbounded))

/-- What a goal takes of a round of spending. -/
theorem takeProportion_eq {increment totalTarget : Rat} (htotal : 0 < totalTarget)
    (g : FuzzyGoal Rat) : p.takeProportion increment totalTarget f g = .ok (f.give g.index
      (min (min (increment * g.curve.usefulLimit / totalTarget) (p.room f g)) f.left)) := by
  rw [takeProportion, quotient_of_pos htotal, ← least_eq_min, ← least_eq_min]
  rfl

/-- A category takes its proportion without fault. -/
theorem exists_takeProportion {increment totalTarget : Rat} {g : FuzzyGoal Rat}
    (h : f.Sound p.vars 0 money) (hg : g ∈ p.goals) (hincrement : 0 ≤ increment)
    (htotal : 0 < totalTarget) (huseful : 0 ≤ g.curve.usefulLimit) :
    ∃ result, p.takeProportion increment totalTarget f g = .ok result ∧
      result.Sound p.vars 0 money := by
  have hwanted : 0 ≤ increment * g.curve.usefulLimit / totalTarget :=
    div_nonneg (mul_nonneg hincrement huseful) htotal.le
  exact ⟨_, takeProportion_eq htotal g, (canGive_proportion hg hwanted h.left_nonneg).sound h⟩

/-- Rounds of spending never fail and keep the state sound. -/
theorem exists_spendInRounds {increment : Rat} (rounds : Nat)
    (hgoals : ∀ g ∈ goals, g ∈ p.goals) (hincrement : 0 ≤ increment)
    (h : f.Sound p.vars 0 money) :
    ∃ result, p.spendInRounds goals increment rounds f = .ok result ∧
      result.Sound p.vars 0 money := by
  induction rounds generalizing f with
  | zero => exact ⟨f, rfl, h⟩
  | succ rounds ih =>
    unfold spendInRounds
    dsimp only
    split
    next => exact ⟨f, rfl, h⟩
    next hopen =>
      have htotal := not_le.mp (not_or.mp hopen).2
      -- A goal is open at the start of the round, so its useful limit lies above its amount.
      have huseful : ∀ g ∈ goals.filter fun g => minStep < p.room f g,
          g ∈ p.goals ∧ 0 ≤ g.curve.usefulLimit := by
        intro g hg
        obtain ⟨hmem, hroom⟩ := List.mem_filter.mp hg
        have hlt := lt_usefulLimit (minStep_pos.trans (of_decide_eq_true hroom))
        exact ⟨hgoals g hmem, (h.amount_nonneg g.index).trans hlt.le⟩
      obtain ⟨next, hnext, hsound⟩ := exists_foldlM
        (fun f : Funds Rat => f.Sound p.vars 0 money)
        (fun g hg f hf => exists_takeProportion hf (huseful g hg).1 hincrement htotal
          (huseful g hg).2) h
      rw [hnext]
      exact ih hsound

theorem exists_spendOnCategories (h : f.Sound p.vars 0 money) :
    ∃ result, p.spendOnCategories f = .ok result ∧ result.Sound p.vars 0 money := by
  unfold spendOnCategories
  dsimp only
  split
  next => exact ⟨f, rfl, h⟩
  next =>
    exact exists_spendInRounds 100 (fun g hg => List.mem_of_mem_filter hg)
      (div_nonneg h.left_nonneg (by norm_num)) h

/-- The harmless room of a bounded variable is at most its headroom. -/
theorem harmlessRoom_le {i : Nat} {v : Variable Rat} (h : v.isBounded = true) :
    ∃ bound, p.harmlessRoom f i v = .upTo bound ∧ bound ≤ max 0 (v.maximum - f.amount i) := by
  have hstart : ∃ bound, v.headroom (f.amount i) = .upTo bound ∧
      bound ≤ max 0 (v.maximum - f.amount i) := by
    rw [Variable.headroom, if_pos h, greatest_eq_max]
    exact ⟨_, rfl, le_refl _⟩
  unfold harmlessRoom
  refine List.foldlRecOn p.goals _ (motive := fun room => ∃ bound, room = Limit.upTo bound ∧
    bound ≤ max 0 (v.maximum - f.amount i)) hstart ?_
  rintro _ ⟨bound, rfl, hle⟩ g _
  split
  next => exact ⟨_, rfl, (by rw [Limit.drawIn_upTo]; exact (min_le_left _ _).trans hle)⟩
  next => exact ⟨bound, rfl, hle⟩

/-- What is put on a variable is its harmless room, as far as there is money. -/
theorem topUp_cases (p : FuzzyProgram Rat) (f : Funds Rat) {entry : Variable Rat × Nat}
    (hentry : p.vars[entry.2]? = some entry.1) : p.topUp f entry = f ∨
      p.CanGive f entry.2 ((p.harmlessRoom f entry.2 entry.1).drawIn f.left) ∧
        p.topUp f entry = f.give entry.2 ((p.harmlessRoom f entry.2 entry.1).drawIn f.left) := by
  unfold topUp
  split
  next => exact .inl rfl
  next =>
    dsimp only
    split
    next hpos =>
      refine .inr ⟨?_, rfl⟩
      constructor
      case index_lt => exact (List.getElem?_eq_some_iff.mp hentry).1
      case nonneg => exact hpos.le
      case le_left => exact Limit.drawIn_le _ _
      case le_room =>
        intro v hv hbounded
        cases hentry.symm.trans hv
        obtain ⟨bound, hroom, hle⟩ :=
          harmlessRoom_le (p := p) (f := f) (i := entry.2) hbounded
        rw [hroom, Limit.drawIn_upTo]
        exact (min_le_left _ _).trans hle
    next => exact .inl rfl

/-- Topping up a variable keeps the state sound. -/
theorem sound_topUp {entry : Variable Rat × Nat} (h : f.Sound p.vars 0 money)
    (hentry : p.vars[entry.2]? = some entry.1) : (p.topUp f entry).Sound p.vars 0 money := by
  rcases p.topUp_cases f hentry with hkept | ⟨hcan, hgiven⟩
  · rwa [hkept]
  · rw [hgiven]
    exact hcan.sound h

theorem sound_spendOnHeadroom (h : f.Sound p.vars 0 money) :
    (p.spendOnHeadroom f).Sound p.vars 0 money := by
  exact List.foldlRecOn p.vars.zipIdx p.topUp h fun f' hf' entry hentry =>
    sound_topUp hf' (List.mem_zipIdx_iff_getElem?.mp hentry)

/-! ## The run and the result -/

/-- The greedy run of a program whose lower bounds fit into the income comes to an end, stays
within bounds and spends no more than there is. -/
theorem exists_greedy (h : checkMinimums p.vars p.income = .ok ()) :
    ∃ result, p.greedy = .ok result ∧
      result.2.Sound p.vars 0 (max p.income (sumOfMinimums p.vars)) := by
  have hgoals : ∀ g ∈ (tiers (·.priority) p.goals).flatMap (·.2), g ∈ p.goals := by
    intro g hg
    obtain ⟨tier, htier, hmem⟩ := List.mem_flatMap.mp hg
    exact mem_of_mem_tiers htier hmem
  obtain ⟨⟨rounds, f₁⟩, hclimb, h₁⟩ := exists_climbAll h
  obtain ⟨f₂, hspend, h₂⟩ := exists_spendOnGoals
    ((tiers (·.priority) p.goals).flatMap (·.2)).length hgoals h₁
  obtain ⟨f₃, hcategories, h₃⟩ := exists_spendOnCategories h₂
  exact ⟨_, bind_eq_ok.mpr ⟨_, hclimb, bind_eq_ok.mpr ⟨f₂, hspend, bind_eq_ok.mpr
    ⟨f₃, hcategories, rfl⟩⟩⟩, sound_spendOnHeadroom h₃⟩

/-- Whatever a greedy run comes to is sound. -/
theorem sound_greedy {result : Nat × Funds Rat} (h : p.greedy = .ok result) :
    result.2.Sound p.vars 0 (max p.income (sumOfMinimums p.vars)) := by
  obtain ⟨_, hclimb, _⟩ := bind_eq_ok.mp h
  obtain ⟨_, hstart, _⟩ := bind_eq_ok.mp hclimb
  obtain ⟨_, hcheck, _⟩ := bind_eq_ok.mp hstart
  obtain ⟨result', hresult', hsound⟩ := exists_greedy hcheck
  cases h.symm.trans hresult'
  exact hsound

/-- The amounts of a result are those of the solution. -/
theorem summarize_values {solution : List Rat} {method : Method} {iterations : Nat}
    {r : FuzzyResult Rat} (h : p.summarize solution method iterations = .ok r) :
    r.variableValues = p.valuesById solution := by
  obtain ⟨_, _, h⟩ := bind_eq_ok.mp h
  cases h
  rfl

/-- A program with variables is solved only if its lower bounds fit into the income. -/
theorem checkMinimums_of_solve {backends : Nat → Option (Backend Rat)} {r : FuzzyResult Rat}
    (h : p.solve backends = .ok r) : p.vars = [] ∨ checkMinimums p.vars p.income = .ok () := by
  unfold solve at h
  split at h
  next hnil => exact .inl (List.isEmpty_iff.mp hnil)
  next =>
    obtain ⟨_, hcheck, _⟩ := bind_eq_ok.mp h
    exact .inr hcheck

/-- However a program is solved, its result sums up a solution in which nothing is negative. -/
theorem exists_summarize_of_solve {backends : Nat → Option (Backend Rat)} {r : FuzzyResult Rat}
    (h : p.solve backends = .ok r) : ∃ solution method iterations, (∀ x ∈ solution, 0 ≤ x) ∧
      p.summarize solution method iterations = .ok r := by
  have hgreedy (h : p.solveGreedily = .ok r) :
      ∃ solution method iterations, (∀ x ∈ solution, 0 ≤ x) ∧
        p.summarize solution method iterations = .ok r := by
    obtain ⟨⟨rounds, f⟩, hrun, h⟩ := bind_eq_ok.mp h
    exact ⟨f.amounts, .greedy, rounds, (sound_greedy hrun).amounts_nonneg, h⟩
  unfold solve at h
  split at h
  next => exact ⟨[], .none, 0, fun _ hx => absurd hx List.not_mem_nil, h⟩
  next =>
    obtain ⟨_, _, h⟩ := bind_eq_ok.mp h
    split at h
    next =>
      refine ⟨_, .none, 0, fun x hx => ?_, h⟩
      obtain ⟨_, _, rfl⟩ := List.mem_map.mp hx
      exact le_refl 0
    next =>
      obtain ⟨_, _, h⟩ := bind_eq_ok.mp h
      dsimp only at h
      split at h
      next => exact hgreedy h
      next =>
        obtain ⟨answer, _, h⟩ := bind_eq_ok.mp h
        cases answer with
        | none => exact hgreedy h
        | some solution =>
          exact ⟨p.clampSolution solution, .milp, 1, GoalProgram.clampSolution_nonneg, h⟩

/-- Whatever a backend answers, no variable gets anything negative. -/
theorem solve_values_nonneg {backends : Nat → Option (Backend Rat)} {r : FuzzyResult Rat}
    (h : p.solve backends = .ok r) : ∀ e ∈ r.variableValues.entries, 0 ≤ e.2 := by
  obtain ⟨solution, method, iterations, hnonneg, hsummary⟩ := exists_summarize_of_solve h
  rw [summarize_values hsummary]
  exact GoalProgram.valuesById_nonneg hnonneg

end FuzzyProgram

end GoalBudget
