import GoalBudget.Proofs.Deviation.Achieved
import GoalBudget.Proofs.Deviation.Lexicographic

/-!
# Goals with a variable each

Where all goals ask for at least their target and no two of them share a variable, serving them is
pouring money into them one after the other: each goal takes what it needs (`need`) or all that the
goals before it have left (`amount_foldl_serve`). What a goal needs is known at the start, as the
others do not touch its variable. So the order decides who gets the money, but neither how much is
left (`left_foldl_serve`) nor, if something is left, what anybody gets
(`amount_foldl_serve_of_left`).

The programs of budgets without mandatory expenses and debts are of this kind (`apart`): every wish
has a variable of its own. For them the queue is a list of needs by position (`queue`), in the order
of service, which is the only thing that depends on priorities.
-/

namespace GoalBudget.DeviationProgram

variable {p : DeviationProgram Rat} {f f' : Funds Rat} {g : DeviationGoal Rat}
  {goals before after : List (DeviationGoal Rat)} {floors : List Rat} {i : Nat}

/-- How much the variable of a goal can still take. -/
def room (p : DeviationProgram Rat) (f : Funds Rat) (g : DeviationGoal Rat) : Limit Rat :=
  (p.vars[g.index]?.map fun v => v.headroom (f.amount g.index)).getD .unbounded

/-- What the variable of a goal lacks to the target, as far as there is room. -/
def need (p : DeviationProgram Rat) (f : Funds Rat) (g : DeviationGoal Rat) : Rat :=
  (p.room f g).hold (max 0 (g.target - f.amount g.index))

theorem need_nonneg : 0 ≤ p.need f g := by
  unfold need room
  cases p.vars[g.index]? with
  | none => exact le_max_left _ _
  | some v =>
    rw [Option.map_some, Option.getD_some, Variable.headroom]
    split
    next =>
      rw [Limit.hold_upTo, greatest_eq_max]
      exact le_min (le_max_left _ _) (le_max_left _ _)
    next => exact le_max_left _ _

/-- Only the amount of its own variable matters to what a goal needs. -/
theorem need_congr (h : f.amount g.index = f'.amount g.index) : p.need f g = p.need f' g := by
  rw [need, need, room, room, h]

/-- Holding the lesser of two amounts. -/
theorem hold_min (limit : Limit Rat) (x y : Rat) :
    limit.hold (min x y) = min (limit.hold x) y := by
  cases limit with
  | upTo bound => rw [Limit.hold_upTo, Limit.hold_upTo, min_right_comm]
  | endless => rfl

/-- A goal served takes what it needs, or all that is left. -/
theorem serve_eq_give_need (floors : List Rat) (hside : g.side = .atLeast) (hleft : 0 ≤ f.left) :
    p.serve floors f g = f.give g.index (min (p.need f g) f.left) := by
  have hnonneg : 0 ≤ min (p.need f g) f.left := le_min need_nonneg hleft
  unfold serve
  dsimp only
  split
  next hraise =>
    have hmissing : max 0 (g.target - f.amount g.index) = g.target - f.amount g.index :=
      max_eq_right (sub_pos.mpr hraise.2).le
    have hgiven : (p.room f g).hold (least (g.target - f.amount g.index) f.left) =
        min (p.need f g) f.left := by
      rw [least_eq_min, hold_min, need, hmissing]
    rw [room] at hgiven
    rw [hgiven]
    split
    next => rfl
    -- Nothing is missing, or nothing can be given: a gift of zero.
    next hzero => rw [le_antisymm (not_lt.mp hzero) hnonneg, Funds.give_zero]
  next hreached =>
    have htarget : g.target ≤ f.amount g.index := by
      refine not_lt.mp fun h => hreached ⟨?_, h⟩
      rw [hside]
      decide
    have hnothing : p.need f g ≤ 0 :=
      (Limit.hold_le _ _).trans_eq (max_eq_left (sub_nonpos.mpr htarget))
    rw [if_neg (fun h => h.1 hside), le_antisymm hnothing need_nonneg, min_eq_left hleft,
      Funds.give_zero]

/-- Goals that ask for at least their target, each with a variable of its own. -/
structure Apart (goals : List (DeviationGoal Rat)) : Prop where
  sides : ∀ g ∈ goals, g.side = .atLeast
  indices : (goals.map (·.index)).Nodup

/-- The first of several goals apart, and the others. -/
theorem Apart.of_cons (h : Apart (g :: goals)) :
    g.side = .atLeast ∧ (∀ other ∈ goals, other.index ≠ g.index) ∧ Apart goals := by
  obtain ⟨hside, hsides⟩ := List.forall_mem_cons.mp h.sides
  obtain ⟨hfirst, hrest⟩ := List.nodup_cons.mp h.indices
  refine ⟨hside, fun other hother heq => hfirst ?_, hsides, hrest⟩
  exact List.mem_map.mpr ⟨other, hother, heq⟩

/-- A goal served leaves what the others need as it is. -/
theorem needs_give {x : Rat} (h : ∀ other ∈ goals, other.index ≠ g.index) :
    goals.map (p.need (f.give g.index x)) = goals.map (p.need f) :=
  List.map_congr_left fun other hother => need_congr (Funds.amount_give_ne (h other hother))

/-- What is left does not depend on the order. -/
theorem left_foldl_serve (floors : List Rat) (h : Apart goals) (hleft : 0 ≤ f.left) :
    (goals.foldl (p.serve floors) f).left = max 0 (f.left - (goals.map (p.need f)).sum) := by
  induction goals generalizing f with
  | nil => simp [hleft]
  | cons g rest ih =>
    obtain ⟨hside, hothers, hrest⟩ := h.of_cons
    have hnext : (f.give g.index (min (p.need f g) f.left)).left = max 0 (f.left - p.need f g) := by
      show f.left - min (p.need f g) f.left = _
      rcases le_total (p.need f g) f.left with hle | hle
      · rw [min_eq_left hle, max_eq_right (sub_nonneg.mpr hle)]
      · rw [min_eq_right hle, sub_self, max_eq_left (sub_nonpos.mpr hle)]
    have hneeds : 0 ≤ (rest.map (p.need f)).sum :=
      List.sum_nonneg fun x hx => by
        obtain ⟨other, _, rfl⟩ := List.mem_map.mp hx
        exact need_nonneg
    rw [List.foldl_cons, serve_eq_give_need floors hside hleft,
      ih hrest (hnext ▸ le_max_left _ _), needs_give hothers, hnext, List.map_cons, List.sum_cons,
      ← sub_sub]
    rcases max_choice 0 (f.left - p.need f g) with hmax | hmax
    · -- nothing is left for the rest either
      have hspent : f.left - p.need f g ≤ 0 := max_eq_left_iff.mp hmax
      rw [hmax, max_eq_left (by linarith), max_eq_left (by linarith)]
    · rw [hmax]

theorem length_foldl_serve :
    (goals.foldl (p.serve floors) f).amounts.length = f.amounts.length := by
  refine List.foldlRecOn goals _
    (motive := fun f' : Funds Rat => f'.amounts.length = f.amounts.length) rfl ?_
  intro f' hf' g _
  rcases p.serve_cases floors f' g with hserve | ⟨x, _, hserve⟩ | ⟨x, _, hserve⟩
  · rw [hserve, hf']
  · rw [hserve, Funds.give, List.length_modify, hf']
  · rw [hserve, Funds.give, List.length_modify, hf']

/-- Variables that no goal is on keep their amounts. -/
theorem amount_foldl_serve_of_ne (h : ∀ g ∈ goals, g.index ≠ i) :
    (goals.foldl (p.serve floors) f).amount i = f.amount i := by
  have hamounts : (goals.foldl (p.serve floors) f).amounts[i]? = f.amounts[i]? := by
    refine List.foldlRecOn goals _
      (motive := fun f' : Funds Rat => f'.amounts[i]? = f.amounts[i]?) rfl ?_
    intro f' hf' g hg
    exact (amounts_serve (h g hg)).trans hf'
  rw [Funds.amount, List.getD_eq_getElem?_getD, hamounts, Funds.amount,
    List.getD_eq_getElem?_getD]

/-- A goal gets what it needs, or all that the goals before it leave. -/
theorem amount_foldl_serve (floors : List Rat) (h : Apart (before ++ g :: after))
    (hleft : 0 ≤ f.left) (hi : g.index < f.amounts.length) :
    ((before ++ g :: after).foldl (p.serve floors) f).amount g.index =
      f.amount g.index + min (p.need f g) (max 0 (f.left - (before.map (p.need f)).sum)) := by
  obtain ⟨hbefore, hafter, hapart⟩ := List.nodup_append.mp (List.map_append ▸ h.indices)
  have hfront : Apart before := ⟨fun g' hg' => h.sides g' (List.mem_append_left _ hg'), hbefore⟩
  have hback : Apart (g :: after) :=
    ⟨fun g' hg' => h.sides g' (List.mem_append_right _ hg'), hafter⟩
  obtain ⟨hside, hothers, _⟩ := hback.of_cons
  have huntouched : (before.foldl (p.serve floors) f).amount g.index = f.amount g.index := by
    refine amount_foldl_serve_of_ne fun g' hg' heq => ?_
    exact hapart _ (List.mem_map_of_mem hg') _ (List.mem_cons_self ..) heq
  have hlength : g.index < (before.foldl (p.serve floors) f).amounts.length := by
    rw [length_foldl_serve]
    exact hi
  have hleft' := left_foldl_serve (p := p) floors hfront hleft
  rw [List.foldl_append, List.foldl_cons, amount_foldl_serve_of_ne hothers,
    serve_eq_give_need floors hside (hleft' ▸ le_max_left _ _), Funds.amount_give hlength,
    if_pos rfl, huntouched, need_congr huntouched, hleft']

/-- Where something is left in the end, every goal has got what it needs. -/
theorem amount_foldl_serve_of_left (floors : List Rat) (h : Apart goals) (hleft : 0 ≤ f.left)
    (hend : 0 < (goals.foldl (p.serve floors) f).left) (hg : g ∈ goals)
    (hi : g.index < f.amounts.length) :
    (goals.foldl (p.serve floors) f).amount g.index = f.amount g.index + p.need f g := by
  obtain ⟨before, after, rfl⟩ := List.append_of_mem hg
  have hneeds : 0 ≤ (after.map (p.need f)).sum :=
    List.sum_nonneg fun x hx => by
      obtain ⟨other, _, rfl⟩ := List.mem_map.mp hx
      exact need_nonneg
  rw [left_foldl_serve floors h hleft, lt_max_iff, or_iff_right (lt_irrefl 0), List.map_append,
    List.sum_append, List.map_cons, List.sum_cons] at hend
  have hfirst : p.need f g ≤ f.left - (before.map (p.need f)).sum := by linarith
  rw [amount_foldl_serve floors h hleft hi, min_eq_left (hfirst.trans (le_max_right _ _))]

/-! ## Programs that aim at wishes -/

/-- What a wish needs on top of the lower bound of its variable. -/
def Wish.need (w : Wish) : Rat :=
  (w.on.headroom w.on.minimum).hold (max 0 (w.target - w.on.minimum))

/-- What the wish at a position needs. -/
def needAt (ws : List Wish) (i : Nat) : Rat := (ws[i]?).elim 0 Wish.need

/-- The positions of the variables in the order in which their goals are served. -/
def queue (p : DeviationProgram Rat) : List Nat := p.inOrder.map (·.index)

variable {q : DeviationProgram Rat} {ws : List Wish} {front back : List Nat}

theorem start_left_nonneg : 0 ≤ p.start.left := by
  rw [start, greatest_eq_max]
  exact le_max_left _ _

theorem mem_inOrder : g ∈ p.inOrder ↔ g ∈ p.goals := (List.mergeSort_perm _ _).mem_iff

namespace AimsAt

variable (h : p.AimsAt ws)
include h

/-- Every goal is for the wish at the position of its variable. -/
theorem exists_wish (hg : g ∈ p.goals) : ∃ w, ws[g.index]? = some w ∧ g.id = w.on.id ∧
    g.target = w.target ∧ g.side = .atLeast := by
  have hmem : outline g ∈ ws.zipIdx.map Wish.outline := h.goals ▸ List.mem_map_of_mem hg
  obtain ⟨⟨w, i⟩, hw, heq⟩ := List.mem_map.mp hmem
  obtain ⟨hid, hindex, htarget, hside⟩ : w.on.id = g.id ∧ i = g.index ∧ w.target = g.target ∧
      Side.atLeast = g.side := by simpa [outline, Wish.outline] using heq
  exact ⟨w, hindex ▸ List.mk_mem_zipIdx_iff_getElem?.mp hw, hid.symm, htarget.symm, hside.symm⟩

theorem queue_perm : p.queue.Perm (List.range ws.length) := by
  have hindices : p.goals.map (·.index) = List.range ws.length := by
    have hmap := congrArg (List.map fun o => o.2.1) h.goals
    rw [List.map_map, List.map_map] at hmap
    refine hmap.trans ?_
    rw [List.range_eq_range', ← List.zipIdx_map_snd 0 ws]
    rfl
  rw [← hindices]
  exact (List.mergeSort_perm _ _).map _

/-- Each goal has a variable of its own. -/
theorem apart : Apart p.inOrder where
  sides g hg := by
    obtain ⟨_, _, _, _, hside⟩ := h.exists_wish (mem_inOrder.mp hg)
    exact hside
  indices := h.queue_perm.nodup_iff.mpr List.nodup_range

/-- At the start a variable has the minimum of its item. -/
theorem amount_start {w : Wish} (hw : ws[i]? = some w) : p.start.amount i = w.on.minimum := by
  rw [start, Funds.amount, List.getD_eq_getElem?_getD, List.getElem?_map, h.getElem?_vars hw]
  rfl

/-- What a goal needs at the start is what its wish needs. -/
theorem need_start (hg : g ∈ p.goals) : p.need p.start g = needAt ws g.index := by
  obtain ⟨w, hw, _, htarget, _⟩ := h.exists_wish hg
  rw [needAt, hw, need, room, h.getElem?_vars hw, h.amount_start hw, htarget]
  rfl

theorem map_need_start {goals : List (DeviationGoal Rat)} (hgoals : ∀ g ∈ goals, g ∈ p.goals) :
    goals.map (p.need p.start) = (goals.map (·.index)).map (needAt ws) := by
  rw [List.map_map]
  exact List.map_congr_left fun g hg => h.need_start (hgoals g hg)

theorem length_served : p.served.amounts.length = ws.length := by
  rw [served, length_foldl_serve, start, List.length_map, h.vars, List.length_map]

/-- What is left in the end. -/
theorem left_served :
    p.served.left = max 0 (p.start.left - ((List.range ws.length).map (needAt ws)).sum) := by
  rw [served, left_foldl_serve [] h.apart start_left_nonneg,
    h.map_need_start fun g => mem_inOrder.mp, ← queue, (h.queue_perm.map _).sum_eq]

/-- A variable gets what its wish needs, or all that those before it leave. -/
theorem amount_served (hqueue : p.queue = front ++ i :: back) : p.served.amount i =
    p.start.amount i + min (needAt ws i) (max 0 (p.start.left - (front.map (needAt ws)).sum)) := by
  obtain ⟨before, rest, horder, hfront, hrest⟩ := List.map_eq_append_iff.mp hqueue
  obtain ⟨g, after, rfl, hindex, _⟩ := List.map_eq_cons_iff.mp hrest
  have hmem (other : DeviationGoal Rat) (hother : other ∈ before ++ g :: after) :
      other ∈ p.goals := mem_inOrder.mp (horder ▸ hother)
  have hg := hmem g (List.mem_append_right _ (List.mem_cons_self ..))
  have hlength : g.index < p.start.amounts.length := by
    rw [start, List.length_map]
    exact p.index_lt g hg
  rw [← hindex, served, horder, amount_foldl_serve [] (horder ▸ h.apart) start_left_nonneg hlength,
    h.need_start hg, h.map_need_start fun g hg => hmem g (List.mem_append_left _ hg), hfront]

/-- Where something is left, every variable has got what its wish needs. -/
theorem amount_served_of_left (hleft : 0 < p.served.left) (hi : i < ws.length) :
    p.served.amount i = p.start.amount i + needAt ws i := by
  have hmem : i ∈ p.queue := h.queue_perm.mem_iff.mpr (List.mem_range.mpr hi)
  obtain ⟨g, hg, rfl⟩ := List.mem_map.mp hmem
  have hgoal := mem_inOrder.mp hg
  have hlength : g.index < p.start.amounts.length := by
    rw [start, List.length_map]
    exact p.index_lt g hgoal
  rw [served, amount_foldl_serve_of_left [] h.apart start_left_nonneg hleft hg hlength,
    h.need_start hgoal]

end AimsAt

end GoalBudget.DeviationProgram
