import GoalBudget.Proofs.Curve.Checked
import GoalBudget.Proofs.Curve.Drawn
import GoalBudget.Proofs.Fuzzy.Block
import GoalBudget.Proofs.Fuzzy.Curves
import GoalBudget.Proofs.Ledger.Lookup

/-!
# Curves as rows, exactly

Goals are added to an encoding one by one, each with its columns behind those in use
(`Encoding.Laid`, kept by `Laid.add`). A block of a curve that is drawn allows every satisfaction
from zero up to the curve and no other one: whatever line is selected, it is nowhere above the curve
(`Block.Holds.le_degree`), and one of the lines that can be selected reaches it
(`Block.exists_holds`). Since a block does not look behind its own columns, the blocks can be
satisfied one after the other (`Encoding.exists_assignment`, and as a point
`Encoding.exists_point`).

What an encoding says of a point is said column by column and block by block (`Laid.feasible_iff`),
so the list of statements is taken apart once and for all.

Main result: `Encoding.ofGoals_exact`. It is about all amounts between zero and the bound and all
satisfactions, and about any number of goals on any variables, several on one included.
-/

namespace GoalBudget

/-- What a goal is added to an encoding with. -/
structure EncodedGoal where
  goalId : String
  variableColumn : Nat
  curve : Curve Rat
  weight : Rat

/-- A goal on one of `n` variables whose curve is traced by its cut wherever the variable may be. -/
structure EncodedGoal.Fits (g : EncodedGoal) (n : Nat) (bigM : Rat) : Prop where
  column_lt : g.variableColumn < n
  traced : ∀ x, 0 ≤ x → x ≤ bigM → g.curve.TracedAt (g.curve.decompose bigM) x

namespace Block

/-- The block of a goal, with columns from `column` on. -/
def ofGoal (column : Nat) (bigM : Rat) (g : EncodedGoal) : Block Rat :=
  Encoding.blockFrom column bigM g.goalId g.variableColumn g.curve g.weight

/-- Whether a block is made for a goal, with a bound on all variables. -/
structure Serves (b : Block Rat) (bigM : Rat) (g : EncodedGoal) : Prop where
  goalId : b.goalId = g.goalId
  variableColumn : b.variableColumn = g.variableColumn
  segments : b.segments = g.curve.decompose bigM
  cap : ∀ s ∈ b.segments, s.cap ≤ b.cap

variable {b : Block Rat} {bigM : Rat} {g : EncodedGoal} {y : Nat → Rat}

/-- A block that is laid behind its variable is in its place. -/
theorem placed_ofGoal {column : Nat} (h : g.variableColumn < column) :
    (ofGoal column bigM g).Placed := ⟨h, rfl⟩

/-- The block made for a goal serves it. -/
theorem serves_ofGoal (column : Nat) (bigM : Rat) (g : EncodedGoal) :
    (ofGoal column bigM g).Serves bigM g := by
  refine ⟨rfl, rfl, rfl, ?_⟩
  intro s hs
  simp only [ofGoal, Encoding.blockFrom] at hs ⊢
  cases hsegments : g.curve.decompose bigM with
  | nil =>
    rw [hsegments] at hs
    cases hs
  | cons first rest =>
    rw [hsegments] at hs
    exact Curve.cap_le_largestCap s hs

section
variable (hb : b.Placed) (hserves : b.Serves bigM g)
  (htraced : g.curve.TracedAt (g.curve.decompose bigM) (y b.variableColumn))
include hb hserves htraced

/-- No line that can be selected is above the curve. -/
theorem Holds.le_degree (h : b.Holds bigM y) :
    y b.membershipColumn ≤ g.curve.degree (y b.variableColumn) := by
  obtain ⟨p, hp, _, hcovers, hle⟩ := h.selected hb
  have hmem : p.1 ∈ g.curve.decompose bigM := hserves.segments ▸ (List.of_mem_zip hp).1
  exact hle.trans (htraced.1 p.1 hmem hcovers)

/-- Every satisfaction up to the curve is possible, whatever the other columns hold. -/
theorem exists_holds (hx : 0 ≤ y b.variableColumn) (hbound : y b.variableColumn ≤ bigM) {v : Rat}
    (hnonneg : 0 ≤ v) (hle : v ≤ g.curve.degree (y b.variableColumn)) :
    ∃ z : Nat → Rat, (∀ j < b.membershipColumn, z j = y j) ∧ z b.membershipColumn = v ∧
      b.Holds bigM z := by
  obtain ⟨_, s, hs, hcovers, hline, hcap⟩ := htraced
  have hs : s ∈ b.segments := hserves.segments ▸ hs
  obtain ⟨i, hp⟩ := hb.exists_indicator hs
  -- the columns before the block stay as they are, the line that reaches the curve is selected
  let z (j : Nat) : Rat :=
    if j < b.membershipColumn then y j
    else if j = b.membershipColumn then v
    else if j = i then 1 else 0
  have hbefore (j : Nat) (hj : j < b.membershipColumn) : z j = y j := if_pos hj
  have hmembership : z b.membershipColumn = v :=
    (if_neg (lt_irrefl _)).trans (if_pos rfl)
  have hvalues (j : Nat) (hj : j ∈ b.indicators) : z j = if j = i then 1 else 0 := by
    have hlt := (hb.mem_indicators.mp hj).1
    exact (if_neg (by omega)).trans (if_neg (by omega))
  refine ⟨z, hbefore, hmembership, ?_⟩
  have hvariable := hbefore _ hb.variable_lt
  have hle : v ≤ s.lineAt (y b.variableColumn) := by rwa [hline]
  have hcap : v ≤ b.cap := (hle.trans (le_of_eq hline)).trans (hcap.trans (hserves.cap s hs))
  refine holds_of_selected hb hp hvalues ?_ ?_ ?_ ?_ ?_ ?_
  · rwa [hvariable]
  · rwa [hvariable]
  · rwa [hvariable]
  · rwa [hmembership]
  · rwa [hmembership, hvariable]
  · rwa [hmembership]

end

end Block

namespace Encoding

/-- One more goal. -/
def add (e : Encoding Rat) (g : EncodedGoal) : Encoding Rat :=
  e.addGoal g.goalId g.variableColumn g.curve g.weight

/-- The encoding of goals added in order. -/
def ofGoals (n : Nat) (bigM : Rat) (goals : List EncodedGoal) : Encoding Rat :=
  goals.foldl add (.blank n bigM)

/-- An encoding of goals: one block for each, the blocks side by side behind the variables. -/
structure Laid (e : Encoding Rat) (n : Nat) (bigM : Rat) (goals : List EncodedGoal) : Prop where
  continuous : e.continuous = n
  bound : e.bigM = bigM
  ids : e.blocks.map (·.goalId) = goals.map (·.goalId)
  served : ∀ g ∈ goals, ∃ b ∈ e.blocks, b.Serves bigM g
  serves : ∀ b ∈ e.blocks, ∃ g ∈ goals, b.Serves bigM g
  placed : ∀ b ∈ e.blocks, b.Placed
  le : n ≤ e.width
  columns : e.blocks.flatMap Block.columns = List.range' n (e.width - n)

variable {e : Encoding Rat} {n : Nat} {bigM : Rat} {goals : List EncodedGoal}

/-- Without goals no columns are laid. -/
theorem laid_blank (n : Nat) (bigM : Rat) : (blank n bigM).Laid n bigM [] := by
  refine ⟨rfl, rfl, rfl, nofun, nofun, nofun, le_refl n, ?_⟩
  show [] = List.range' n (n - n)
  rw [Nat.sub_self, List.range'_zero]

/-- A goal more is a block more. -/
theorem Laid.blocks_add (h : e.Laid n bigM goals) (g : EncodedGoal) :
    (e.add g).blocks = e.blocks ++ [Block.ofGoal e.width bigM g] := by
  rw [Encoding.add, addGoal, h.bound]
  rfl

theorem Laid.width_add (h : e.Laid n bigM goals) (g : EncodedGoal) :
    (e.add g).width = e.width + 1 + (g.curve.decompose bigM).length := by
  rw [Encoding.add, addGoal, h.bound]
  rfl

/-- Adding a goal lays its columns behind the others. -/
theorem Laid.add (h : e.Laid n bigM goals) {g : EncodedGoal} (hg : g.variableColumn < n) :
    (e.add g).Laid n bigM (goals ++ [g]) := by
  have hblocks := h.blocks_add g
  have hwidth := h.width_add g
  have hserves := Block.serves_ofGoal e.width bigM g
  have hnew : (Block.ofGoal e.width bigM g).Placed := Block.placed_ofGoal (hg.trans_le h.le)
  constructor
  case continuous => exact h.continuous
  case bound => exact h.bound
  case ids =>
    rw [hblocks, List.map_append, List.map_append, h.ids]
    rfl
  case served =>
    intro g' hg'
    rw [hblocks]
    rcases List.mem_append.mp hg' with hg' | hg'
    · obtain ⟨b, hb, hb'⟩ := h.served g' hg'
      exact ⟨b, List.mem_append_left _ hb, hb'⟩
    · cases List.mem_singleton.mp hg'
      exact ⟨_, List.mem_append_right _ (List.mem_singleton_self _), hserves⟩
  case serves =>
    intro b hb
    rw [hblocks] at hb
    rcases List.mem_append.mp hb with hb | hb
    · obtain ⟨g', hg', hb'⟩ := h.serves b hb
      exact ⟨g', List.mem_append_left _ hg', hb'⟩
    · cases List.mem_singleton.mp hb
      exact ⟨g, List.mem_append_right _ (List.mem_singleton_self _), hserves⟩
  case placed =>
    intro b hb
    rw [hblocks] at hb
    rcases List.mem_append.mp hb with hb | hb
    · exact h.placed b hb
    · cases List.mem_singleton.mp hb
      exact hnew
  case le =>
    have hle := h.le
    omega
  case columns =>
    have hle := h.le
    rw [hblocks, List.flatMap_append, h.columns, List.flatMap_singleton, hnew.columns_eq, hwidth]
    -- the new columns start where the old ones end
    have hstart : n + (e.width - n) = e.width := by omega
    have hlength : e.width + 1 + (g.curve.decompose bigM).length - n =
        e.width - n + ((g.curve.decompose bigM).length + 1) := by omega
    have happend : List.range' n (e.width - n) ++
        List.range' (n + (e.width - n)) ((g.curve.decompose bigM).length + 1) =
        List.range' n (e.width - n + ((g.curve.decompose bigM).length + 1)) :=
      List.range'_append_1
    rw [hlength, ← happend, hstart]
    rfl

/-- The last goal is added last. -/
theorem ofGoals_append (goals : List EncodedGoal) (g : EncodedGoal) :
    ofGoals n bigM (goals ++ [g]) = (ofGoals n bigM goals).add g := List.foldl_append

/-- How goals are laid out does not depend on their curves. -/
theorem laid_of_column_lt (hgoals : ∀ g ∈ goals, g.variableColumn < n) :
    (ofGoals n bigM goals).Laid n bigM goals := by
  induction goals using List.reverseRecOn with
  | nil => exact laid_blank n bigM
  | append_singleton goals g ih =>
    obtain ⟨hgoals, hlast⟩ := List.forall_mem_append.mp hgoals
    rw [ofGoals_append]
    exact (ih hgoals).add (hlast g (List.mem_singleton_self g))

/-- The encoding of some goals is laid. -/
theorem laid_ofGoals (hgoals : ∀ g ∈ goals, g.Fits n bigM) :
    (ofGoals n bigM goals).Laid n bigM goals :=
  laid_of_column_lt fun g hg => (hgoals g hg).column_lt

/-! ## What an encoding says -/

section
variable (h : e.Laid n bigM goals)
include h

theorem Laid.mem_columns {j : Nat} : (∃ b ∈ e.blocks, j ∈ b.columns) ↔ n ≤ j ∧ j < e.width := by
  have hle := h.le
  rw [← List.mem_flatMap, h.columns, List.mem_range'_1]
  omega

/-- No two blocks share a column. -/
theorem Laid.disjoint : e.blocks.Pairwise fun a b => a.columns.Disjoint b.columns :=
  (List.nodup_flatMap.mp (h.columns ▸ List.nodup_range')).2

/-- Every block lies within the encoding. -/
theorem Laid.block_le {b : Block Rat} (hb : b ∈ e.blocks) :
    b.membershipColumn + 1 + b.segments.length ≤ e.width := by
  have hlast : b.membershipColumn + b.segments.length ∈ b.columns := by
    rw [(h.placed b hb).columns_eq, List.mem_range'_1]
    omega
  have hlt := (h.mem_columns.mp ⟨b, hb, hlast⟩).2
  omega

/-- Every column behind those of the variables is stated once, in order. -/
theorem Laid.statedColumns : (Program.statedColumns e.calls).map Prod.fst =
    List.range' n (e.width - n) := by
  rw [Program.statedColumns, calls, List.filterMap_flatMap, List.map_flatMap, ← h.columns]
  refine List.flatMap_congr fun b _ => ?_
  have hstated := Block.statedColumns_calls b e.bigM e.width
  rw [Program.statedColumns] at hstated
  rw [hstated, List.map_cons, List.map_map, Block.columns]
  exact congrArg _ (List.map_id _)

/-- A point respects what is stated about the blocks when its values make all of them hold. -/
theorem Laid.respects_iff (point : List Rat) :
    ((∀ pair ∈ Program.statedColumns e.calls, pair.2.Allows (point.getD pair.1 0)) ∧
        ∀ r ∈ e.calls.filterMap Call.statedRow, r.Holds point) ↔
      ∀ b ∈ e.blocks, b.Holds bigM fun j => point.getD j 0 := by
  rw [Program.statedColumns, calls, List.filterMap_flatMap, List.filterMap_flatMap,
    List.forall_mem_flatMap, List.forall_mem_flatMap, ← forall₂_and, h.bound]
  exact forall₂_congr fun b hb => Block.holds_iff (h.placed b hb) (h.block_le hb) point

/-- A point is feasible when its values make all blocks hold. -/
theorem Laid.feasible_iff (point : List Rat) :
    (Program.ofCalls e.width e.calls).Feasible point ↔ point.length = e.width ∧
      (∀ j < n, 0 ≤ point.getD j 0) ∧ ∀ b ∈ e.blocks, b.Holds bigM fun j => point.getD j 0 := by
  have hle := h.le
  have hnodup : ((Program.statedColumns e.calls).map Prod.fst).Nodup := by
    rw [h.statedColumns]
    exact List.nodup_range'
  have hlt : ∀ pair ∈ Program.statedColumns e.calls, pair.1 < e.width := by
    intro pair hpair
    have hmem := List.mem_map_of_mem (f := Prod.fst) hpair
    rw [h.statedColumns, List.mem_range'_1] at hmem
    omega
  have hfront : (∀ j < e.width, j ∉ (Program.statedColumns e.calls).map Prod.fst →
      0 ≤ point.getD j 0) ↔ ∀ j < n, 0 ≤ point.getD j 0 := by
    simp only [h.statedColumns, List.mem_range'_1]
    constructor
    · exact fun hall j hj => hall j (by omega) (by omega)
    · exact fun hall j _ hj => hall j (by omega)
  rw [Program.feasible_ofCalls_iff hnodup hlt, hfront, ← h.respects_iff]
  tauto

end

/-! ## Every satisfaction up to the curves -/

/-- Goals are served by the blocks in order, by their weights. -/
theorem serves_ofGoals (hgoals : ∀ g ∈ goals, g.Fits n bigM) :
    List.Forall₂ (fun b g => b.Serves bigM g ∧ b.weight = g.weight)
      (ofGoals n bigM goals).blocks goals := by
  induction goals using List.reverseRecOn with
  | nil => exact .nil
  | append_singleton goals g ih =>
    have hgoals := (List.forall_mem_append.mp hgoals).1
    rw [ofGoals_append, (laid_ofGoals hgoals).blocks_add]
    exact List.rel_append (ih hgoals) (.cons ⟨Block.serves_ofGoal _ _ _, rfl⟩ .nil)

/-- An assignment of the variables extends to the columns of all blocks. -/
theorem exists_assignment {x : Nat → Rat} (hx : ∀ i < n, 0 ≤ x i ∧ x i ≤ bigM)
    {u : EncodedGoal → Rat} (hgoals : ∀ g ∈ goals, g.Fits n bigM)
    (hu : ∀ g ∈ goals, 0 ≤ u g ∧ u g ≤ g.curve.degree (x g.variableColumn)) :
    ∃ y : Nat → Rat, (∀ j < n, y j = x j) ∧
      (∀ b ∈ (ofGoals n bigM goals).blocks, b.Holds bigM y) ∧
      (ofGoals n bigM goals).blocks.map (fun b => y b.membershipColumn) = goals.map u := by
  induction goals using List.reverseRecOn with
  | nil => exact ⟨x, fun _ _ => rfl, nofun, rfl⟩
  | append_singleton goals g ih =>
    obtain ⟨hgoals, hgoal⟩ := List.forall_mem_append.mp hgoals
    obtain ⟨hu, hv⟩ := List.forall_mem_append.mp hu
    obtain ⟨hcolumn, htraced⟩ := hgoal g (List.mem_singleton_self g)
    obtain ⟨hnonneg, hle⟩ := hv g (List.mem_singleton_self g)
    obtain ⟨y, hy, hholds, hvalues⟩ := ih hgoals hu
    have hlaid := laid_ofGoals hgoals
    obtain ⟨hx, hbound⟩ := hx g.variableColumn hcolumn
    have hyx : y g.variableColumn = x g.variableColumn := hy _ hcolumn
    rw [← hyx] at hx hbound hle
    let b := Block.ofGoal (ofGoals n bigM goals).width bigM g
    have hplaced : b.Placed := Block.placed_ofGoal (hcolumn.trans_le hlaid.le)
    have hserves : b.Serves bigM g := Block.serves_ofGoal _ _ _
    obtain ⟨z, hz, hzv, hzholds⟩ := Block.exists_holds hplaced hserves
      (htraced _ hx hbound) hx hbound hnonneg hle
    -- the new columns are behind those of the blocks before
    have hold (b' : Block Rat) (hb' : b' ∈ (ofGoals n bigM goals).blocks) (j : Nat)
        (hj : j < b'.membershipColumn + 1 + b'.segments.length) : z j = y j :=
      hz j (hj.trans_le (hlaid.block_le hb'))
    rw [ofGoals_append, hlaid.blocks_add]
    refine ⟨z, fun j hj => (hz j (hj.trans_le hlaid.le)).trans (hy j hj), ?_, ?_⟩
    · intro b' hb'
      rcases List.mem_append.mp hb' with hb' | hb'
      · exact (hholds b' hb').congr (hlaid.placed b' hb') fun j hj => (hold b' hb' j hj).symm
      · cases List.mem_singleton.mp hb'
        exact hzholds
    · rw [List.map_append, List.map_append, ← hvalues]
      refine congrArg₂ _ (List.map_congr_left fun b' hb' => hold b' hb' _ (by omega)) ?_
      exact congrArg (fun v => [v]) hzv

/-- Amounts of the variables and satisfactions up to the curves are the values of a point. -/
theorem exists_point {x : Nat → Rat} (hx : ∀ i < n, 0 ≤ x i ∧ x i ≤ bigM)
    {u : EncodedGoal → Rat} (hgoals : ∀ g ∈ goals, g.Fits n bigM)
    (hu : ∀ g ∈ goals, 0 ≤ u g ∧ u g ≤ g.curve.degree (x g.variableColumn)) :
    ∃ point : List Rat, point.length = (ofGoals n bigM goals).width ∧
      (∀ j < n, point.getD j 0 = x j) ∧
      (∀ b ∈ (ofGoals n bigM goals).blocks, b.Holds bigM fun j => point.getD j 0) ∧
      (ofGoals n bigM goals).blocks.map (fun b => point.getD b.membershipColumn 0) =
        goals.map u := by
  have h := laid_ofGoals hgoals
  have hle := h.le
  obtain ⟨y, hy, hholds, hvalues⟩ := exists_assignment hx hgoals hu
  have hvalue (j : Nat) (hj : j < (ofGoals n bigM goals).width) :
      ((List.range (ofGoals n bigM goals).width).map y).getD j 0 = y j := by
    rw [List.getD_eq_getElem _ _ (by simpa using hj), List.getElem_map, List.getElem_range]
  refine ⟨(List.range (ofGoals n bigM goals).width).map y, by simp, ?_, ?_, ?_⟩
  · intro j hj
    rw [hvalue j (by omega), hy j hj]
  · intro b hb
    have hlast := h.block_le hb
    exact (hholds b hb).congr (h.placed b hb) fun j hj => (hvalue j (by omega)).symm
  · rw [← hvalues]
    refine List.map_congr_left fun b hb => ?_
    have hlast := h.block_le hb
    exact hvalue _ (by omega)

/-! ## Exactness -/

/-- A feasible point at given amounts of the variables with given satisfactions of the goals. -/
structure Extends (e : Encoding Rat) (x : Nat → Rat) (u : String → Rat) (point : List Rat) :
    Prop where
  feasible : (Program.ofCalls e.width e.calls).Feasible point
  amounts : ∀ i < e.continuous, point.getD i 0 = x i
  satisfactions : ∀ b ∈ e.blocks, point.getD b.membershipColumn 0 = u b.goalId

section
variable (h : e.Laid n bigM goals) (hgoals : ∀ g ∈ goals, g.Fits n bigM) {x : Nat → Rat}
  (hx : ∀ i < n, 0 ≤ x i ∧ x i ≤ bigM) {u : String → Rat} {point : List Rat}
include h hgoals

/-- What a feasible point makes of a goal. -/
theorem Laid.extends_block (hextends : e.Extends x u point) {g : EncodedGoal} (hg : g ∈ goals) :
    ∃ b ∈ e.blocks, b.Serves bigM g ∧ b.Holds bigM (fun j => point.getD j 0) ∧
      point.getD b.variableColumn 0 = x g.variableColumn ∧
      point.getD b.membershipColumn 0 = u g.goalId := by
  obtain ⟨hfeasible, hamounts, hsatisfactions⟩ := hextends
  obtain ⟨_, _, hholds⟩ := (h.feasible_iff point).mp hfeasible
  obtain ⟨b, hb, hserves⟩ := h.served g hg
  refine ⟨b, hb, hserves, hholds b hb, ?_, ?_⟩
  · rw [hserves.variableColumn]
    exact hamounts _ (h.continuous ▸ (hgoals g hg).column_lt)
  · rw [hsatisfactions b hb, hserves.goalId]

include hx

/-- Satisfactions that are possible lie below the curves. -/
theorem Laid.le_degree_of_extends (hextends : e.Extends x u point) :
    ∀ g ∈ goals, 0 ≤ u g.goalId ∧ u g.goalId ≤ g.curve.degree (x g.variableColumn) := by
  intro g hg
  obtain ⟨hcolumn, htraced⟩ := hgoals g hg
  obtain ⟨b, hb, hserves, hholds, hamount, hsatisfaction⟩ := h.extends_block hgoals hextends hg
  obtain ⟨hnonneg, hbound⟩ := hx g.variableColumn hcolumn
  rw [← hamount] at hnonneg hbound ⊢
  rw [← hsatisfaction]
  have hle := Block.Holds.le_degree (h.placed b hb) hserves (htraced _ hnonneg hbound) hholds
  exact ⟨hholds.nonneg, hle⟩

end

/-- Satisfactions below the curves are possible. -/
theorem exists_extends (hgoals : ∀ g ∈ goals, g.Fits n bigM) {x : Nat → Rat}
    (hx : ∀ i < n, 0 ≤ x i ∧ x i ≤ bigM) {u : String → Rat}
    (hu : ∀ g ∈ goals, 0 ≤ u g.goalId ∧ u g.goalId ≤ g.curve.degree (x g.variableColumn)) :
    ∃ point, (ofGoals n bigM goals).Extends x u point := by
  have h := laid_ofGoals hgoals
  obtain ⟨point, hlen, hamounts, hholds, hvalues⟩ :=
    exists_point (u := fun g => u g.goalId) hx hgoals hu
  refine ⟨point, ?_, ?_, ?_⟩
  · refine (h.feasible_iff _).mpr ⟨hlen, ?_, hholds⟩
    intro j hj
    rw [hamounts j hj]
    exact (hx j hj).1
  · rwa [h.continuous]
  · refine List.map_inj_left.mp (hvalues.trans ?_)
    -- the ids of the blocks are those of the goals
    have hids := congrArg (List.map u) h.ids
    rw [List.map_map, List.map_map] at hids
    exact hids.symm

/-- The line read off for a goal is that of its block. -/
theorem Laid.lookup_activeSegments (h : e.Laid n bigM goals)
    (hids : (goals.map (·.goalId)).Nodup) {b : Block Rat} (hb : b ∈ e.blocks) (point : List Rat) :
    (e.activeSegments point).lookup b.goalId = some (b.activeSegment point) := by
  rw [Ledger.lookup_eq_some_iff]
  · exact List.mem_map_of_mem (f := fun b => (b.goalId, b.activeSegment point)) hb
  · rw [activeSegments, List.map_map]
    exact h.ids ▸ hids

/-- Goals with curves from the constructors are encoded exactly. Their columns fill the places
behind the variables. Wherever the variables are between zero and the bound, just the satisfactions
up to the curves are possible. In each possible point one line per goal is selected; the line that
is read off covers the goal's variable. -/
theorem ofGoals_exact {n : Nat} {bigM : Rat} {goals : List EncodedGoal}
    (hids : (goals.map (·.goalId)).Nodup) (hcolumns : ∀ g ∈ goals, g.variableColumn < n)
    (hcurves : ∀ g ∈ goals, g.curve.Built) :
    (ofGoals n bigM goals).blocks.Pairwise (fun a b => a.columns.Disjoint b.columns) ∧
      (∀ j, (∃ b ∈ (ofGoals n bigM goals).blocks, j ∈ b.columns) ↔
        n ≤ j ∧ j < (ofGoals n bigM goals).width) ∧
      ∀ (x : Nat → Rat), (∀ i < n, 0 ≤ x i ∧ x i ≤ bigM) → ∀ (u : String → Rat),
        ((∃ point, (ofGoals n bigM goals).Extends x u point) ↔
          ∀ g ∈ goals, 0 ≤ u g.goalId ∧
            ∃ d, g.curve.degree? (x g.variableColumn) = .ok d ∧ u g.goalId ≤ d) ∧
        ∀ point, (ofGoals n bigM goals).Extends x u point → ∀ g ∈ goals,
          ∃ b ∈ (ofGoals n bigM goals).blocks, b.goalId = g.goalId ∧
            (∃ i ∈ b.indicators, ∀ j ∈ b.indicators, point.getD j 0 = if j = i then 1 else 0) ∧
            ∃ s ∈ g.curve.decompose bigM,
              ((ofGoals n bigM goals).activeSegments point).lookup g.goalId = some (some s) ∧
                s.lower ≤ x g.variableColumn ∧ x g.variableColumn ≤ s.upper := by
  have hgoals : ∀ g ∈ goals, g.Fits n bigM := by
    intro g hg
    obtain ⟨a, b, hdrawn⟩ := (hcurves g hg).drawn
    exact ⟨hcolumns g hg, fun x hx hbound => hdrawn.traced hx hbound⟩
  have h := laid_ofGoals hgoals
  refine ⟨h.disjoint, fun j => h.mem_columns, fun x hx u => ⟨?_, ?_⟩⟩
  -- A curve always has a degree, so only its value is in question.
  · simp only [Curve.degree?_eq_ok, Except.ok.injEq, exists_eq_left']
    constructor
    · rintro ⟨point, hpoint⟩
      exact h.le_degree_of_extends hgoals hx hpoint
    · exact exists_extends hgoals hx
  · intro point hpoint g hg
    obtain ⟨b, hb, hserves, hholds, hamount, _⟩ := h.extends_block hgoals hpoint hg
    obtain ⟨p, hp, hvalues, _⟩ := hholds.selected (h.placed b hb)
    obtain ⟨s, hs, hactive, hcovers⟩ := hholds.activeSegment (h.placed b hb)
    refine ⟨b, hb, hserves.goalId, ⟨p.2, (List.of_mem_zip hp).2, hvalues⟩, s, ?_, ?_, ?_⟩
    · exact hserves.segments ▸ hs
    · rw [← hserves.goalId, h.lookup_activeSegments hids hb, hactive]
    · exact hamount ▸ hcovers

/-- A line and a peak on two variables. -/
def lineAndPeak : List EncodedGoal :=
  [⟨"line", 0, ⟨.linear, ⟨0, 0, 50, 50⟩, []⟩, 1⟩,
    ⟨"peak", 1, ⟨.triangular, ⟨20, 40, 40, 80⟩, []⟩, 2⟩]

/-- Half of a line and half of a peak can be had together, three quarters of both cannot. -/
theorem ofGoals_exact_lineAndPeak :
    (lineAndPeak.map (·.goalId)).Nodup ∧ (∀ g ∈ lineAndPeak, g.variableColumn < 2) ∧
      (∀ g ∈ lineAndPeak, g.curve.Built) ∧
      (∃ point, (ofGoals 2 100 lineAndPeak).Extends (fun i => if i = 0 then 25 else 60)
        (fun _ => 1 / 2) point) ∧
      ¬∃ point, (ofGoals 2 100 lineAndPeak).Extends (fun i => if i = 0 then 25 else 60)
        (fun _ => 3 / 4) point := by
  have hids : (lineAndPeak.map (·.goalId)).Nodup := by decide
  have hcolumns : ∀ g ∈ lineAndPeak, g.variableColumn < 2 := by decide
  have hcurves : ∀ g ∈ lineAndPeak, g.curve.Built :=
    List.forall_mem_cons.mpr ⟨@Curve.Built.linear 0 50 _ rfl,
      List.forall_mem_singleton.mpr (@Curve.Built.triangular 20 40 80 _ rfl)⟩
  have hx (i : Nat) (_ : i < 2) : 0 ≤ (if i = 0 then 25 else 60 : Rat) ∧
      (if i = 0 then 25 else 60 : Rat) ≤ 100 := by
    split <;> norm_num
  have hvalues : ∀ g ∈ lineAndPeak,
      g.curve.degree? (if g.variableColumn = 0 then 25 else 60) = .ok (1 / 2) := by
    have hdegree : ∀ g ∈ lineAndPeak,
        g.curve.degree (if g.variableColumn = 0 then 25 else 60) = 1 / 2 := by decide +kernel
    intro g hg
    rw [Curve.degree?_eq_ok, hdegree g hg]
  obtain ⟨_, _, hexact⟩ := @ofGoals_exact 2 100 _ hids hcolumns hcurves
  refine ⟨hids, hcolumns, hcurves, (hexact _ hx _).1.mpr ?_, fun h => ?_⟩
  · exact fun g hg => ⟨by norm_num, 1 / 2, hvalues g hg, le_refl _⟩
  · obtain ⟨_, d, hd, hle⟩ := (hexact _ hx _).1.mp h _ (List.mem_cons_self ..)
    cases (hvalues _ (List.mem_cons_self ..)).symm.trans hd
    norm_num at hle

end Encoding

end GoalBudget
