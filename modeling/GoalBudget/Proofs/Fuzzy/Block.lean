import GoalBudget.Fuzzy.Encoding
import GoalBudget.Proofs.Curve.Chain
import GoalBudget.Proofs.Program.Stated

/-!
# One block of columns

What is stated about the block of a goal asks little of an assignment (`Block.holds_iff`): the
satisfaction lies between zero and the cap, one binary column is one and the others are zero, and
every line with its binary column holds.

A line whose binary column is one keeps the goal's variable in its range and the satisfaction below
it (`LineHolds.of_one`). A line whose binary column is zero asks for nothing, wherever the variable
is between zero and the bound (`lineHolds_of_zero`): the relaxation of its row is at least the cap
plus whatever the line can take away on the way to the bound.

So an assignment holds exactly if one line is selected and holds (`Holds.selected`,
`holds_of_selected`), and the line read back from a solution is the selected one
(`Holds.activeSegment`). A block looks at its own columns and that of its variable only
(`Holds.congr`), which is what lets blocks be put side by side.
-/

namespace GoalBudget

/-! ## One of several columns -/

/-- Zeros and ones that add up to one: a single one. -/
theorem sum_eq_one_iff {columns : List Nat} (hnodup : columns.Nodup) {y : Nat → Rat}
    (hbinary : ∀ j ∈ columns, y j = 0 ∨ y j = 1) :
    (columns.map y).sum = 1 ↔ ∃ i ∈ columns, ∀ j ∈ columns, y j = if j = i then 1 else 0 := by
  constructor
  · intro hsum
    obtain ⟨i, hi, hone⟩ : ∃ i ∈ columns, y i = 1 := by
      by_contra hnone
      have hzero : columns.map y = columns.map fun _ => 0 := by
        refine List.map_congr_left fun j hj => (hbinary j hj).resolve_right fun hone => ?_
        exact hnone ⟨j, hj, hone⟩
      rw [hzero, List.sum_map_zero] at hsum
      exact zero_ne_one hsum
    refine ⟨i, hi, fun j hj => ?_⟩
    by_cases hji : j = i
    · rw [if_pos hji, hji, hone]
    · rw [if_neg hji]
      -- nothing is left for the others
      have hrest : ((columns.erase i).map y).sum = 0 := by
        have hsplit := List.sum_map_erase y hi
        linarith
      have hnonneg : ∀ v ∈ (columns.erase i).map y, 0 ≤ v := by
        intro v hv
        obtain ⟨k, hk, rfl⟩ := List.mem_map.mp hv
        rcases hbinary k (List.mem_of_mem_erase hk) with h | h
        · exact ge_of_eq h
        · rw [h]
          exact zero_le_one
      have hmem : y j ∈ (columns.erase i).map y :=
        List.mem_map_of_mem (hnodup.mem_erase_iff.mpr ⟨hji, hj⟩)
      exact List.all_zero_of_le_zero_le_of_sum_eq_zero hnonneg hrest hmem
  · rintro ⟨i, hi, hvalues⟩
    have hrest : (columns.erase i).map y = (columns.erase i).map fun _ => 0 := by
      refine List.map_congr_left fun j hj => ?_
      obtain ⟨hne, hj⟩ := hnodup.mem_erase_iff.mp hj
      rw [hvalues j hj, if_neg hne]
    rw [← List.sum_map_erase y hi, hrest, hvalues i hi, if_pos rfl,
      List.sum_map_zero, add_zero]

namespace Block

variable (b : Block Rat) (bigM : Rat)

/-- The columns of a block. -/
def columns : List Nat := b.membershipColumn :: b.indicators

/-- A block whose columns follow one another, all behind the variable's. -/
structure Placed (b : Block Rat) : Prop where
  variable_lt : b.variableColumn < b.membershipColumn
  indicators : b.indicators = List.range' (b.membershipColumn + 1) b.segments.length

/-- Whether an assignment satisfies the rows of a line with its binary column. -/
structure LineHolds (s : Segment Rat) (column : Nat) (y : Nat → Rat) : Prop where
  floor : 0 ≤ y b.variableColumn - s.lower * y column
  ceiling : y b.variableColumn + (bigM - s.upper) * y column ≤ bigM
  line : y b.membershipColumn - s.slope * y b.variableColumn + b.relax bigM s * y column ≤
    s.intercept + b.relax bigM s

/-- Whether an assignment satisfies everything that is stated about a block. -/
structure Holds (y : Nat → Rat) : Prop where
  nonneg : 0 ≤ y b.membershipColumn
  le_cap : y b.membershipColumn ≤ b.cap
  binary : ∀ j ∈ b.indicators, y j = 0 ∨ y j = 1
  selects : (b.indicators.map y).sum = 1
  lines : ∀ p ∈ b.segments.zip b.indicators, b.LineHolds bigM p.1 p.2 y

variable {b bigM}

instance (s : Segment Rat) (column : Nat) (y : Nat → Rat) :
    Decidable (b.LineHolds bigM s column y) :=
  decidable_of_iff (0 ≤ y b.variableColumn - s.lower * y column ∧
      y b.variableColumn + (bigM - s.upper) * y column ≤ bigM ∧
      y b.membershipColumn - s.slope * y b.variableColumn + b.relax bigM s * y column ≤
        s.intercept + b.relax bigM s)
    ⟨fun h => ⟨h.1, h.2.1, h.2.2⟩, fun h => ⟨h.floor, h.ceiling, h.line⟩⟩

instance (y : Nat → Rat) : Decidable (b.Holds bigM y) :=
  decidable_of_iff (0 ≤ y b.membershipColumn ∧ y b.membershipColumn ≤ b.cap ∧
      (∀ j ∈ b.indicators, y j = 0 ∨ y j = 1) ∧ (b.indicators.map y).sum = 1 ∧
      ∀ p ∈ b.segments.zip b.indicators, b.LineHolds bigM p.1 p.2 y)
    ⟨fun h => ⟨h.1, h.2.1, h.2.2.1, h.2.2.2.1, h.2.2.2.2⟩,
      fun h => ⟨h.nonneg, h.le_cap, h.binary, h.selects, h.lines⟩⟩

namespace Placed

variable (hb : b.Placed)
include hb

theorem columns_eq : b.columns = List.range' b.membershipColumn (b.segments.length + 1) := by
  rw [columns, hb.indicators, List.range'_succ]

theorem mem_indicators {j : Nat} : j ∈ b.indicators ↔
    b.membershipColumn < j ∧ j < b.membershipColumn + 1 + b.segments.length := by
  rw [hb.indicators, List.mem_range'_1, Nat.succ_le_iff]

theorem nodup_indicators : b.indicators.Nodup := hb.indicators ▸ List.nodup_range'

theorem length_indicators : b.indicators.length = b.segments.length := by
  rw [hb.indicators, List.length_range']

/-- Every binary column belongs to a line. -/
theorem exists_segment {j : Nat} (hj : j ∈ b.indicators) :
    ∃ s, (s, j) ∈ b.segments.zip b.indicators := by
  rw [← List.map_snd_zip (le_of_eq hb.length_indicators)] at hj
  obtain ⟨⟨s, _⟩, hp, rfl⟩ := List.mem_map.mp hj
  exact ⟨s, hp⟩

/-- Every line has a binary column. -/
theorem exists_indicator {s : Segment Rat} (hs : s ∈ b.segments) :
    ∃ j, (s, j) ∈ b.segments.zip b.indicators := by
  rw [← List.map_fst_zip (le_of_eq hb.length_indicators.symm)] at hs
  obtain ⟨⟨_, j⟩, hp, rfl⟩ := List.mem_map.mp hs
  exact ⟨j, hp⟩

/-- No two lines share a binary column. -/
theorem eq_of_indicator_eq {p q : Segment Rat × Nat} (hp : p ∈ b.segments.zip b.indicators)
    (hq : q ∈ b.segments.zip b.indicators) (h : p.2 = q.2) : p = q := by
  refine List.inj_on_of_nodup_map ?_ hp hq h
  rw [List.map_snd_zip (le_of_eq hb.length_indicators)]
  exact hb.nodup_indicators

end Placed

/-! ## What is stated -/

/-- The columns that are stated: the membership column within its cap, and the binary ones. -/
theorem statedColumns_calls (b : Block Rat) (bigM : Rat) (n : Nat) :
    Program.statedColumns (b.calls n bigM) =
      (b.membershipColumn, ⟨0, .upTo b.cap, false⟩) ::
        b.indicators.map fun j => (j, ⟨0, .upTo 1, true⟩) := by
  have hbinary : (b.indicators.map fun j : Nat => (.binary j : Call Rat)).filterMap
      Call.statedColumn = b.indicators.map fun j => (j, ⟨0, .upTo 1, true⟩) := by
    rw [List.filterMap_map, ← List.filterMap_eq_map]
    rfl
  have hrows : ((b.segments.zip b.indicators).flatMap fun p =>
      (b.segmentRows n bigM p.1 p.2).map Call.row).filterMap Call.statedColumn = [] := by
    rw [List.filterMap_eq_nil_iff]
    intro call hcall
    obtain ⟨_, _, hcall⟩ := List.mem_flatMap.mp hcall
    obtain ⟨_, _, rfl⟩ := List.mem_map.mp hcall
    rfl
  rw [Program.statedColumns, calls, List.filterMap_append, List.filterMap_append,
    List.filterMap_append, hbinary, hrows, List.append_nil]
  exact List.append_nil _

/-- The rows that are stated: one to select a line, and three for each line. -/
theorem statedRows_calls (n : Nat) :
    (b.calls n bigM).filterMap Call.statedRow =
      b.selectorRow n ::
        (b.segments.zip b.indicators).flatMap fun p => b.segmentRows n bigM p.1 p.2 := by
  have hbinary : (b.indicators.map fun j : Nat => (.binary j : Call Rat)).filterMap
      Call.statedRow = [] := by
    rw [List.filterMap_eq_nil_iff]
    intro call hcall
    obtain ⟨_, _, rfl⟩ := List.mem_map.mp hcall
    rfl
  have hrows : ((b.segments.zip b.indicators).flatMap fun p =>
      (b.segmentRows n bigM p.1 p.2).map Call.row).filterMap Call.statedRow =
      (b.segments.zip b.indicators).flatMap fun p => b.segmentRows n bigM p.1 p.2 := by
    rw [List.filterMap_flatMap]
    rfl
  rw [calls, List.filterMap_append, List.filterMap_append, List.filterMap_append, hbinary, hrows]
  rfl

/-! ## What it asks -/

section
variable {n : Nat} (hb : b.Placed) (hn : b.membershipColumn + 1 + b.segments.length ≤ n)
  (point : List Rat)
include hb hn

theorem selectorRow_holds_iff :
    (b.selectorRow n).Holds point ↔ (b.indicators.map fun j => point.getD j 0).sum = 1 := by
  have hdot : dot (b.selectorRow n).coeffs point =
      (b.indicators.map fun j => point.getD j 0).sum := by
    rw [selectorRow, dot_sparse]
    · simp only [List.map_map, Function.comp_def, one_mul]
    · rw [List.map_map]
      exact (List.map_id _).symm ▸ hb.nodup_indicators
    · intro t ht
      obtain ⟨j, hj, rfl⟩ := List.mem_map.mp ht
      have hlt := (hb.mem_indicators.mp hj).2
      show j < n
      omega
  show dot _ point = 1 ↔ _
  rw [hdot]

/-- The three rows of a line say that the line holds. -/
theorem segmentRows_hold_iff (s : Segment Rat) {j : Nat} (hj : j ∈ b.indicators) :
    (∀ r ∈ b.segmentRows n bigM s j, r.Holds point) ↔
      b.LineHolds bigM s j fun j => point.getD j 0 := by
  have hx := hb.variable_lt
  obtain ⟨hu, hlt⟩ := hb.mem_indicators.mp hj
  have hpair (k : Rat) : dot (sparse n [(b.variableColumn, 1), (j, k)]) point =
      point.getD b.variableColumn 0 + k * point.getD j 0 := by
    rw [dot_sparse (by simp; omega) (by simp; omega)]
    simp only [List.map_cons, List.map_nil, List.sum_cons, List.sum_nil]
    ring
  have hline : dot (sparse n [(b.membershipColumn, 1), (b.variableColumn, -s.slope),
        (j, b.relax bigM s)]) point =
      point.getD b.membershipColumn 0 - s.slope * point.getD b.variableColumn 0 +
        b.relax bigM s * point.getD j 0 := by
    rw [dot_sparse (by simp; omega) (by simp; omega)]
    simp only [List.map_cons, List.map_nil, List.sum_cons, List.sum_nil]
    ring
  simp only [segmentRows, List.forall_mem_cons, Row.Holds, Relation.Holds, hpair, hline]
  constructor
  · rintro ⟨hfloor, hceiling, hbelow, _⟩
    exact ⟨by linarith, hceiling, hbelow⟩
  · rintro ⟨hfloor, hceiling, hbelow⟩
    exact ⟨by linarith, hceiling, hbelow, nofun⟩

/-- A point respects what is stated about a block when its values make the block hold. -/
theorem holds_iff :
    ((∀ pair ∈ Program.statedColumns (b.calls n bigM), pair.2.Allows (point.getD pair.1 0)) ∧
        ∀ r ∈ (b.calls n bigM).filterMap Call.statedRow, r.Holds point) ↔
      b.Holds bigM fun j => point.getD j 0 := by
  have hmember : (⟨0, .upTo b.cap, false⟩ : Column Rat).Allows (point.getD b.membershipColumn 0) ↔
      0 ≤ point.getD b.membershipColumn 0 ∧ point.getD b.membershipColumn 0 ≤ b.cap :=
    Program.allows_continuous_iff
  have hmem (p : Segment Rat × Nat) (hp : p ∈ b.segments.zip b.indicators) : p.2 ∈ b.indicators :=
    (List.of_mem_zip hp).2
  rw [statedColumns_calls, statedRows_calls, List.forall_mem_cons, List.forall_mem_cons, hmember,
    List.forall_mem_map, selectorRow_holds_iff hb hn]
  simp only [Program.allows_binary_iff, List.mem_flatMap]
  constructor
  · rintro ⟨⟨⟨hnonneg, hcap⟩, hbinary⟩, hselects, hlines⟩
    refine ⟨hnonneg, hcap, hbinary, hselects, fun p hp => ?_⟩
    exact (segmentRows_hold_iff hb hn point p.1 (hmem p hp)).mp fun r hr => hlines r ⟨p, hp, hr⟩
  · rintro ⟨hnonneg, hcap, hbinary, hselects, hlines⟩
    refine ⟨⟨⟨hnonneg, hcap⟩, hbinary⟩, hselects, ?_⟩
    rintro r ⟨p, hp, hr⟩
    exact (segmentRows_hold_iff hb hn point p.1 (hmem p hp)).mpr (hlines p hp) r hr

end

/-! ## What a line asks -/

section
variable {s : Segment Rat} {j : Nat} {y : Nat → Rat}

/-- A selected line covers the amount and bounds the satisfaction. -/
theorem LineHolds.of_one (h : b.LineHolds bigM s j y) (hone : y j = 1) :
    s.Covers (y b.variableColumn) ∧ y b.membershipColumn ≤ s.lineAt (y b.variableColumn) := by
  obtain ⟨hfloor, hceiling, hline⟩ := h
  rw [hone] at hfloor hceiling hline
  refine ⟨⟨by linarith, by linarith⟩, ?_⟩
  rw [Segment.lineAt]
  linarith

/-- A line that covers the amount may be selected, for any satisfaction below it. -/
theorem lineHolds_of_one (hone : y j = 1) (hcovers : s.Covers (y b.variableColumn))
    (hle : y b.membershipColumn ≤ s.lineAt (y b.variableColumn)) : b.LineHolds bigM s j y := by
  obtain ⟨hlower, hupper⟩ := hcovers
  rw [Segment.lineAt] at hle
  constructor
  case floor => rw [hone]; linarith
  case ceiling => rw [hone]; linarith
  case line => rw [hone]; linarith

/-- A line that is not selected says nothing: `relax` outweighs the line wherever the variable is
between zero and the bound. -/
theorem lineHolds_of_zero (hzero : y j = 0) (hx : 0 ≤ y b.variableColumn)
    (hbound : y b.variableColumn ≤ bigM) (hcap : y b.membershipColumn ≤ b.cap) :
    b.LineHolds bigM s j y := by
  constructor
  case floor => rwa [hzero, mul_zero, sub_zero]
  case ceiling => rwa [hzero, mul_zero, add_zero]
  case line =>
    have hslope : -(s.slope * y b.variableColumn) ≤ |s.slope| * bigM := calc
      -(s.slope * y b.variableColumn) = -s.slope * y b.variableColumn := (neg_mul _ _).symm
      _ ≤ |s.slope| * y b.variableColumn := mul_le_mul_of_nonneg_right (neg_le_abs _) hx
      _ ≤ |s.slope| * bigM := mul_le_mul_of_nonneg_left hbound (abs_nonneg _)
    have hintercept := neg_le_abs s.intercept
    rw [hzero, mul_zero, add_zero, relax, magnitude_eq_abs, magnitude_eq_abs]
    linarith

end

/-! ## Assignments that hold -/

section
variable {y : Nat → Rat} (hb : b.Placed)
include hb

/-- One line is selected. It covers the goal's variable and bounds the satisfaction. -/
theorem Holds.selected (h : b.Holds bigM y) :
    ∃ p ∈ b.segments.zip b.indicators, (∀ j ∈ b.indicators, y j = if j = p.2 then 1 else 0) ∧
      p.1.Covers (y b.variableColumn) ∧
      y b.membershipColumn ≤ p.1.lineAt (y b.variableColumn) := by
  obtain ⟨i, hi, hvalues⟩ := (sum_eq_one_iff hb.nodup_indicators h.binary).mp h.selects
  obtain ⟨s, hp⟩ := hb.exists_segment hi
  exact ⟨(s, i), hp, hvalues, (h.lines _ hp).of_one (by rw [hvalues i hi, if_pos rfl])⟩

/-- Selecting a line that covers the goal's variable allows every satisfaction below it. -/
theorem holds_of_selected {p : Segment Rat × Nat} (hp : p ∈ b.segments.zip b.indicators)
    (hvalues : ∀ j ∈ b.indicators, y j = if j = p.2 then 1 else 0)
    (hx : 0 ≤ y b.variableColumn) (hbound : y b.variableColumn ≤ bigM)
    (hcovers : p.1.Covers (y b.variableColumn)) (hnonneg : 0 ≤ y b.membershipColumn)
    (hle : y b.membershipColumn ≤ p.1.lineAt (y b.variableColumn))
    (hcap : y b.membershipColumn ≤ b.cap) : b.Holds bigM y := by
  have hbinary : ∀ j ∈ b.indicators, y j = 0 ∨ y j = 1 := by
    intro j hj
    rw [hvalues j hj]
    split
    next => exact Or.inr rfl
    next => exact Or.inl rfl
  have hselected : p.2 ∈ b.indicators := (List.of_mem_zip hp).2
  constructor
  case nonneg => exact hnonneg
  case le_cap => exact hcap
  case binary => exact hbinary
  case selects => exact (sum_eq_one_iff hb.nodup_indicators hbinary).mpr ⟨p.2, hselected, hvalues⟩
  case lines =>
    intro q hq
    have hvalue := hvalues q.2 (List.of_mem_zip hq).2
    by_cases hsame : q.2 = p.2
    · rw [if_pos hsame] at hvalue
      cases hb.eq_of_indicator_eq hq hp hsame
      exact lineHolds_of_one hvalue hcovers hle
    · rw [if_neg hsame] at hvalue
      exact lineHolds_of_zero hvalue hx hbound hcap

theorem Holds.congr {z : Nat → Rat} (h : b.Holds bigM y)
    (hagree : ∀ j < b.membershipColumn + 1 + b.segments.length, y j = z j) : b.Holds bigM z := by
  have hx : y b.variableColumn = z b.variableColumn := hagree _ (by have := hb.variable_lt; omega)
  have hu : y b.membershipColumn = z b.membershipColumn := hagree _ (by omega)
  have hindicators (j : Nat) (hj : j ∈ b.indicators) : y j = z j :=
    hagree j (hb.mem_indicators.mp hj).2
  constructor
  case nonneg => exact hu ▸ h.nonneg
  case le_cap => exact hu ▸ h.le_cap
  case binary => exact fun j hj => hindicators j hj ▸ h.binary j hj
  case selects => exact List.map_congr_left hindicators ▸ h.selects
  case lines =>
    intro p hp
    obtain ⟨hfloor, hceiling, hline⟩ := h.lines p hp
    rw [hx, hindicators _ (List.of_mem_zip hp).2] at hfloor hceiling hline
    rw [hu] at hline
    exact ⟨hfloor, hceiling, hline⟩

end

/-- The line that is read off a point covers the goal's variable there. -/
theorem Holds.activeSegment {point : List Rat} (hb : b.Placed)
    (h : b.Holds bigM fun j => point.getD j 0) :
    ∃ s ∈ b.segments, b.activeSegment point = some s ∧
      s.Covers (point.getD b.variableColumn 0) := by
  obtain ⟨p, hp, hvalues, _⟩ := h.selected hb
  have hone : point.getD p.2 0 = 1 := by
    have hvalue := hvalues p.2 (List.of_mem_zip hp).2
    rwa [if_pos rfl] at hvalue
  cases hfound : (b.segments.zip b.indicators).find? fun p => (0.5 : Rat) < point.getD p.2 0 with
  -- the selected column is set, so the search finds something
  | none =>
    have hnot := List.find?_eq_none.mp hfound p hp
    rw [hone] at hnot
    exact absurd (decide_eq_true (by norm_num)) hnot
  | some q =>
    have hq := List.mem_of_find?_eq_some hfound
    have hset := List.find?_some hfound
    rw [decide_eq_true_eq] at hset
    have hone : point.getD q.2 0 = 1 := by
      refine (h.binary q.2 (List.of_mem_zip hq).2).resolve_left fun hzero => ?_
      rw [hzero] at hset
      norm_num at hset
    -- whatever it finds is set, and then its line covers the variable
    refine ⟨q.1, (List.of_mem_zip hq).1, ?_, ((h.lines q hq).of_one hone).1⟩
    rw [Block.activeSegment, hfound, Option.map_some]

end Block

end GoalBudget
