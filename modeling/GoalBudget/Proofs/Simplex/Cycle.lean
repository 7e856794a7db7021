import GoalBudget.Proofs.Simplex.Basis
import GoalBudget.Proofs.Simplex.Run
import Mathlib.Data.Fintype.BigOperators

/-!
# Runs that end and runs that circle

A step is determined by the tableau it is made at, so a run either ends, or it comes back to a
tableau and goes round for ever (`Tableau.Circles`). There are finitely many choices of basic
columns, and they determine the tableau, so one of the two happens within that many steps
(`ends_or_circles`): among more tableaus than there are choices two must agree (`exists_same_list`),
and from there on the run repeats itself (`circles_of_basics`).

With tolerance zero no step makes the objective worse (`cost_step`). A run that circles thus does
not make it better either, and only pivots at lines with right side zero: it stays at one vertex
(`Circles.stands`). In words of section 4.2 of the specification, the rule for ties does not rule
out circles, and the limit on pivots is what ends such a run. `iterate_of_longer` turns the one into
the other: a run that goes on for longer than the limit is answered with the limit.
-/

namespace GoalBudget.Simplex.Tableau

variable {tolerance : Rat} {allowed n j k budget : Nat} {t t' u v : Tableau Rat}
  {status : Status}

/-! ## Runs are determined by their start -/

theorem Step.unique (h : Step tolerance allowed t u) (h' : Step tolerance allowed t v) : u = v := by
  obtain ⟨column, row, hcolumn, hrow, hpivot⟩ := h
  obtain ⟨column', row', hcolumn', hrow', hpivot'⟩ := h'
  cases hcolumn.symm.trans hcolumn'
  cases hrow.symm.trans hrow'
  exact Except.ok.inj (hpivot.symm.trans hpivot')

theorem Steps.unique (h : Steps tolerance allowed k t u) (h' : Steps tolerance allowed k t v) :
    u = v := by
  induction h with
  | none t =>
    cases h'
    rfl
  | next first _ ih =>
    cases h' with
    | next first' rest' =>
      cases first.unique first'
      exact ih rest'

theorem Steps.trans (h : Steps tolerance allowed j t u) (h' : Steps tolerance allowed k u v) :
    Steps tolerance allowed (j + k) t v := by
  induction h with
  | none t => rwa [Nat.zero_add]
  | next first _ ih =>
    rw [Nat.succ_add]
    exact .next first (ih h')

theorem Steps.split (h : Steps tolerance allowed (j + k) t v) :
    ∃ u, Steps tolerance allowed j t u ∧ Steps tolerance allowed k u v := by
  induction j generalizing t with
  | zero => exact ⟨t, .none t, by rwa [Nat.zero_add] at h⟩
  | succ j ih =>
    rw [Nat.succ_add] at h
    cases h with
    | next first rest =>
      obtain ⟨u, hu, hrest⟩ := ih rest
      exact ⟨u, .next first hu, hrest⟩

/-- A run without a limit does not end at one. -/
theorem Ends.ne_limit (h : Ends tolerance allowed False t status) :
    status ≠ .iterationLimit := by
  cases h with
  | optimal => nofun
  | unbounded => nofun
  | limit hfalse => exact hfalse.elim

/-! ## What a run answers -/

/-- A step costs one pivot of the budget. -/
theorem iterate_step (h : Step tolerance allowed t t') (made budget : Nat) :
    iterate tolerance allowed made (budget + 1) t =
      iterate tolerance allowed (made + 1) budget t' := by
  obtain ⟨column, row, hcolumn, hrow, hpivot⟩ := h
  rw [iterate, hcolumn]
  show (t.leaving? tolerance column >>= _) = _
  rw [hrow]
  show (t.pivot row column >>= _) = _
  rw [hpivot]
  rfl

/-- So many steps cost so many pivots. -/
theorem iterate_steps (h : Steps tolerance allowed k t u) (made budget : Nat) :
    iterate tolerance allowed made (k + budget) t =
      iterate tolerance allowed (made + k) budget u := by
  induction h generalizing made with
  | none t => rw [Nat.zero_add, Nat.add_zero]
  | @next k t t' u first _ ih =>
    rw [Nat.succ_add, iterate_step first, ih, Nat.add_right_comm, Nat.add_assoc]

/-- A run that finds no column to enter is answered as optimal. -/
theorem iterate_of_optimal (h : Steps tolerance allowed k t u)
    (hnone : u.entering? tolerance allowed = none) (made : Nat) (hbudget : k ≤ budget) :
    iterate tolerance allowed made budget t = .ok ⟨.optimal, u, made + k⟩ := by
  obtain ⟨rest, rfl⟩ := Nat.exists_eq_add_of_le hbudget
  rw [iterate_steps h]
  cases rest with
  | zero => rw [iterate, hnone]
  | succ rest => rw [iterate, hnone]

/-- A run that finds no line to leave is answered as unbounded. -/
theorem iterate_of_unbounded (h : Steps tolerance allowed k t u) {column : Nat}
    (hsome : u.entering? tolerance allowed = some column)
    (hfree : u.leaving? tolerance column = .ok none) (made : Nat) (hbudget : k < budget) :
    iterate tolerance allowed made budget t = .ok ⟨.unbounded, u, made + k⟩ := by
  obtain ⟨rest, rfl⟩ := Nat.exists_eq_add_of_lt hbudget
  rw [Nat.add_assoc, iterate_steps h, iterate, hsome]
  show (u.leaving? tolerance column >>= _) = _
  rw [hfree]
  rfl

/-- A run that ends within the budget is answered by how it ends. -/
theorem iterate_of_ends (h : Steps tolerance allowed k t u)
    (hends : Ends tolerance allowed False u status) (made : Nat) (hbudget : k < budget) :
    iterate tolerance allowed made budget t = .ok ⟨status, u, made + k⟩ := by
  cases hends with
  | optimal hnone => exact iterate_of_optimal h hnone made hbudget.le
  | unbounded hsome hfree => exact iterate_of_unbounded h hsome hfree made hbudget
  | limit hfalse => exact hfalse.elim

/-- Where there are more steps than allowed the run ends at its limit. -/
theorem iterate_of_longer (h : Steps tolerance allowed k t u) (made : Nat)
    (hbudget : budget < k) :
    ∃ v, iterate tolerance allowed made budget t = .ok ⟨.iterationLimit, v, made + budget⟩ := by
  obtain ⟨rest, rfl⟩ := Nat.exists_eq_add_of_lt hbudget
  obtain ⟨v, hv, hrest⟩ := Steps.split (j := budget) (k := rest + 1) h
  refine ⟨v, ?_⟩
  have hrun := iterate_steps hv made 0
  rw [Nat.add_zero] at hrun
  rw [hrun, iterate]
  cases hrest with
  | next first _ =>
    obtain ⟨column, _, hcolumn, _⟩ := first
    rw [hcolumn]

/-! ## Circles -/

/-- Whether steps from a tableau lead back to it. -/
def Circles (tolerance : Rat) (allowed : Nat) (t : Tableau Rat) : Prop :=
  ∃ k, 0 < k ∧ Steps tolerance allowed k t t

/-- A run that circles goes on for any number of steps and comes back. -/
theorem Circles.steps (h : t.Circles tolerance allowed) (k : Nat) :
    ∃ d, Steps tolerance allowed (k + d) t t := by
  obtain ⟨round, hpos, hround⟩ := h
  have hrounds (m : Nat) : Steps tolerance allowed (m * round) t t := by
    induction m with
    | zero =>
      rw [Nat.zero_mul]
      exact .none t
    | succ m ih =>
      rw [Nat.succ_mul]
      exact ih.trans hround
  obtain ⟨d, hd⟩ := Nat.exists_eq_add_of_le (Nat.le_mul_of_pos_right k hpos)
  exact ⟨d, hd ▸ hrounds k⟩

/-- A run that comes to a circle is as long as one likes. -/
theorem Circles.longer (h : u.Circles tolerance allowed) (hsteps : Steps tolerance allowed j t u)
    (k : Nat) : ∃ v, Steps tolerance allowed k t v := by
  obtain ⟨d, hd⟩ := h.steps k
  have hall := hsteps.trans hd
  rw [Nat.add_left_comm] at hall
  obtain ⟨v, hv, _⟩ := hall.split
  exact ⟨v, hv⟩

section
variable {P : (Nat → Rat) → Prop} {f : (Nat → Rat) → Rat}

/-- Steps keep the system and the objective. -/
theorem Steps.represents (ht : t.Represents n P f) (h : Steps tolerance allowed k t u) :
    u.Represents n P f :=
  h.invariant (fun _ _ ht hstep => represents_step ht hstep) ht

/-- Steps keep the number of lines. -/
theorem Steps.length (h : Steps tolerance allowed k t u) : u.lines.length = t.lines.length :=
  h.invariant (Q := fun u => u.lines.length = t.lines.length)
    (fun _ _ hlength hstep => (length_step hstep).trans hlength) rfl

/-- With the same basic columns the tableau is the same. -/
theorem circles_of_basics (ht : t.Represents n P f) (h : Steps tolerance allowed k t u)
    (hk : 0 < k) (hbasics : basics t.lines = basics u.lines) : t.Circles tolerance allowed := by
  cases ht.eq_of_basics (h.represents ht) hbasics
  exact ⟨k, hk, h⟩

/-- Among more lists of `m` numbers below `n` than there are, two are the same. -/
theorem exists_same_list {m : Nat} {L : Fin (k + 1) → List Nat} (hlength : ∀ i, (L i).length = m)
    (hlt : ∀ i, ∀ b ∈ L i, b < n) (hk : n ^ m ≤ k) : ∃ i i', i < i' ∧ L i = L i' := by
  let g (i : Fin (k + 1)) : List.Vector (Fin n) m :=
    ⟨(L i).pmap Fin.mk (hlt i), (List.length_pmap ..).trans (hlength i)⟩
  have hcard : Fintype.card (List.Vector (Fin n) m) < Fintype.card (Fin (k + 1)) := by
    rw [card_vector, Fintype.card_fin, Fintype.card_fin]
    omega
  obtain ⟨i, i', hne, hsame⟩ := Fintype.exists_ne_map_eq_of_card_lt g hcard
  have hval (i : Fin (k + 1)) : (g i).1.map Fin.val = L i := by
    rw [List.map_pmap]
    exact List.pmap_eq_self.mpr fun _ _ => rfl
  have heq : L i = L i' := by rw [← hval i, ← hval i', hsame]
  rcases lt_or_gt_of_ne hne with hlt | hgt
  · exact ⟨i, i', hlt, heq⟩
  · exact ⟨i', i, hgt, heq.symm⟩

/-- There are no more choices of basic columns than `n` for each line, so a run that is as long
circles. -/
theorem exists_circles (ht : t.Represents n P f) (h : Steps tolerance allowed k t v)
    (hk : n ^ t.lines.length ≤ k) :
    ∃ j u, Steps tolerance allowed j t u ∧ u.Circles tolerance allowed := by
  have hpass (i : Fin (k + 1)) :
      ∃ u, Steps tolerance allowed i t u ∧ Steps tolerance allowed (k - i) u v :=
    Steps.split (by rwa [Nat.add_sub_cancel' (Nat.le_of_lt_succ i.isLt)])
  choose passed hto _ using hpass
  have hlength (i : Fin (k + 1)) : (basics (passed i).lines).length = t.lines.length := by
    rw [basics, List.length_map, (hto i).length]
  have hlt (i : Fin (k + 1)) : ∀ b ∈ basics (passed i).lines, b < n :=
    List.forall_mem_map.mpr ((hto i).represents ht).canonical.basic_lt
  obtain ⟨i, i', hii', hsame⟩ := exists_same_list hlength hlt hk
  -- between the two the run goes from one tableau to the other
  obtain ⟨d, hd⟩ := Nat.exists_eq_add_of_lt hii'
  have hlater := hto i'
  rw [hd, Nat.add_assoc] at hlater
  obtain ⟨u, hu, hround⟩ := hlater.split
  cases (hto i).unique hu
  exact ⟨i, passed i, hto i, circles_of_basics ((hto i).represents ht) hround (by omega) hsame⟩

/-- A run ends, or it circles; which one shows within as many steps as there are choices of basic
columns. -/
theorem ends_or_circles (htolerance : 0 ≤ tolerance) (allowed : Nat) (ht : t.Represents n P f) :
    (∃ k u status, k < n ^ t.lines.length ∧ Steps tolerance allowed k t u ∧
      Ends tolerance allowed False u status) ∨
    ∃ j u, Steps tolerance allowed j t u ∧ u.Circles tolerance allowed := by
  obtain ⟨stop, k, _, hk, _, hsteps, hends⟩ :=
    iterate_spec htolerance allowed (n ^ t.lines.length) 0 t
  rcases Nat.lt_or_eq_of_le hk with hlt | heq
  · refine .inl ⟨k, stop.tableau, stop.status, hlt, hsteps, ?_⟩
    generalize stop.status = status at hends
    cases hends with
    | optimal hnone => exact .optimal hnone
    | unbounded hsome hfree => exact .unbounded hsome hfree
    | limit hspent => exact absurd hspent (Nat.ne_of_lt hlt)
  · exact .inr (exists_circles ht hsteps heq.ge)

/-! ## Circles stay at a vertex -/

/-- The right side of the cost falls by its coefficient times that of the line. -/
theorem rhs_eliminate_cost (a : Line Rat) (c : Cost Rat) (column : Nat) :
    (c.eliminate a column).rhs = c.rhs - c.coeff column * a.rhs := by
  rw [eliminate_cost]
  exact rhs_eliminate a ⟨0, c.cells, c.rhs⟩ column

/-- A basic column stays basic in a pivot at the line of another. -/
theorem mem_basics_pivot {row column : Nat} {line : Line Rat} (hpivot : t.pivot row column = .ok t')
    (hline : t.lines[row]? = some line) (hj : j ∈ basics t.lines) (hne : j ≠ line.basic) :
    j ∈ basics t'.lines := by
  obtain ⟨a, ha, rfl⟩ := List.mem_map.mp hj
  obtain ⟨i, hi⟩ := List.mem_iff_getElem?.mp ha
  have hrow : i ≠ row := by
    rintro rfl
    cases hline.symm.trans hi
    exact hne rfl
  refine List.mem_map.mpr ⟨(line.normalize column).eliminate column a, ?_, basic_eliminate ..⟩
  exact List.mem_of_getElem? ((getElem?_pivot hpivot hline).mpr (.inr ⟨hrow, a, hi, rfl⟩))

/-- The vertex is the same after a pivot at a line with right side zero. -/
theorem vertex_pivot {row column : Nat} {line : Line Rat} (hc : Canonical n t.lines)
    (hcolumn : column < n) (hpivot : t.pivot row column = .ok t')
    (hline : t.lines[row]? = some line) (hrhs : line.rhs = 0) : t.vertex n = t'.vertex n := by
  refine vertex_unique (canonical_pivot hc hcolumn hpivot)
    ((solves_pivot hc hpivot _).mpr (solves_vertex hc)) fun j hj => ?_
  by_cases hbasic : j ∈ basics t.lines
  · have hj : j = line.basic := by
      by_contra hne
      exact hj (mem_basics_pivot hpivot hline hbasic hne)
    rw [hj, vertex_basic hc (List.mem_of_getElem? hline), hrhs]
  · exact vertex_nonbasic (not_mem_basics.mp hbasic)

/-- No step makes the objective worse, and one that does not make it better is at a line with
right side zero and stays where it is. -/
theorem cost_step (ht : t.Represents n P f) (hrhs : ∀ a ∈ t.lines, 0 ≤ a.rhs)
    (h : Step 0 allowed t t') : t.cost.rhs ≤ t'.cost.rhs ∧
      (t'.cost.rhs ≤ t.cost.rhs → (∃ a ∈ t.lines, a.rhs = 0) ∧ t.vertex n = t'.vertex n) := by
  obtain ⟨column, row, hentering, hleaving, hpivot⟩ := h
  obtain ⟨_, hwidth, hcost⟩ := entering?_eq_some hentering
  rw [neg_zero] at hcost
  obtain ⟨line, hline, hcoeff, _⟩ := leaving?_least hleaving
  have hnonneg : 0 ≤ line.rhs := hrhs line (List.mem_of_getElem? hline)
  have hgain : t'.cost.rhs = t.cost.rhs - t.cost.coeff column * (line.rhs / line.coeff column) := by
    obtain ⟨line', hline', _, hcosts, _⟩ := pivot_spec hpivot
    cases hline.symm.trans hline'
    rw [hcosts, rhs_eliminate_cost]
    rfl
  have hfall : t.cost.coeff column * (line.rhs / line.coeff column) ≤ 0 :=
    mul_nonpos_of_nonpos_of_nonneg hcost.le (div_nonneg hnonneg hcoeff.le)
  refine ⟨by linarith, fun hle => ?_⟩
  -- The cost stands only when the ratio is zero, since the entering cost is negative.
  have hratio : line.rhs / line.coeff column = 0 := by
    have hzero : t.cost.coeff column * (line.rhs / line.coeff column) = 0 := by linarith
    exact (mul_eq_zero.mp hzero).resolve_left hcost.ne
  have hzero : line.rhs = 0 := (div_eq_zero_iff.mp hratio).resolve_right hcoeff.ne'
  rw [ht.prices.width] at hwidth
  exact ⟨⟨line, List.mem_of_getElem? hline, hzero⟩,
    vertex_pivot ht.canonical hwidth hpivot hline hzero⟩

/-- Along steps the objective does not get worse, and if it stays the vertex stays too. -/
theorem Steps.cost_le (ht : t.Represents n P f) (hrhs : ∀ a ∈ t.lines, 0 ≤ a.rhs)
    (h : Steps 0 allowed k t u) : t.cost.rhs ≤ u.cost.rhs ∧
      (u.cost.rhs ≤ t.cost.rhs →
        (0 < k → ∃ a ∈ t.lines, a.rhs = 0) ∧ t.vertex n = u.vertex n) := by
  induction h with
  | none t => exact ⟨le_refl _, fun _ => ⟨fun h => absurd h (lt_irrefl 0), rfl⟩⟩
  | next first _ ih =>
    obtain ⟨hfirst, hstay⟩ := cost_step ht hrhs first
    obtain ⟨hrest, hstays⟩ := ih (represents_step ht first) (nonneg_step hrhs first)
    refine ⟨hfirst.trans hrest, fun hle => ?_⟩
    obtain ⟨hzero, hvertex⟩ := hstay (hrest.trans hle)
    exact ⟨fun _ => hzero, hvertex.trans (hstays (hle.trans hfirst)).2⟩

/-- A run that circles does not move, and it needs a line with right side zero. -/
theorem Circles.stands (ht : t.Represents n P f) (hrhs : ∀ a ∈ t.lines, 0 ≤ a.rhs)
    (h : t.Circles 0 allowed) : (∃ a ∈ t.lines, a.rhs = 0) ∧
      ∀ k u, Steps 0 allowed k t u → t.vertex n = u.vertex n := by
  constructor
  · obtain ⟨k, hk, hround⟩ := h
    exact ((hround.cost_le ht hrhs).2 (le_refl _)).1 hk
  · intro k u hsteps
    obtain ⟨d, hround⟩ := h.steps k
    obtain ⟨u', hu', hback⟩ := hround.split
    cases hsteps.unique hu'
    have hnonneg : ∀ a ∈ u.lines, 0 ≤ a.rhs :=
      hsteps.invariant (Q := fun t => ∀ a ∈ t.lines, 0 ≤ a.rhs) (fun _ _ => nonneg_step) hrhs
    exact ((hsteps.cost_le ht hrhs).2 (hback.cost_le (hsteps.represents ht) hnonneg).1).2

end

end GoalBudget.Simplex.Tableau
