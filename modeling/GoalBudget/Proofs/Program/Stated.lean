import GoalBudget.Program.Backend
import GoalBudget.Proofs.Simplex.Linear

/-!
# What statements describe

A program that is stated call by call, with no column stated twice, has the columns that were
stated, further columns from zero up, and the rows in the order in which they were stated. A point
is feasible when it agrees with all of that (`feasible_ofCalls_iff`).

A row given by few terms, each about another column, has the value of the terms (`dot_sparse`). The
objective is the one stated first, if no other follows (`objective_ofCalls`).

The strategies state long lists that are put together from lists of statements about variables,
goals and segments. Which columns and which rows are stated can be read off each part by itself
(`Program.statedColumns`, `Call.statedRow`), so that the program is never unfolded: its feasible
points are described part by part, and the parts are joined in the end.

`Backend.Optimizes` is what may be asked of a solver: that it answers the statements with a solution
that is optimal for the program they describe.
-/

namespace GoalBudget

/-! ## Sparse forms -/

theorem length_sparse (n : Nat) (terms : List (Nat × Rat)) : (sparse n terms).length = n := by
  refine List.foldlRecOn terms _ (motive := fun cells : List Rat => cells.length = n)
    List.length_replicate ?_
  intro cells hcells t _
  rw [List.length_set, hcells]

theorem mem_sparse {n : Nat} {terms : List (Nat × Rat)} {a : Rat} (h : a ∈ sparse n terms) :
    a = 0 ∨ ∃ t ∈ terms, a = t.2 := by
  refine List.foldlRecOn terms _ (motive := fun cells : List Rat =>
    ∀ a ∈ cells, a = 0 ∨ ∃ t ∈ terms, a = t.2) ?_ ?_ a h
  · exact fun a ha => .inl (List.eq_of_mem_replicate ha)
  · intro cells hcells t ht a ha
    rcases List.mem_or_eq_of_mem_set ha with ha | rfl
    · exact hcells a ha
    · exact .inr ⟨t, ht, rfl⟩

/-- Terms written over zeros add their values to that of the form. -/
theorem form_foldl_set {terms : List (Nat × Rat)} (hnodup : (terms.map Prod.fst).Nodup)
    (y : Nat → Rat) {cells : List Rat} (hlt : ∀ t ∈ terms, t.1 < cells.length)
    (hzero : ∀ t ∈ terms, cells.getD t.1 0 = 0) :
    form (terms.foldl (fun cells t => cells.set t.1 t.2) cells) y =
      form cells y + (terms.map fun t => t.2 * y t.1).sum := by
  induction terms generalizing cells with
  | nil => rw [List.foldl_nil, List.map_nil, List.sum_nil, add_zero]
  | cons t rest ih =>
    rw [List.map_cons, List.nodup_cons] at hnodup
    have ht := hlt t (List.mem_cons_self ..)
    have hother (t' : Nat × Rat) (hmem : t' ∈ rest) : t.1 ≠ t'.1 := fun heq =>
      hnodup.1 (heq ▸ List.mem_map_of_mem hmem)
    rw [List.foldl_cons, ih hnodup.2, form_set _ _ ht, hzero t (List.mem_cons_self ..),
      List.map_cons, List.sum_cons]
    · ring
    · intro t' hmem
      rw [List.length_set]
      exact hlt t' (List.mem_cons_of_mem _ hmem)
    · intro t' hmem
      rw [getD_set_of_ne (hother t' hmem)]
      exact hzero t' (List.mem_cons_of_mem _ hmem)

/-- The value of a spread form is that of its terms. -/
theorem form_sparse {n : Nat} {terms : List (Nat × Rat)} (hnodup : (terms.map Prod.fst).Nodup)
    (hlt : ∀ t ∈ terms, t.1 < n) (y : Nat → Rat) :
    form (sparse n terms) y = (terms.map fun t => t.2 * y t.1).sum := by
  have hblank : form (List.replicate n 0) y = 0 := form_replicate_zero y n
  rw [sparse, form_foldl_set hnodup y (by simpa using hlt), hblank, zero_add]
  intro t ht
  exact List.getD_replicate _ (hlt t ht)

theorem dot_sparse {n : Nat} {terms : List (Nat × Rat)} (hnodup : (terms.map Prod.fst).Nodup)
    (hlt : ∀ t ∈ terms, t.1 < n) (point : List Rat) :
    dot (sparse n terms) point = (terms.map fun t => t.2 * point.getD t.1 0).sum := by
  rw [dot_eq_form, form_sparse hnodup hlt]

/-! ## Stated programs -/

/-- The column that a call states, with its number. -/
def Call.statedColumn : Call Rat → Option (Nat × Column Rat)
  | .bounds column lower upper =>
    if column < 0 then none else some (column.toNat, ⟨lower, upper, false⟩)
  | .binary column => if column < 0 then none else some (column.toNat, ⟨0, .upTo 1, true⟩)
  | _ => none

/-- The row that a call states. -/
def Call.statedRow : Call Rat → Option (Row Rat)
  | .row r => some r
  | _ => none

namespace Program

/-- The columns that calls state. -/
def statedColumns (calls : List (Call Rat)) : List (Nat × Column Rat) :=
  calls.filterMap Call.statedColumn

variable {n : Nat}

/-- The rows are those stated, in their order. -/
theorem rows_ofCalls (calls : List (Call Rat)) :
    (ofCalls n calls).rows = calls.filterMap Call.statedRow := by
  induction calls using List.reverseRecOn with
  | nil => rfl
  | append_singleton calls call ih =>
    rw [ofCalls, List.foldl_append, List.filterMap_append, ← ih]
    cases call with
    | objective coeffs maximize => exact (List.append_nil _).symm
    | row row => rfl
    | bounds column lower upper =>
      simp only [List.foldl_cons, List.foldl_nil]
      split <;> exact (List.append_nil _).symm
    | binary column =>
      simp only [List.foldl_cons, List.foldl_nil]
      split <;> exact (List.append_nil _).symm

/-- One more statement changes the column that it states and no other. -/
theorem columns_ofCalls_append (calls : List (Call Rat)) (call : Call Rat) :
    call.statedColumn = none ∧
        (ofCalls n (calls ++ [call])).columns = (ofCalls n calls).columns ∨
      ∃ i c change, call.statedColumn = some (i, c) ∧ change ⟨0, .endless, false⟩ = c ∧
        (ofCalls n (calls ++ [call])).columns = (ofCalls n calls).columns.modify i change := by
  rw [ofCalls, List.foldl_append, List.foldl_cons, List.foldl_nil]
  cases call with
  | objective coeffs maximize => exact Or.inl ⟨rfl, rfl⟩
  | row r => exact Or.inl ⟨rfl, rfl⟩
  | bounds column lower upper =>
    by_cases hneg : column < 0
    · left
      simp only [Call.statedColumn, if_pos hneg]
      exact ⟨trivial, rfl⟩
    · right
      simp only [Call.statedColumn, if_neg hneg]
      exact ⟨_, _, _, rfl, rfl, rfl⟩
  | binary column =>
    by_cases hneg : column < 0
    · left
      simp only [Call.statedColumn, if_pos hneg]
      exact ⟨trivial, rfl⟩
    · right
      simp only [Call.statedColumn, if_neg hneg]
      exact ⟨_, _, _, rfl, rfl, rfl⟩

theorem size_ofCalls (calls : List (Call Rat)) : (ofCalls n calls).size = n := by
  induction calls using List.reverseRecOn with
  | nil => exact List.length_replicate
  | append_singleton calls call ih =>
    rcases columns_ofCalls_append calls call with ⟨_, heq⟩ | ⟨_, _, _, _, _, heq⟩
    · rw [size, heq]
      exact ih
    · rw [size, heq, List.length_modify]
      exact ih

/-- The objective is the one that is stated, if there is only one. -/
theorem objective_ofCalls {coeffs : List Rat} {maximize : Bool} {rest : List (Call Rat)}
    (h : ∀ coeffs maximize, Call.objective coeffs maximize ∉ rest) :
    (ofCalls n (.objective coeffs maximize :: rest)).objective = coeffs ∧
      (ofCalls n (.objective coeffs maximize :: rest)).maximize = maximize := by
  rw [ofCalls, List.foldl_cons]
  refine List.foldlRecOn rest _
    (motive := fun p : Program Rat => p.objective = coeffs ∧ p.maximize = maximize) ⟨rfl, rfl⟩ ?_
  intro p hp call hcall
  cases call with
  | objective coeffs maximize => exact absurd hcall (h coeffs maximize)
  | row row => exact hp
  | bounds column lower upper =>
    dsimp only
    split <;> exact hp
  | binary column =>
    dsimp only
    split <;> exact hp

/-- A statement that is not about the bounds of a column states none. -/
theorem statedColumns_append_none (calls : List (Call Rat)) {call : Call Rat}
    (h : call.statedColumn = none) : statedColumns (calls ++ [call]) = statedColumns calls := by
  rw [statedColumns, List.filterMap_append, List.filterMap_cons_none h, List.filterMap_nil,
    List.append_nil, statedColumns]

/-- A statement about the bounds of a column states that column. -/
theorem statedColumns_append_some (calls : List (Call Rat)) {call : Call Rat}
    {pair : Nat × Column Rat} (h : call.statedColumn = some pair) :
    statedColumns (calls ++ [call]) = statedColumns calls ++ [pair] := by
  rw [statedColumns, List.filterMap_append, List.filterMap_cons_some h, List.filterMap_nil,
    statedColumns]

/-- What holds of a column from zero up and what every statement about a column keeps holds of all
columns. -/
theorem forall_columns_ofCalls {P : Column Rat → Prop} {calls : List (Call Rat)}
    (hblank : P ⟨0, .endless, false⟩)
    (hbounds : ∀ column lower upper, Call.bounds column lower upper ∈ calls →
      ∀ c, P c → P { c with lower, upper })
    (hbinary : ∀ column, Call.binary column ∈ calls → P ⟨0, .upTo 1, true⟩) :
    ∀ c ∈ (ofCalls n calls).columns, P c := by
  refine List.foldlRecOn calls _
    (motive := fun p : Program Rat => ∀ c ∈ p.columns, P c) ?_ ?_
  · intro c hc
    rw [List.eq_of_mem_replicate hc]
    exact hblank
  · intro q hq call hcall
    -- a changed column was there before
    have hmodify (i : Nat) (change : Column Rat → Column Rat) (hchange : ∀ c, P c → P (change c)) :
        ∀ c ∈ q.columns.modify i change, P c := by
      intro c hc
      obtain ⟨j, hj⟩ := List.mem_iff_getElem?.mp hc
      rw [List.getElem?_modify] at hj
      obtain ⟨d, hd, rfl⟩ := Option.map_eq_some_iff.mp hj
      have hbefore := hq d (List.mem_of_getElem? hd)
      split
      next => exact hchange d hbefore
      next => exact hbefore
    cases call with
    | objective => exact hq
    | row => exact hq
    | bounds column lower upper =>
      dsimp only
      split
      next => exact hq
      next => exact hmodify _ _ (hbounds column lower upper hcall)
    | binary column =>
      dsimp only
      split
      next => exact hq
      next => exact hmodify _ _ fun _ _ => hbinary column hcall

/-- A column is as it was stated, or from zero up if it was not. -/
theorem getElem?_columns_ofCalls {calls : List (Call Rat)}
    (hnodup : ((statedColumns calls).map Prod.fst).Nodup) {j : Nat} (hj : j < n) :
    (∀ c, (j, c) ∈ statedColumns calls → (ofCalls n calls).columns[j]? = some c) ∧
      (j ∉ (statedColumns calls).map Prod.fst →
        (ofCalls n calls).columns[j]? = some ⟨0, .endless, false⟩) := by
  induction calls using List.reverseRecOn with
  | nil => exact ⟨nofun, fun _ => List.getElem?_replicate_of_lt hj⟩
  | append_singleton calls call ih =>
    rcases columns_ofCalls_append calls call with ⟨hnone, heq⟩ | ⟨i, c, change, hsome, hc, heq⟩
    -- a statement about no column, or about one that does not exist
    · rw [statedColumns_append_none calls hnone] at hnodup ⊢
      rw [heq]
      exact ih hnodup
    · rw [statedColumns_append_some calls hsome, List.map_append, List.nodup_append] at hnodup
      obtain ⟨hnodup, _, hnew⟩ := hnodup
      obtain ⟨hold, hdefault⟩ := ih hnodup
      -- a column that is stated for the first time is still as it was in the beginning
      have hfresh : i ∉ (statedColumns calls).map Prod.fst := fun hmem =>
        hnew i hmem i (List.mem_singleton_self i) rfl
      rw [statedColumns_append_some calls hsome, heq, List.getElem?_modify, List.map_append,
        List.mem_append, not_or]
      by_cases hij : i = j
      · subst hij
        constructor
        · intro c' hc'
          rcases List.mem_append.mp hc' with hc' | hc'
          · exact absurd (List.mem_map_of_mem hc') hfresh
          · cases List.mem_singleton.mp hc'
            rw [hdefault hfresh, Option.map_eq_map, Option.map_some, if_pos rfl, hc]
        · rintro ⟨_, hother⟩
          exact absurd (List.mem_singleton_self i) hother
      · simp only [if_neg hij, Option.map_eq_map, Option.map_id_fun']
        constructor
        · intro c' hc'
          rcases List.mem_append.mp hc' with hc' | hc'
          · exact hold c' hc'
          · exact absurd (congrArg Prod.fst (List.mem_singleton.mp hc')).symm hij
        · rintro ⟨hother, _⟩
          exact hdefault hother

theorem allows_blank_iff (x : Rat) : (⟨0, .endless, false⟩ : Column Rat).Allows x ↔ 0 ≤ x :=
  ⟨fun h => h.1, fun h => ⟨h, trivial, nofun⟩⟩

theorem allows_continuous_iff {lower x : Rat} {upper : Limit Rat} :
    (⟨lower, upper, false⟩ : Column Rat).Allows x ↔ lower ≤ x ∧ upper.Allows x :=
  ⟨fun h => ⟨h.1, h.2.1⟩, fun h => ⟨h.1, h.2, nofun⟩⟩

theorem allows_binary_iff (x : Rat) :
    (⟨0, .upTo 1, true⟩ : Column Rat).Allows x ↔ x = 0 ∨ x = 1 := by
  constructor
  · rintro ⟨hlower, hupper, hwhole⟩
    obtain ⟨k, hk⟩ := hwhole rfl
    cases Option.some.inj hk
    have hlower : (0 : Rat) ≤ k := hlower
    have hupper : (k : Rat) ≤ 1 := hupper
    have hlower : 0 ≤ k := by exact_mod_cast hlower
    have hupper : k ≤ 1 := by exact_mod_cast hupper
    rcases (show k = 0 ∨ k = 1 by omega) with rfl | rfl
    · exact Or.inl Int.cast_zero
    · exact Or.inr Int.cast_one
  · rintro (rfl | rfl)
    · exact ⟨le_refl 0, zero_le_one, fun _ => ⟨0, rfl⟩⟩
    · exact ⟨zero_le_one, le_refl 1, fun _ => ⟨1, rfl⟩⟩

/-- The points of a program whose columns are stated at most once. -/
theorem feasible_ofCalls_iff {calls : List (Call Rat)}
    (hnodup : ((statedColumns calls).map Prod.fst).Nodup)
    (hlt : ∀ pair ∈ statedColumns calls, pair.1 < n) (point : List Rat) :
    (ofCalls n calls).Feasible point ↔ point.length = n ∧
      (∀ pair ∈ statedColumns calls, pair.2.Allows (point.getD pair.1 0)) ∧
      (∀ j < n, j ∉ (statedColumns calls).map Prod.fst → 0 ≤ point.getD j 0) ∧
      ∀ r ∈ calls.filterMap Call.statedRow, r.Holds point := by
  rw [feasible_iff_at, size_ofCalls, rows_ofCalls, and_congr_right_iff, ← and_assoc,
    and_congr_left_iff]
  intro hlen _
  have hvalue (j : Nat) (hj : j < n) : point[j]? = some (point.getD j 0) :=
    getElem?_eq_some_getD (hlen ▸ hj)
  constructor
  · intro hallows
    constructor
    · intro pair hpair
      have hj := hlt pair hpair
      exact hallows _ _ _ ((getElem?_columns_ofCalls hnodup hj).1 _ hpair) (hvalue _ hj)
    · intro j hj hnot
      have hblank := (getElem?_columns_ofCalls hnodup hj).2 hnot
      exact (allows_blank_iff _).mp (hallows j _ _ hblank (hvalue j hj))
  · rintro ⟨hstated, hrest⟩ j c x hc hx
    have hj : j < n := hlen ▸ (List.getElem?_eq_some_iff.mp hx).1
    cases (hvalue j hj).symm.trans hx
    by_cases hmem : j ∈ (statedColumns calls).map Prod.fst
    · obtain ⟨⟨_, c'⟩, hpair, rfl⟩ := List.mem_map.mp hmem
      cases hc.symm.trans ((getElem?_columns_ofCalls hnodup hj).1 c' hpair)
      exact hstated _ hpair
    · cases hc.symm.trans ((getElem?_columns_ofCalls hnodup hj).2 hmem)
      exact (allows_blank_iff _).mpr (hrest j hj hmem)

end Program

/-! ## Answers -/

namespace Backend

/-- A backend that takes every statement comes to its answer. -/
theorem answer_runFrom_of_accepts {b : Backend Rat} {calls : List (Call Rat)}
    (h : ∀ taken, ∀ call ∈ calls, b.accept taken call = .ok ()) (taken : List (Call Rat)) :
    (b.runFrom taken calls).answer = b.solve (taken ++ calls) := by
  induction calls generalizing taken with
  | nil => rw [runFrom, List.append_nil]
  | cons call rest ih =>
    rw [runFrom, h taken call (List.mem_cons_self ..)]
    have hrest := ih fun taken' call' hcall => h taken' call' (List.mem_cons_of_mem _ hcall)
    exact (hrest _).trans (by rw [List.append_assoc, List.singleton_append])

/-- A scripted backend answers as scripted, whatever is stated. -/
theorem answer_scripted (status : Status) (solution : List Rat) (n : Nat)
    (calls : List (Call Rat)) :
    ((scripted status solution n).run calls).answer =
      .ok ⟨status, solution ++ List.replicate (n - solution.length) 0, none, 0⟩ :=
  answer_runFrom_of_accepts (fun _ _ _ => rfl) []

/-- A backend that answers some statements about `n` columns with an optimal solution of the
program that they describe. -/
def Optimizes (b : Backend Rat) (n : Nat) (calls : List (Call Rat)) : Prop :=
  ∃ answer, (b.run calls).answer = .ok answer ∧ answer.status = .optimal ∧
    (Program.ofCalls n calls).IsOptimal answer.solution

/-- A scripted optimal solution that is one. -/
theorem optimizes_scripted {solution : List Rat} {n : Nat} {calls : List (Call Rat)}
    (h : (Program.ofCalls n calls).IsOptimal solution) :
    (scripted .optimal solution n).Optimizes n calls := by
  have hlen : solution.length = n := h.1.1.trans (Program.size_ofCalls calls)
  refine ⟨_, answer_scripted .optimal solution n calls, rfl, ?_⟩
  rwa [hlen, Nat.sub_self, List.replicate_zero, List.append_nil]

end Backend

end GoalBudget
