import GoalBudget.Proofs.Fuzzy.Optimum
import GoalBudget.Proofs.Fuzzy.Outcome
import GoalBudget.Proofs.Strategy.Consultation

/-!
# Fuzzy programs and their backend

The program that a fuzzy goal program states has as many columns as its encoding is wide, and
mentions all of them: those of the variables with the bounds, those of the blocks with the curves
(`FuzzyProgram.describe_calls`). It is the same whatever backend there is, so solving is one
consultation of it (`FuzzyProgram.consults`).

The result thus depends on the backend in two ways only: whether it comes to a solution, and what
the first entries of the solution are. What happens to the backend is said of consultations in
general, and not again here. A program that states anything states a binary column as well
(`exists_binary_mem_calls`), so the simplex method always refuses it.

Where the program does not get to a backend the result is the same for all of them
(`solve_of_idle`), and where it does the check of the lower bounds has passed.
-/

namespace GoalBudget

namespace Block

variable {b : Block Rat} {bigM : Rat} {n : Nat}

/-- What is stated about a block is about columns up to its last one. -/
theorem fits_calls (hb : b.Placed) (hn : b.membershipColumn + 1 + b.segments.length ≤ n) :
    ∀ call ∈ b.calls n bigM, call.Fits n := by
  intro call hcall
  rw [calls, List.mem_append, List.mem_append, List.mem_append] at hcall
  rcases hcall with ((hcall | hcall) | hcall) | hcall
  · cases List.mem_singleton.mp hcall
    exact ⟨Int.natCast_nonneg _, by omega⟩
  · obtain ⟨j, hj, rfl⟩ := List.mem_map.mp hcall
    have hlt := (hb.mem_indicators.mp hj).2
    exact ⟨Int.natCast_nonneg _, by omega⟩
  · cases List.mem_singleton.mp hcall
    exact length_sparse n _
  · obtain ⟨pair, _, hcall⟩ := List.mem_flatMap.mp hcall
    obtain ⟨row, hrow, rfl⟩ := List.mem_map.mp hcall
    simp only [segmentRows, List.mem_cons, List.not_mem_nil, or_false] at hrow
    rcases hrow with rfl | rfl | rfl <;> exact length_sparse n _

end Block

/-- The rows of an encoding have a coefficient for every column. -/
theorem Encoding.Laid.fits_calls {e : Encoding Rat} {n : Nat} {bigM : Rat}
    {goals : List EncodedGoal} (h : e.Laid n bigM goals) :
    ∀ call ∈ e.calls, call.Fits e.width := by
  intro call hcall
  obtain ⟨b, hb, hcall⟩ := List.mem_flatMap.mp hcall
  exact Block.fits_calls (h.placed b hb) (h.block_le hb) call hcall

namespace FuzzyProgram

variable (p : FuzzyProgram Rat)

theorem length_objective (goals : List (FuzzyGoal Rat × Rat)) (e : Encoding Rat) :
    (p.objective goals e).length = e.width := by
  refine List.foldlRecOn goals _ (motive := fun cells : List Rat => cells.length = e.width)
    (length_sparse _ _) ?_
  intro cells hcells g _
  rw [List.length_modify, hcells]

/-- Everything that is stated is about the columns of the encoding, and about all of them. -/
theorem describe_calls : Describe p.encoding.width (p.calls p.weighted p.encoding) := by
  have h := p.laid_encoding
  exact GoalProgram.describe_statements h.le (p.length_objective _ _) h.fits_calls h.statedColumns

/-- For a goal whose curve has lines, a binary column is stated per line. -/
theorem exists_binary_mem_calls {g : FuzzyGoal Rat} (hg : g ∈ p.goals)
    (hpieces : g.curve.pieces ≠ []) :
    ∃ column, .binary column ∈ p.calls p.weighted p.encoding := by
  have h := p.laid_encoding
  obtain ⟨b, hb, hserves⟩ := h.served ⟨g.id, g.index, g.curve, p.tierWeight g⟩
    (List.mem_map.mpr ⟨g, hg, rfl⟩)
  have hsegments : b.segments ≠ [] := by
    rw [hserves.segments, Curve.decompose]
    exact List.append_ne_nil_of_left_ne_nil (List.append_ne_nil_of_right_ne_nil _ hpieces) _
  obtain ⟨j, hj⟩ := List.exists_mem_of_ne_nil b.indicators fun hnone => by
    have hlength := (h.placed b hb).length_indicators
    rw [hnone] at hlength
    exact hsegments (List.eq_nil_of_length_eq_zero hlength.symm)
  refine ⟨j, List.mem_append_right _ (List.mem_flatMap.mpr ⟨b, hb, ?_⟩)⟩
  refine List.mem_append_left _ (List.mem_append_left _ (List.mem_append_right _ ?_))
  exact List.mem_map.mpr ⟨j, hj, rfl⟩

section
variable {p}

/-- Without anything to decide, solving ends before it comes to a backend. -/
theorem solve_of_idle (h : ¬p.Undecided) (backends : Nat → Option (Backend Rat)) :
    p.session? backends = none ∧ p.solve backends = p.solve fun _ => none := by
  unfold solve session?
  rcases GoalProgram.not_undecided_iff.mp h with hvars | ⟨e, he⟩ | hincome
  · simp only [hvars]
    exact ⟨rfl, rfl⟩
  · simp only [he]
    refine ⟨?_, rfl⟩
    cases p.vars.isEmpty <;> rfl
  · simp only [hincome]
    refine ⟨?_, rfl⟩
    cases p.vars.isEmpty
    · cases checkMinimums p.vars p.income <;> rfl
    · rfl

section
variable (h : p.Undecided) {backends : Nat → Option (Backend Rat)}
include h

/-- With something to decide, only the backend for the columns of the encoding matters. -/
theorem session?_of_undecided :
    p.session? backends = (backends p.encoding.width).map fun b =>
      ⟨p.encoding.width, (b.run (p.calls p.weighted p.encoding)).trace⟩ := by
  have hvars : p.vars.isEmpty = false := by simpa using h.vars
  have hincome : ¬p.income ≤ 0 := not_le.mpr h.income
  rw [Option.map_eq_bind]
  simp only [session?, hvars, h.minimums, hincome, scaledGoals_eq]
  rfl

/-- Without a backend the greedy run decides. -/
theorem solve_of_absent (hnone : backends p.encoding.width = none) :
    p.solve backends = p.solveGreedily := by
  have hnone : backends (p.encode p.weighted).width = none := hnone
  rw [solve, if_neg (by simpa using h.vars), bind_of_eq_ok h.minimums,
    if_neg (not_le.mpr h.income), bind_of_eq_ok scaledGoals_eq]
  dsimp only
  rw [hnone]

/-- With a backend its solution decides, if it comes to one. -/
theorem solve_of_present {b : Backend Rat} (hb : backends p.encoding.width = some b) :
    p.solve backends = b.attempt (p.calls p.weighted p.encoding) >>= fun found =>
      found.elim p.solveGreedily fun solution =>
        p.summarize (p.clampSolution solution) .milp 1 := by
  have hb : backends (p.encode p.weighted).width = some b := hb
  rw [solve, if_neg (by simpa using h.vars), bind_of_eq_ok h.minimums,
    if_neg (not_le.mpr h.income), bind_of_eq_ok scaledGoals_eq]
  dsimp only
  rw [hb]
  refine bind_congr fun found => ?_
  cases found <;> rfl

end

end

/-- Solving states the same program to any backend, and only where something is to decide. -/
theorem consults : Consults p p.solve p.session? (p.summarize · .milp 1) p.encoding.width
    (p.calls p.weighted p.encoding) := by
  constructor
  case describe => exact p.describe_calls
  case idle => exact solve_of_idle
  case session => exact fun h _ => session?_of_undecided h
  case absent =>
    exact fun h _ hnone => (solve_of_absent h hnone).trans (solve_of_absent h rfl).symm
  case asked =>
    intro h backends b hb
    rw [solve_of_present h hb, solve_of_absent h rfl]

end FuzzyProgram

end GoalBudget
