import GoalBudget.Proofs.Ledger.Lookup
import GoalBudget.Proofs.Program.Release
import GoalBudget.Proofs.Strategy.Affordable

/-!
# Consulting a backend

Two strategies may ask a backend before they go on by themselves. Both do it in the same way, which
`Consults` describes: where there is something to decide, one and the same program is stated to
whatever backend there is for its columns; a solution is moved within the bounds of the variables,
and without one the result is that of having no backend.

What this means for the outside is `FallsBack`: a backend without a solution makes no difference,
and of one with a solution only the front counts. A procedure that consults falls back
(`Consults.fallsBack`).

There is nothing to decide without variables or without a positive income, and nothing to ask for
where the lower bounds exceed the income (`Undecided`). No backend is asked then.
-/

namespace GoalBudget

variable {γ : Type} [Scores γ]

namespace GoalProgram

variable {p : GoalProgram Rat γ}

/-- Whether a goal program leaves something to decide: it has variables, their lower bounds fit
into the income, and there is an income. -/
structure Undecided (p : GoalProgram Rat γ) : Prop where
  vars : p.vars ≠ []
  minimums : checkMinimums p.vars p.income = .ok ()
  income : 0 < p.income

theorem not_undecided_iff : ¬p.Undecided ↔ p.vars.isEmpty = true ∨
    (∃ e, checkMinimums p.vars p.income = .error e) ∨ p.income ≤ 0 := by
  constructor
  · intro h
    by_contra hnot
    obtain ⟨hvars, hcheck, hincome⟩ := not_or.mp hnot |>.imp_right not_or.mp
    refine h ⟨fun hnil => hvars (List.isEmpty_iff.mpr hnil), ?_, not_le.mp hincome⟩
    cases hresult : checkMinimums p.vars p.income with
    | error e => exact absurd ⟨e, hresult⟩ hcheck
    | ok _ => rfl
  · rintro (hvars | ⟨e, he⟩ | hincome) h
    · exact h.vars (List.isEmpty_iff.mp hvars)
    · exact nomatch he.symm.trans h.minimums
    · exact not_le.mpr h.income hincome

/-- What is behind the variables does not count. -/
theorem clampSolution_take (solution : List Rat) :
    p.clampSolution (solution.take p.vars.length) = p.clampSolution solution := by
  have hlength : (p.clampSolution solution).length ≤ p.vars.length := by
    rw [clampSolution, List.length_zipWith]
    exact min_le_right _ _
  rw [← List.take_of_length_le hlength, clampSolution, clampSolution, List.take_zipWith,
    List.take_length]

/-- Every amount that is moved within the bounds is within those of a variable with its id. -/
theorem mem_entries_valuesById_clamp {solution : List Rat} {e : String × Rat}
    (h : e ∈ (p.valuesById (p.clampSolution solution)).entries) :
    ∃ v ∈ p.vars, v.id = e.1 ∧ v.minimum ≤ e.2 ∧ e.2 ≤ v.upperBound p.income := by
  obtain ⟨i, hi, he⟩ := List.getElem_of_mem (Ledger.mem_of_mem_ofList h)
  subst he
  simp only [clampSolution, List.getElem_zip, List.getElem_map, List.getElem_zipWith]
  refine ⟨_, List.getElem_mem _, rfl, Variable.minimum_le_clamp _ _ _, ?_⟩
  rw [Variable.clamp, least_eq_min]
  exact min_le_right _ _

/-- Bounds, budget and what is stated about the columns behind the variables make up a program
of all columns. -/
theorem describe_statements {n : Nat} {coeffs : List Rat} {maximize : Bool}
    {rest : List (Call Rat)} (hn : p.vars.length ≤ n) (hcoeffs : coeffs.length = n)
    (hfits : ∀ call ∈ rest, call.Fits n)
    (hrest : (Program.statedColumns rest).map Prod.fst =
      List.range' p.vars.length (n - p.vars.length)) :
    Describe n (p.statements n coeffs maximize rest) := by
  refine ⟨fun call hcall => ?_, keys_statements hn hrest⟩
  rw [statements, List.mem_append, List.mem_append, List.mem_append] at hcall
  rcases hcall with ((hcall | hcall) | hcall) | hcall
  · cases List.mem_singleton.mp hcall
    exact hcoeffs
  · obtain ⟨⟨v, i⟩, hv, rfl⟩ := List.mem_map.mp hcall
    have hi : i < p.vars.length := (List.mem_zipIdx' hv).1
    exact ⟨Int.natCast_nonneg i, by omega⟩
  · cases List.mem_singleton.mp hcall
    show (List.replicate p.vars.length (1 : Rat) ++
      List.replicate (n - p.vars.length) 0).length = n
    rw [List.length_append, List.length_replicate, List.length_replicate]
    omega
  · exact hfits call hcall

end GoalProgram

variable {ρ : Type} {p : GoalProgram Rat γ}
  {solve : (Nat → Option (Backend Rat)) → Except (Fault Rat) ρ}
  {session? : (Nat → Option (Backend Rat)) → Option (Session Rat)}
  {conclude : List Rat → Except (Fault Rat) ρ} {values : ρ → Ledger Rat}
  {n : Nat} {calls : List (Call Rat)} {backends : Nat → Option (Backend Rat)}

/-- What a procedure guarantees that may ask a backend. -/
structure FallsBack (p : GoalProgram Rat γ)
    (solve : (Nat → Option (Backend Rat)) → Except (Fault Rat) ρ)
    (session? : (Nat → Option (Backend Rat)) → Option (Session Rat))
    (conclude : List Rat → Except (Fault Rat) ρ) (values : ρ → Ledger Rat) : Prop where
  /-- Backends that have no solution make no difference. -/
  declined : ∀ backends, (∀ n b, backends n = some b → b.Declines) →
    solve backends = solve fun _ => none
  /-- Without a session the backends make no difference either. -/
  alone : ∀ backends, session? backends = none → solve backends = solve fun _ => none
  /-- There is one program to be stated, and a session is with the one backend for its
  columns, which hears of nothing else and whose attempt decides. -/
  program : ∃ n calls, Describe n calls ∧ ∀ backends session, session? backends = some session →
    session.columns = n ∧ ∃ b, backends n = some b ∧ session.trace = (b.run calls).trace ∧
      solve backends = b.attempt calls >>= fun found =>
        found.elim (solve fun _ => none) fun solution => conclude (p.clampSolution solution)
  /-- The backend is released once, and nothing happens to it afterwards. -/
  released : ∀ backends session, session? backends = some session → ReleasedOnce session.trace
  /-- Of a solution the front counts, with every amount moved within the bounds of its
  variable. -/
  found : ∀ backends session b solution, session? backends = some session →
    backends session.columns = some b → b.Finds solution → p.vars.length ≤ solution.length →
    ∃ r, solve backends = .ok r ∧
      conclude (p.clampSolution (solution.take p.vars.length)) = .ok r ∧
      values r = p.valuesById (p.clampSolution (solution.take p.vars.length)) ∧
      ∀ e ∈ (values r).entries, ∃ v ∈ p.vars, v.id = e.1 ∧ v.minimum ≤ e.2 ∧
        e.2 ≤ v.upperBound p.income

/-- A procedure that states the program of some calls, about `n` columns, to a backend. -/
structure Consults (p : GoalProgram Rat γ)
    (solve : (Nat → Option (Backend Rat)) → Except (Fault Rat) ρ)
    (session? : (Nat → Option (Backend Rat)) → Option (Session Rat))
    (conclude : List Rat → Except (Fault Rat) ρ) (n : Nat) (calls : List (Call Rat)) : Prop where
  describe : Describe n calls
  /-- Where nothing is left to decide, nobody is asked. -/
  idle : ¬p.Undecided → ∀ backends, session? backends = none ∧
    solve backends = solve fun _ => none
  /-- Else the backend for the columns is asked, if there is one. -/
  session : p.Undecided → ∀ backends,
    session? backends = (backends n).map fun b => ⟨n, (b.run calls).trace⟩
  /-- The backends for other numbers of columns have no say. -/
  absent : p.Undecided → ∀ backends, backends n = none → solve backends = solve fun _ => none
  /-- A backend that is asked either has a solution or is as good as none. -/
  asked : p.Undecided → ∀ backends b, backends n = some b →
    solve backends = b.attempt calls >>= fun found =>
      found.elim (solve fun _ => none) fun solution => conclude (p.clampSolution solution)

namespace Consults

variable (h : Consults p solve session? conclude n calls)
include h

/-- What a session says about the backends. -/
theorem of_session {session : Session Rat} (hsession : session? backends = some session) :
    p.Undecided ∧ session.columns = n ∧
      ∃ b, backends n = some b ∧ session.trace = (b.run calls).trace := by
  by_cases hopen : p.Undecided
  · rw [h.session hopen] at hsession
    obtain ⟨b, hb, rfl⟩ := Option.map_eq_some_iff.mp hsession
    exact ⟨hopen, rfl, b, hb, rfl⟩
  · rw [(h.idle hopen backends).1] at hsession
    cases hsession

/-- Without a session the backends do not matter. -/
theorem alone (hsession : session? backends = none) : solve backends = solve fun _ => none := by
  by_cases hopen : p.Undecided
  · rw [h.session hopen, Option.map_eq_none_iff] at hsession
    exact h.absent hopen backends hsession
  · exact (h.idle hopen backends).2

/-- Backends that decline do not matter. -/
theorem declined (hdeclines : ∀ n b, backends n = some b → b.Declines) :
    solve backends = solve fun _ => none := by
  cases hsession : session? backends with
  | none => exact h.alone hsession
  | some session =>
    obtain ⟨hopen, _, b, hb, _⟩ := h.of_session hsession
    rw [h.asked hopen backends b hb, (hdeclines n b hb).attempt]
    rfl

/-- Whoever consults falls back, if every amount of the variables can be reported. -/
theorem fallsBack (hconclude : ∀ solution : List Rat, p.vars.length ≤ solution.length →
      ∃ r, conclude (p.clampSolution solution) = .ok r ∧
        values r = p.valuesById (p.clampSolution solution)) :
    FallsBack p solve session? conclude values := by
  constructor
  case declined => exact fun backends => h.declined
  case alone => exact fun backends => h.alone
  case program =>
    refine ⟨n, calls, h.describe, fun backends session hsession => ?_⟩
    obtain ⟨hopen, hcolumns, b, hb, htrace⟩ := h.of_session hsession
    exact ⟨hcolumns, b, hb, htrace, h.asked hopen backends b hb⟩
  case released =>
    intro backends session hsession
    obtain ⟨_, _, b, _, htrace⟩ := h.of_session hsession
    exact htrace ▸ b.releasedOnce_run calls
  case found =>
    intro backends session b solution hsession hb hfinds hlength
    obtain ⟨hopen, hcolumns, _⟩ := h.of_session hsession
    obtain ⟨r, hr, hvalues⟩ := hconclude solution hlength
    rw [GoalProgram.clampSolution_take]
    refine ⟨r, ?_, hr, hvalues, fun e he => ?_⟩
    · rw [h.asked hopen backends b (hcolumns ▸ hb), hfinds.attempt]
      exact hr
    · rw [hvalues] at he
      exact GoalProgram.mem_entries_valuesById_clamp he

end Consults

end GoalBudget
