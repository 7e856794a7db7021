import GoalBudget.Program.Command
import GoalBudget.Proofs.Fault.Success
import GoalBudget.Simplex.Solver

/-!
# Statements that are refused

A statement may be refused for many reasons: the sign of a row is unknown, coefficients are
too few or too many, there is no such column, a lower bound is not finite, binary columns are
not supported. What a refusal leaves behind depends on when it comes, so a statement is taken
apart into the checks and changes that it consists of (`Move`), and what was changed before a
check fails stays changed (`carryOut`).

The simplex method checks everything first, so it leaves nothing behind. A command notes the
sense of an objective before it counts the coefficients, and this sense is all that a refusal
ever leaves behind. So of a whole conversation only the statements count that were taken, but
for the sense. Main result: `refused_statements`, and `refused_objective_turns_sense` for a
sense that is left behind.
-/

namespace GoalBudget

/-- A statement as it is made: the relation of a row is still a sign. -/
inductive Statement (α : Type) where
  | objective (coeffs : List α) (maximize : Bool)
  | row (coeffs : List α) (sign : String) (rhs : α)
  | bounds (column : Int) (lower : α) (upper : Limit α)
  /-- A column is zero or one. -/
  | binary (column : Int)

variable {α σ : Type}

/-- What a statement says, or the fault of an unknown sign. -/
def Statement.call? : Statement α → Except (Fault α) (Call α)
  | .objective coeffs maximize => .ok (.objective coeffs maximize)
  | .row coeffs sign rhs => Call.row? coeffs sign rhs
  | .bounds column lower upper => .ok (.bounds column lower upper)
  | .binary column => .ok (.binary column)

/-- A state after a statement, and whether the statement was taken. -/
abbrev Said (α σ : Type) := σ × Except (Fault α) Unit

/-! ## Checks and changes -/

/-- A check or a change on the way through a statement. -/
inductive Move (α σ : Type) where
  | check (test : σ → Except (Fault α) Unit)
  | change (f : σ → σ)

/-- Moves one after the other, up to a check that fails. -/
def carryOut : List (Move α σ) → σ → Said α σ
  | [], s => (s, .ok ())
  | .check test :: rest, s =>
    match test s with
    | .ok () => carryOut rest s
    | .error fault => (s, .error fault)
  | .change f :: rest, s => carryOut rest (f s)

/-- Whether a move is a check. -/
def Move.isCheck : Move α σ → Bool
  | .check _ => true
  | .change _ => false

/-- Whether every check comes before every change. -/
def ChecksFirst (moves : List (Move α σ)) : Prop :=
  moves.Pairwise fun a b => b.isCheck = true → a.isCheck = true

/-- Without a check nothing fails. -/
theorem carryOut_changes {moves : List (Move α σ)} (h : ∀ move ∈ moves, move.isCheck = false)
    (s : σ) : (carryOut moves s).2 = .ok () := by
  induction moves generalizing s with
  | nil => rfl
  | cons move rest ih =>
    obtain ⟨hmove, hrest⟩ := List.forall_mem_cons.mp h
    cases move with
    | check test => cases hmove
    | change f => exact ih hrest (f s)

/-- Where every check comes first, a check that fails leaves the state as it is. -/
theorem carryOut_refused {moves : List (Move α σ)} (h : ChecksFirst moves) {s : σ}
    {fault : Fault α} (hfault : (carryOut moves s).2 = .error fault) :
    (carryOut moves s).1 = s := by
  induction moves generalizing s with
  | nil => rfl
  | cons move rest ih =>
    obtain ⟨hfirst, hrest⟩ := List.pairwise_cons.mp h
    cases move with
    | check test =>
      rw [carryOut] at hfault ⊢
      split
      next hpassed =>
        rw [hpassed] at hfault
        exact ih hrest hfault
      next => rfl
    | change f =>
      have hchanges : ∀ move ∈ rest, move.isCheck = false := by
        intro move hmove
        exact Bool.eq_false_iff.mpr fun hcheck => nomatch hfirst move hmove hcheck
      cases (carryOut_changes hchanges (f s)).symm.trans hfault

/-! ## The simplex method -/

variable [Scalar α]

namespace Simplex

/-- What a statement comes down to that is made to the simplex method. -/
def moves : Statement α → List (Move α (Simplex α))
  | .objective coeffs maximize =>
    [.check fun s => checkCoeffs s.size coeffs,
      .change fun s => { s with program := s.program.withObjective coeffs maximize }]
  | .row coeffs sign rhs =>
    match Relation.ofSign? sign with
    | none => [.check fun _ => .error (.unknownRelation sign)]
    | some relation =>
      [.check fun s => checkCoeffs s.size coeffs,
        .change fun s => { s with program := s.program.addRow ⟨coeffs, relation, rhs⟩ }]
  | .bounds column lower upper =>
    [.check fun s =>
        if 0 ≤ column ∧ column < s.size then .ok () else .error (.columnOutOfRange column s.size),
      .check fun _ => if Scalar.isFinite lower then .ok () else .error .infiniteLowerBound,
      .change fun s => { s with program := s.program.withBounds column.toNat lower upper }]
  | .binary _ => [.check fun _ => .error .binaryUnsupported]

/-- A statement made to the simplex method. -/
def say (s : Simplex α) (st : Statement α) : Said α (Simplex α) := carryOut (moves st) s

/-- Move by move, a statement is taken or refused as a whole. -/
theorem say_eq (s : Simplex α) (st : Statement α) : s.say st =
    match st.call? >>= s.call with
    | .ok s' => (s', .ok ())
    | .error fault => (s, .error fault) := by
  cases st with
  | objective coeffs maximize =>
    simp only [say, moves, carryOut]
    rw [Statement.call?, bind_of_eq_ok rfl]
    cases h : checkCoeffs s.size coeffs with
    | error fault =>
      rw [show s.call (.objective coeffs maximize) = .error fault from bind_of_eq_error h]
    | ok _ =>
      rw [show s.call (.objective coeffs maximize) = .ok _ from bind_of_eq_ok h]
  | row coeffs sign rhs =>
    simp only [say, moves, Statement.call?, Call.row?]
    cases Relation.ofSign? sign with
    | none => rfl
    | some relation =>
      simp only [carryOut]
      rw [bind_of_eq_ok rfl]
      cases h : checkCoeffs s.size coeffs with
      | error fault =>
        rw [show s.call (.row ⟨coeffs, relation, rhs⟩) = .error fault from bind_of_eq_error h]
      | ok _ =>
        rw [show s.call (.row ⟨coeffs, relation, rhs⟩) = .ok _ from bind_of_eq_ok h]
  | bounds column lower upper =>
    simp only [say, moves, carryOut]
    rw [Statement.call?, bind_of_eq_ok rfl, call, check, ite_not]
    by_cases hrange : 0 ≤ column ∧ column < s.size
    · rw [if_pos hrange, if_pos hrange]
      by_cases hfinite : Scalar.isFinite lower = true
      · rw [if_pos hfinite]
        rfl
      · rw [if_neg hfinite]
        rfl
    · rw [if_neg hrange, if_neg hrange]
      rfl
  | binary column => rfl

/-- The simplex method changes nothing before all checks of a statement have passed. -/
theorem checksFirst_moves (st : Statement α) : ChecksFirst (moves st) := by
  cases st with
  | objective coeffs maximize => simp [ChecksFirst, moves, Move.isCheck]
  | row coeffs sign rhs =>
    rw [moves]
    split
    next => exact List.pairwise_singleton ..
    next => simp [ChecksFirst, Move.isCheck]
  | bounds column lower upper => simp [ChecksFirst, moves, Move.isCheck]
  | binary column => exact List.pairwise_singleton ..

end Simplex

/-! ## Commands -/

namespace Command

/-- What a statement comes down to that is made to a command. The sense of an objective is noted
between two checks. -/
def moves : Statement α → List (Move α (Command α))
  | .objective coeffs maximize =>
    [.check fun c => if c.isReleased then .error .released else .ok (),
      .change fun c => { c with maximize },
      .check fun c =>
        if coeffs.length = c.size then .ok () else .error (.coefficientCount c.size coeffs.length),
      .change fun c => { c with objective := some coeffs, standIn := none }]
  | .row coeffs sign rhs =>
    match Relation.ofSign? sign with
    | none => [.check fun _ => .error (.unknownRelation sign)]
    | some relation =>
      [.check fun c => if c.isReleased then .error .released else .ok (),
        .check fun c =>
          if coeffs.length = c.size then .ok ()
          else .error (.coefficientCount c.size coeffs.length),
        .change fun c => { c with rows := c.rows ++ [⟨coeffs, relation, rhs⟩] }]
  | .bounds column lower upper =>
    [.check fun c => (c.change column id).2,
      .change fun c => (c.change column fun x =>
        { x with lower, upper := if upper.isEndless then .endless else upper }).1]
  | .binary column =>
    [.check fun c => (c.change column id).2,
      .change fun c => (c.change column fun x =>
        { x with lower := 0, upper := .upTo 1, integral := true }).1]

/-- A statement made to a command. -/
def say (c : Command α) (st : Statement α) : Said α (Command α) := carryOut (moves st) c

theorem say_eq (c : Command α) (st : Statement α) : c.say st =
    match st.call? with
    | .ok call => c.call call
    | .error fault => (c, .error fault) := by
  cases st with
  | objective coeffs maximize =>
    simp only [say, moves, carryOut, Statement.call?, call, ne_eq, ite_not]
    by_cases hreleased : c.isReleased = true
    · rw [if_pos hreleased, if_pos hreleased]
    · rw [if_neg hreleased, if_neg hreleased]
      by_cases hcount : (coeffs.length : Int) = c.size
      · rw [if_pos hcount, if_pos hcount]
      · rw [if_neg hcount, if_neg hcount]
  | row coeffs sign rhs =>
    simp only [say, moves, Statement.call?, Call.row?]
    cases Relation.ofSign? sign with
    | none => rfl
    | some relation =>
      simp only [carryOut, call, ne_eq, ite_not]
      by_cases hreleased : c.isReleased = true
      · rw [if_pos hreleased, if_pos hreleased]
      · rw [if_neg hreleased, if_neg hreleased]
        by_cases hcount : (coeffs.length : Int) = c.size
        · rw [if_pos hcount, if_pos hcount]
        · rw [if_neg hcount, if_neg hcount]
  | bounds column lower upper =>
    simp only [say, moves, carryOut, Statement.call?, call, change]
    cases placeOf? c.columns.length column with
    | none => rfl
    | some i => rfl
  | binary column =>
    simp only [say, moves, carryOut, Statement.call?, call, change]
    cases placeOf? c.columns.length column with
    | none => rfl
    | some i => rfl

/-- The command with another sense. -/
def withSense (c : Command α) (maximize : Bool) : Command α := { c with maximize }

/-- What a refusal leaves behind: nothing, or the sense of an objective that has not one
coefficient per column. -/
theorem say_refused {c : Command α} {st : Statement α} {fault : Fault α}
    (h : (c.say st).2 = .error fault) : (c.say st).1 = c ∨ ∃ coeffs maximize,
      st = .objective coeffs maximize ∧ c.isReleased = false ∧ (coeffs.length : Int) ≠ c.size ∧
        (c.say st).1 = c.withSense maximize := by
  cases st with
  | objective coeffs maximize =>
    rw [say_eq] at h ⊢
    simp only [Statement.call?, call] at h ⊢
    by_cases hreleased : c.isReleased = true
    · rw [if_pos hreleased]
      exact .inl rfl
    · rw [if_neg hreleased] at h ⊢
      by_cases hcount : (coeffs.length : Int) ≠ c.size
      -- The sense is set before the coefficients are counted.
      · rw [if_pos hcount]
        exact .inr ⟨coeffs, maximize, rfl, by simpa using hreleased, hcount, rfl⟩
      · rw [if_neg hcount] at h
        cases h
  | row coeffs sign rhs =>
    -- The three others check before they change anything.
    refine .inl (carryOut_refused ?_ h)
    rw [moves]
    split
    next => exact List.pairwise_singleton ..
    next => simp [ChecksFirst, Move.isCheck]
  | bounds column lower upper =>
    exact .inl (carryOut_refused (by simp [ChecksFirst, moves, Move.isCheck]) h)
  | binary column =>
    exact .inl (carryOut_refused (by simp [ChecksFirst, moves, Move.isCheck]) h)

/-- Whether two commands differ in their sense at most. -/
def SameButSense (c c' : Command α) : Prop := c.withSense false = c'.withSense false

/-- The sense has no say in what else becomes of a command. -/
theorem say_withSense (c : Command α) (maximize : Bool) (st : Statement α) :
    ((c.withSense maximize).say st).1.SameButSense (c.say st).1 := by
  rw [say_eq, say_eq]
  obtain ⟨size, columns, objective, standIn, sense, rows, isReleased⟩ := c
  cases st.call? with
  | error fault => rfl
  | ok statement =>
    cases statement with
    -- An objective overwrites the sense or is refused with the sense already overwritten; neither
    -- looks at the old one.
    | objective coeffs maximize' =>
      cases isReleased with
      | true => rfl
      | false =>
        show SameButSense (if (coeffs.length : Int) ≠ size then (_ : Said α (Command α)) else _).1
          (if (coeffs.length : Int) ≠ size then (_ : Said α (Command α)) else _).1
        split
        next => rfl
        next => rfl
    | row row =>
      cases isReleased with
      | true => rfl
      | false =>
        show SameButSense
          (if (row.coeffs.length : Int) ≠ size then (_ : Said α (Command α)) else _).1
          (if (row.coeffs.length : Int) ≠ size then (_ : Said α (Command α)) else _).1
        split
        next => rfl
        next => rfl
    | bounds column lower upper =>
      simp only [call, change, withSense]
      cases placeOf? columns.length column with
      | none => rfl
      | some i => rfl
    | binary column =>
      simp only [call, change, withSense]
      cases placeOf? columns.length column with
      | none => rfl
      | some i => rfl

/-- A command that differs in its sense alone takes and refuses the same statements. -/
theorem SameButSense.say {c c' : Command α} (h : c.SameButSense c') (st : Statement α) :
    (c.say st).1.SameButSense (c'.say st).1 := by
  have hleft := c.say_withSense false st
  have hright := c'.say_withSense false st
  rw [h] at hleft
  exact hleft.symm.trans hright

end Command

/-! ## Conversations -/

namespace Statement

variable {α σ : Type} (say : σ → Statement α → Said α σ)

/-- A state after statements, refused ones included. -/
def after (s : σ) (sts : List (Statement α)) : σ := sts.foldl (fun s st => (say s st).1) s

/-- Those of some statements that are taken. -/
def taken (s : σ) : List (Statement α) → List (Statement α)
  | [] => []
  | st :: rest =>
    match (say s st).2 with
    | .ok () => st :: taken (say s st).1 rest
    | .error _ => taken (say s st).1 rest

/-- Where neither a refusal nor the same statement leads out of a relation, only the statements
that are taken count. -/
theorem after_taken {R : σ → σ → Prop} (htrans : ∀ a b c, R a b → R b c → R a c)
    (hsame : ∀ s s' st, R s s' → R (say s st).1 (say s' st).1)
    (hrefused : ∀ s st fault, (say s st).2 = .error fault → R s (say s st).1) {s s' : σ}
    (h : R s s') (sts : List (Statement α)) :
    R (after say s (taken say s' sts)) (after say s' sts) := by
  induction sts generalizing s s' with
  | nil => exact h
  | cons st rest ih =>
    rw [taken]
    split
    next => exact ih (hsame s s' st h)
    next fault hfault => exact ih (htrans _ _ _ h (hrefused s' st fault hfault))

end Statement

/-- A statement that the simplex method refuses changes nothing, and one that a command refuses
changes nothing but the sense, and that only if it is an objective that has not one coefficient
per column. So the program to be solved is that of the statements that were taken, but for the
sense of the program of a command. -/
theorem refused_statements :
    (∀ (s : Simplex α) (st : Statement α) (fault : Fault α), (s.say st).2 = .error fault →
      (s.say st).1 = s) ∧
    (∀ (c : Command α) (st : Statement α) (fault : Fault α), (c.say st).2 = .error fault →
      (c.say st).1 = c ∨ ∃ coeffs maximize, st = .objective coeffs maximize ∧
        c.isReleased = false ∧ (coeffs.length : Int) ≠ c.size ∧
          (c.say st).1 = c.withSense maximize) ∧
    ∀ sts : List (Statement α),
      (∀ s : Simplex α, Statement.after Simplex.say s (Statement.taken Simplex.say s sts) =
        Statement.after Simplex.say s sts) ∧
      ∀ c : Command α,
        (Statement.after Command.say c (Statement.taken Command.say c sts)).SameButSense
          (Statement.after Command.say c sts) := by
  have hsimplex (s : Simplex α) (st : Statement α) (fault : Fault α)
      (h : (s.say st).2 = .error fault) : (s.say st).1 = s :=
    carryOut_refused (Simplex.checksFirst_moves st) h
  refine ⟨hsimplex, fun c st fault => Command.say_refused, fun sts => ⟨fun s => ?_, fun c => ?_⟩⟩
  · refine Statement.after_taken Simplex.say (R := Eq) (fun _ _ _ => Eq.trans) ?_ ?_ rfl sts
    · rintro s _ st rfl
      rfl
    · exact fun s st fault h => (hsimplex s st fault h).symm
  · refine Statement.after_taken Command.say (R := Command.SameButSense) (fun _ _ _ => Eq.trans)
      (fun c c' st h => h.say st) (fun c st fault h => ?_) rfl sts
    rcases Command.say_refused h with hkept | ⟨coeffs, maximize, _, _, _, hsense⟩
    · rw [hkept]
      rfl
    · rw [hsense]
      rfl

/-- A binary column refused by the simplex method, and a column that does not exist refused by a
command. -/
theorem refused_statements_one :
    ((Simplex.blank 1 : Simplex Rat).say (.binary 0)).2 = .error .binaryUnsupported ∧
      ((Simplex.blank 1 : Simplex Rat).say (.binary 0)).1 = Simplex.blank 1 ∧
      ((Command.blank 1 : Command Rat).say (.bounds 5 0 .endless)).2 =
        .error .positionOutOfRange ∧
      ((Command.blank 1 : Command Rat).say (.bounds 5 0 .endless)).1 = Command.blank 1 := by
  obtain ⟨hsimplex, hcommand, _⟩ := refused_statements (α := Rat)
  refine ⟨rfl, hsimplex _ _ .binaryUnsupported rfl, rfl, ?_⟩
  rcases hcommand (.blank 1) (.bounds 5 0 .endless) .positionOutOfRange rfl with
    hkept | ⟨_, _, hobjective, _⟩
  · exact hkept
  · cases hobjective

/-- An objective that is refused turns a program that is to be made small into one that is to be
made large. -/
theorem refused_objective_turns_sense :
    let c : Command Rat := Statement.after Command.say (.blank 1) [.objective [1] false]
    let refused := c.say (.objective [1, 2] true)
    c.isReleased = false ∧ refused.2 = .error (.coefficientCount 1 2) ∧
      c.handed.maximize = false ∧ refused.1.handed.maximize = true :=
  ⟨rfl, rfl, rfl, rfl⟩

end GoalBudget
