import GoalBudget.Proofs.Fuzzy.Optimum
import GoalBudget.Proofs.Ladder.Optimum

/-!
# Multipliers counted from the least important tier

The multiplier of a tier is a power of a base. Counted from a fixed reference `top` its exponent
may be needlessly large: if even the least important priority in use stands above the reference,
every multiplier has the powers that they all share (`commonScale`). Counting from that priority
instead divides them out (`pow_tiersAbove_of_le`).

`KeepsRatios` says what the multipliers are good for and that all of it survives: their ratios, that
they fall with the priority number and never below one, and that tiers above the reference differ
by the power of their distance. The weights of a fuzzy program and the rewards of a program with
ladders are then a common multiple of those that a fixed reference gives, and so is the objective
as it is stated to a backend (`FuzzyProgram.objective_rescale`, `LadderProgram.objective_rescale`).

Main result: `normalized_scale_keeps_ratios`.
-/

namespace GoalBudget

/-! ## Tiers -/

/-- With exact arithmetic no multiplier is out of range. -/
theorem priorityScale_eq (priority : Int) (base : Rat) (top : Int) (lowest : Option Int) :
    priorityScale priority base top lowest = .ok (base ^ tiersAbove priority top lowest) := rfl

section
variable {p q lowest : Int} (top : Int)

/-- No priority in use is above the least important one. -/
theorem le_of_leastImportant {priorities : List Int} (h : leastImportant priorities = some lowest)
    (hp : p ∈ priorities) : p ≤ lowest :=
  (List.max?_eq_some_iff.mp h).2 p hp

/-- Where there is an item, there is a least important priority, whatever stands in for none. -/
theorem le_getD_leastImportant {τ : Type} (priority : τ → Int) {items : List τ} {item : τ}
    (h : item ∈ items) (default : Int) :
    leastImportant (items.map priority) =
        some ((leastImportant (items.map priority)).getD default) ∧
      priority item ≤ (leastImportant (items.map priority)).getD default := by
  have hmem : priority item ∈ items.map priority := List.mem_map_of_mem h
  obtain ⟨least, hleast⟩ := Option.isSome_iff_exists.mp (List.isSome_max?_of_mem hmem)
  have hleast : leastImportant (items.map priority) = some least := hleast
  rw [hleast, Option.getD_some]
  exact ⟨rfl, le_of_leastImportant hleast hmem⟩

/-- A priority in use stands as many tiers higher above a fixed reference as the least important
one does. -/
theorem tiersAbove_none (h : p ≤ lowest) :
    tiersAbove p top none = (top - lowest).toNat + tiersAbove p top (some lowest) := by
  simp only [tiersAbove, Option.elim_none, Option.elim_some]
  omega

/-- A more important priority stands above as many tiers or more. -/
theorem tiersAbove_anti (h : p ≤ q) (reference : Option Int) :
    tiersAbove q top reference ≤ tiersAbove p top reference := by
  simp only [tiersAbove]
  omega

/-- The least important priority in use stands above no tier. -/
theorem tiersAbove_lowest : tiersAbove lowest top (some lowest) = 0 := by
  simp only [tiersAbove, Option.elim_some]
  omega

variable {top}

/-- Below the reference, distances between tiers add up. -/
theorem tiersAbove_add (hpq : p ≤ q) (htop : q ≤ top) (hlowest : q ≤ lowest) :
    tiersAbove p top (some lowest) = (q - p).toNat + tiersAbove q top (some lowest) := by
  simp only [tiersAbove, Option.elim_some]
  omega

end

/-! ## The shared factor -/

/-- What all multipliers have in common if the least important priority stands above the
reference, as the factor that takes it off. -/
def commonScale (base : Rat) (top lowest : Int) : Rat := (base ^ (top - lowest).toNat)⁻¹

section
variable {base : Rat} {top lowest : Int}

/-- The shared factor is positive, so dividing it out turns nothing around. -/
theorem commonScale_pos (hbase : 0 < base) (top lowest : Int) : 0 < commonScale base top lowest :=
  inv_pos.mpr (pow_pos hbase _)

/-- The multipliers counted from the least important priority are those counted from the
reference, times the shared factor. -/
theorem pow_tiersAbove_of_le (hbase : 0 < base) (top : Int) {p : Int} (h : p ≤ lowest) :
    base ^ tiersAbove p top (some lowest) =
      commonScale base top lowest * base ^ tiersAbove p top none := by
  rw [tiersAbove_none top h, pow_add, commonScale, inv_mul_cancel_left₀ (pow_pos hbase _).ne']

/-- Multipliers of priorities in use, counted from the least important one (`scaled`) and from the
reference alone (`full`). -/
structure KeepsRatios (base : Rat) (top : Int) (priorities : List Int) (lowest : Int)
    (scaled full : Int → Rat) : Prop where
  scaled_eq : ∀ p, priorityScale p base top (some lowest) = .ok (scaled p)
  full_eq : ∀ p, priorityScale p base top none = .ok (full p)
  ratio : ∀ p ∈ priorities, ∀ q ∈ priorities, scaled p / scaled q = full p / full q
  antitone : ∀ p q, p ≤ q → scaled q ≤ scaled p
  one_le : ∀ p, 1 ≤ scaled p
  lowest_eq : scaled lowest = 1
  step : ∀ p, ∀ q ∈ priorities, p < q → q ≤ top → scaled p = base ^ (q - p) * scaled q

/-- The multipliers counted from the least important tier keep the ratios of those counted from the
reference. -/
theorem keepsRatios {priorities : List Int} (hbase : 1 < base) (top : Int)
    (hlowest : leastImportant priorities = some lowest) :
    KeepsRatios base top priorities lowest (fun p => base ^ tiersAbove p top (some lowest))
      fun p => base ^ tiersAbove p top none := by
  have hpos : 0 < base := lt_trans zero_lt_one hbase
  constructor
  case scaled_eq => exact fun p => priorityScale_eq p base top _
  case full_eq => exact fun p => priorityScale_eq p base top _
  case ratio =>
    intro p hp q hq
    rw [pow_tiersAbove_of_le hpos top (le_of_leastImportant hlowest hp),
      pow_tiersAbove_of_le hpos top (le_of_leastImportant hlowest hq),
      mul_div_mul_left _ _ (commonScale_pos hpos top lowest).ne']
  case antitone =>
    intro p q hpq
    exact pow_le_pow_right₀ hbase.le (tiersAbove_anti top hpq _)
  case one_le => exact fun p => one_le_pow₀ hbase.le
  case lowest_eq =>
    rw [tiersAbove_lowest, pow_zero]
  case step =>
    intro p q hq hpq htop
    -- up to the reference and the least important priority no exponent is cut off at zero
    have hdistance : q - p = ((q - p).toNat : Int) := by omega
    rw [tiersAbove_add hpq.le htop (le_of_leastImportant hlowest hq), pow_add, hdistance,
      zpow_natCast, Int.toNat_natCast]

end

/-! ## Coefficients times a factor -/

section
variable (factor : Rat)

/-- Adding to a coefficient and multiplying all of them can be done in either order. -/
theorem map_mul_modify (cells : List Rat) (i : Nat) (amount : Rat) :
    (cells.map (factor * ·)).modify i (· + factor * amount) =
      (cells.modify i (· + amount)).map (factor * ·) := by
  refine List.ext_getElem? fun j => ?_
  rw [List.getElem?_modify, List.getElem?_map, List.getElem?_map, List.getElem?_modify]
  cases cells[j]? with
  | none => rfl
  | some c =>
    by_cases hij : i = j
    · simp [hij, mul_add]
    · simp [hij]

/-- A row of terms times a factor. -/
theorem sparse_map_mul (n : Nat) (terms : List (Nat × Rat)) :
    sparse n (terms.map fun t => (t.1, factor * t.2)) = (sparse n terms).map (factor * ·) := by
  have hblank : List.replicate n (0 : Rat) = (List.replicate n 0).map (factor * ·) := by
    rw [List.map_replicate, mul_zero]
  rw [sparse, List.foldl_map, hblank]
  refine List.foldl_hom (List.map (factor * ·)) fun cells t => ?_
  exact (List.map_set ..).symm

end

/-! ## Fuzzy programs -/

/-- An encoding with all weights times a factor. -/
def Encoding.rescale (factor : Rat) (e : Encoding Rat) : Encoding Rat :=
  { e with blocks := e.blocks.map fun b => { b with weight := factor * b.weight } }

/-- A goal encoded with a multiple of its weight. -/
theorem Encoding.addGoal_rescale (factor : Rat) (e : Encoding Rat) (goalId : String)
    (variableColumn : Nat) (curve : Curve Rat) (weight : Rat) :
    (e.rescale factor).addGoal goalId variableColumn curve (factor * weight) =
      (e.addGoal goalId variableColumn curve weight).rescale factor := by
  rw [rescale, rescale, addGoal, addGoal, List.map_append]
  rfl

/-- The objective of a rescaled encoding has multiples of the coefficients. -/
theorem Encoding.objectiveTerms_rescale (factor : Rat) (e : Encoding Rat) :
    (e.rescale factor).objectiveTerms = e.objectiveTerms.map fun t => (t.1, factor * t.2) := by
  rw [objectiveTerms, objectiveTerms, rescale, List.map_map, List.map_map]
  rfl

namespace FuzzyProgram

variable (p : FuzzyProgram Rat)

/-- Goals with all weights times a factor. -/
def rescale (factor : Rat) (goals : List (FuzzyGoal Rat × Rat)) : List (FuzzyGoal Rat × Rat) :=
  goals.map fun g => (g.1, factor * g.2)

/-- The goals with weights that count tiers from the third one, whatever priorities are in use. -/
def fullyScaledGoals : Except (Fault Rat) (List (FuzzyGoal Rat × Rat)) :=
  p.goals.mapM fun g => do
    let scale ← priorityScale g.priority 100 3 none
    return (g, g.weight * scale)

/-- Goals encoded with multiples of their weights. -/
theorem encode_rescale (factor : Rat) (goals : List (FuzzyGoal Rat × Rat)) :
    p.encode (rescale factor goals) = (p.encode goals).rescale factor := by
  rw [encode, rescale, List.foldl_map]
  -- an encoding without blocks has no weights, so the two runs start from the same one
  have hblank : Encoding.blank p.vars.length p.income =
      (Encoding.blank p.vars.length p.income).rescale factor := rfl
  rw [hblank]
  refine List.foldl_hom (Encoding.rescale factor) ?_
  intro e g
  exact e.addGoal_rescale factor g.1.id g.1.index g.1.curve g.2

/-- Weights times a factor make the whole objective that factor times as large. -/
theorem objective_rescale (factor : Rat) (goals : List (FuzzyGoal Rat × Rat)) :
    p.objective (rescale factor goals) (p.encode (rescale factor goals)) =
      (p.objective goals (p.encode goals)).map (factor * ·) := by
  rw [encode_rescale, objective_eq, objective_eq, Encoding.objectiveTerms_rescale]
  show List.foldl _ (sparse (p.encode goals).width _) (rescale factor goals) = _
  rw [sparse_map_mul, rescale, List.foldl_map]
  refine List.foldl_hom (List.map (factor * ·)) fun cells g => ?_
  have hreward : p.reward (factor * g.2) = factor * p.reward g.2 := by
    rw [reward, reward]
    ring
  rw [hreward]
  exact map_mul_modify factor cells g.1.index (p.reward g.2)

/-- The weights of the goals are one multiple of the fully scaled ones. -/
theorem exists_rescale : ∃ factor full, 0 < factor ∧ p.fullyScaledGoals = .ok full ∧
    p.scaledGoals = .ok (rescale factor full) := by
  let lowest := (leastImportant (p.goals.map (·.priority))).getD 3
  have hpos : (0 : Rat) < 100 := by norm_num
  refine ⟨commonScale 100 3 lowest,
    p.goals.map fun g => (g, g.weight * 100 ^ tiersAbove g.priority 3 none),
    commonScale_pos hpos 3 lowest, mapM_eq_map (fun _ => rfl) p.goals, ?_⟩
  rw [scaledGoals_eq, weighted, rescale, List.map_map]
  refine congrArg Except.ok (List.map_congr_left fun g hg => ?_)
  obtain ⟨hleast, hle⟩ := le_getD_leastImportant (·.priority) hg 3
  have hweight : p.tierWeight g =
      commonScale 100 3 lowest * (g.weight * 100 ^ tiersAbove g.priority 3 none) := by
    rw [tierWeight, hleast, pow_tiersAbove_of_le hpos 3 hle]
    exact mul_left_comm _ _ _
  exact congrArg (Prod.mk g) hweight

end FuzzyProgram

/-! ## Programs with ladders -/

namespace LadderProgram

variable (p : LadderProgram Rat)

/-- Ladders with all multipliers times a factor. -/
def rescale (factor : Rat) (rungs : List (Rungs Rat)) : List (Rungs Rat) :=
  rungs.map fun r => { r with scale := factor * r.scale }

/-- The goals with columns and multipliers that count tiers from the tenth one, whatever priorities
are in use. -/
def fullyScaledRungs : Except (Fault Rat) (List (Rungs Rat)) := do
  let scaled ← p.goals.mapM fun g => do
    return (g, ← priorityScale g.priority 1000 10 none)
  return assignColumns p.vars.length scaled

/-- Columns do not depend on the weights. -/
theorem assignColumns_rescale (factor : Rat) (column : Nat)
    (scaled : List (LadderGoal Rat × Rat)) :
    assignColumns column (scaled.map fun g => (g.1, factor * g.2)) =
      rescale factor (assignColumns column scaled) := by
  induction scaled generalizing column with
  | nil => rfl
  | cons g rest ih =>
    rw [List.map_cons, assignColumns, ih, assignColumns, rescale, rescale, List.map_cons]

/-- Multipliers times a factor make the rewards of the levels that factor times as large; what
spending costs stays as it is. -/
theorem objective_rescale (factor : Rat) (rungs : List (Rungs Rat)) :
    (p.objective (rescale factor rungs)).take p.vars.length =
        (p.objective rungs).take p.vars.length ∧
      (p.objective (rescale factor rungs)).drop p.vars.length =
        ((p.objective rungs).drop p.vars.length).map (factor * ·) := by
  have hfront : (List.replicate p.vars.length (-1e-6 / p.income)).length = p.vars.length :=
    List.length_replicate
  constructor
  · rw [objective, objective, List.take_left' hfront, List.take_left' hfront]
  · rw [objective, objective, List.drop_left' hfront, List.drop_left' hfront, rescale,
      List.flatMap_map, List.map_flatMap]
    refine List.flatMap_congr fun r _ => ?_
    rw [List.map_map]
    refine List.map_congr_left fun l _ => ?_
    exact mul_left_comm _ _ _

/-- The weights of the ladders are one multiple of the fully scaled ones. -/
theorem exists_rescale : ∃ factor full, 0 < factor ∧ p.fullyScaledRungs = .ok full ∧
    p.rungs = .ok (rescale factor full) := by
  let lowest := (leastImportant (p.goals.map (·.priority))).getD 10
  have hpos : (0 : Rat) < 1000 := by norm_num
  let full := p.goals.map fun g => (g, (1000 : Rat) ^ tiersAbove g.priority 10 none)
  refine ⟨commonScale 1000 10 lowest, assignColumns p.vars.length full,
    commonScale_pos hpos 10 lowest,
    bind_eq_ok.mpr ⟨full, mapM_eq_map (fun _ => rfl) p.goals, rfl⟩, ?_⟩
  refine bind_eq_ok.mpr ⟨p.scaled, mapM_eq_map (fun _ => rfl) p.goals, ?_⟩
  rw [← assignColumns_rescale, List.map_map, scaled]
  refine congrArg (fun goals => Except.ok (assignColumns p.vars.length goals))
    (List.map_congr_left fun g hg => ?_)
  have hle := (le_getD_leastImportant (·.priority) hg 10).2
  exact congrArg (Prod.mk g) (pow_tiersAbove_of_le hpos 10 hle)

end LadderProgram

/-! ## Both kinds of programs -/

/-- Whatever the base, the reference and the priorities in use, counting tiers from the least
important one keeps the ratios. So in every fuzzy program all weights, and with them the objective,
are a common multiple of what they are without it, and so are the rewards of the levels in the
objective of every program with ladders. -/
theorem normalized_scale_keeps_ratios :
    (∀ (base : Rat) (top : Int) (priorities : List Int) (lowest : Int), 1 < base →
      leastImportant priorities = some lowest →
      ∃ scaled full, KeepsRatios base top priorities lowest scaled full) ∧
    (∀ p : FuzzyProgram Rat, ∃ factor scaled full, 0 < factor ∧ p.scaledGoals = .ok scaled ∧
      p.fullyScaledGoals = .ok full ∧ scaled = FuzzyProgram.rescale factor full ∧
      p.objective scaled (p.encode scaled) = (p.objective full (p.encode full)).map (factor * ·)) ∧
    ∀ p : LadderProgram Rat, ∃ factor scaled full, 0 < factor ∧ p.rungs = .ok scaled ∧
      p.fullyScaledRungs = .ok full ∧ scaled = LadderProgram.rescale factor full ∧
      (p.objective scaled).take p.vars.length = (p.objective full).take p.vars.length ∧
      (p.objective scaled).drop p.vars.length =
        ((p.objective full).drop p.vars.length).map (factor * ·) := by
  refine ⟨?_, ?_, ?_⟩
  · intro base top priorities lowest hbase hlowest
    exact ⟨_, _, keepsRatios hbase top hlowest⟩
  · intro p
    obtain ⟨factor, full, hpos, hfull, hscaled⟩ := p.exists_rescale
    exact ⟨factor, _, full, hpos, hscaled, hfull, rfl, p.objective_rescale factor full⟩
  · intro p
    obtain ⟨factor, full, hpos, hfull, hscaled⟩ := p.exists_rescale
    exact ⟨factor, _, full, hpos, hscaled, hfull, rfl, p.objective_rescale factor full⟩

/-- Three tiers above a reference that none of them comes near. -/
theorem normalized_scale_keeps_ratios_three :
    (1 : Rat) < 1000 ∧ leastImportant [1, 4, -2] = some 4 ∧
      ∃ scaled full, KeepsRatios 1000 10 [1, 4, -2] 4 scaled full ∧ scaled 1 = 1000 ^ 3 := by
  have hbase : (1 : Rat) < 1000 := by norm_num
  have hlowest : leastImportant [1, 4, -2] = some 4 := by decide
  obtain ⟨scaled, full, hkeeps⟩ :=
    normalized_scale_keeps_ratios.1 1000 10 [1, 4, -2] 4 hbase hlowest
  refine ⟨hbase, hlowest, scaled, full, hkeeps, ?_⟩
  rw [hkeeps.step 1 4 (by simp) (by decide) (by decide), hkeeps.lowest_eq, mul_one]
  norm_num

end GoalBudget
