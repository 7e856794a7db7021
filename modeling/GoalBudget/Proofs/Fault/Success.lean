import Mathlib.Data.List.Forall2
import Mathlib.Logic.Basic

/-!
# Computations that succeed

A computation that may fail is taken apart along its steps: when it gives a result, so does every
step. `bind_eq_ok` says so for two steps, `mapM_eq_ok` for one step per item and `foldlM_invariant`
for steps that change a state. Conversely it gives a result when every step does:
`exists_mapM_forall₂`, `exists_foldlM`.

Where it fails, some step is the first to fail, and the fault is that step's: `bind_eq_error`,
`mapM_eq_error`. A statement about which fault comes out is a statement about which check comes
first.

`DecidedBy` is for computations in which a check comes somewhere among steps that do not fail. It
says in one word what most results about success and failure come to: the computation has a result
if the check passes, and the fault of the check otherwise.
-/

namespace GoalBudget

universe u v w

variable {ε : Type u} {σ : Type v} {τ ρ : Type w}

/-- Two steps give a result if the first does, and the second with what the first gave. -/
theorem bind_eq_ok {x : Except ε τ} {f : τ → Except ε ρ} {r : ρ} :
    x >>= f = .ok r ↔ ∃ a, x = .ok a ∧ f a = .ok r := by
  cases x with
  | error e =>
    constructor
    · intro h
      cases h
    · rintro ⟨a, h, _⟩
      cases h
  | ok a =>
    constructor
    · intro h
      exact ⟨a, rfl, h⟩
    · rintro ⟨_, h, hr⟩
      cases h
      exact hr

/-- A fault of two steps is one of the first, or one of the second if the first succeeds. -/
theorem bind_eq_error {x : Except ε τ} {f : τ → Except ε ρ} {e : ε} :
    x >>= f = .error e ↔ x = .error e ∨ ∃ a, x = .ok a ∧ f a = .error e := by
  cases x with
  | error e' =>
    constructor
    · intro h
      cases h
      exact .inl rfl
    · rintro (h | ⟨_, h, _⟩)
      · cases h
        rfl
      · cases h
  | ok a =>
    constructor
    · intro h
      exact .inr ⟨a, rfl, h⟩
    · rintro (h | ⟨_, h, hf⟩)
      · cases h
      · cases h
        exact hf

/-- A computation without steps gives what it is told to. -/
theorem pure_eq_ok {a r : τ} : (pure a : Except ε τ) = .ok r ↔ a = r := by
  constructor
  · intro h
    cases h
    rfl
  · rintro rfl
    rfl

/-- After a step that succeeds comes what it leads to. -/
theorem bind_of_eq_ok {x : Except ε τ} {f : τ → Except ε ρ} {a : τ} (hx : x = .ok a) :
    x >>= f = f a := by
  rw [hx]
  rfl

/-- After a step that fails comes nothing. -/
theorem bind_of_eq_error {x : Except ε τ} {f : τ → Except ε ρ} {e : ε} (hx : x = .error e) :
    x >>= f = .error e := by
  rw [hx]
  rfl

/-- A computation that is known to succeed has a result. -/
theorem exists_of_isOk {x : Except ε τ} (h : x.isOk = true) : ∃ r, x = .ok r := by
  cases x with
  | error e => cases h
  | ok r => exact ⟨r, rfl⟩

/-- What is read of the result of a computation, if there is one. -/
theorem exists_of_toOption_map {x : Except ε τ} {f : τ → ρ} {y : ρ}
    (h : x.toOption.map f = some y) : ∃ r, x = .ok r ∧ f r = y := by
  cases x with
  | error e => cases h
  | ok r => exact ⟨r, rfl, Option.some.inj h⟩

/-- A step that succeeds, before something that does. -/
theorem exists_bind {x : Except ε τ} {f : τ → Except ε ρ} {a : τ} (hx : x = .ok a)
    (h : ∃ r, f a = .ok r) : ∃ r, x >>= f = .ok r := by
  rw [hx]
  exact h

/-- Two steps that always succeed. -/
theorem exists_bind_of_forall {x : Except ε τ} {f : τ → Except ε ρ} (hx : ∃ a, x = .ok a)
    (hf : ∀ a, ∃ r, f a = .ok r) : ∃ r, x >>= f = .ok r := by
  obtain ⟨a, ha⟩ := hx
  exact exists_bind ha (hf a)

/-- Where all items are dealt with, each of them gave the result in its place. -/
theorem mapM_eq_ok {f : σ → Except ε τ} {items : List σ} {results : List τ}
    (h : items.mapM f = .ok results) :
    List.Forall₂ (fun item result => f item = .ok result) items results := by
  induction items generalizing results with
  | nil =>
    rw [List.mapM_nil, pure_eq_ok] at h
    rw [← h]
    exact .nil
  | cons item rest ih =>
    rw [List.mapM_cons] at h
    obtain ⟨first, hfirst, h⟩ := bind_eq_ok.mp h
    obtain ⟨others, hothers, h⟩ := bind_eq_ok.mp h
    rw [← pure_eq_ok.mp h]
    exact .cons hfirst (ih hothers)

/-- Where every item has a result of some kind, all have. -/
theorem exists_mapM_forall₂ {f : σ → Except ε τ} {items : List σ} {P : σ → τ → Prop}
    (h : ∀ item ∈ items, ∃ result, f item = .ok result ∧ P item result) :
    ∃ results, items.mapM f = .ok results ∧ List.Forall₂ P items results := by
  induction items with
  | nil => exact ⟨[], rfl, .nil⟩
  | cons item rest ih =>
    obtain ⟨first, hfirst, hkind⟩ := h item (List.mem_cons_self ..)
    obtain ⟨others, hothers, hkinds⟩ := ih fun item' hmem => h item' (List.mem_cons_of_mem _ hmem)
    refine ⟨first :: others, ?_, .cons hkind hkinds⟩
    rw [List.mapM_cons, hfirst, hothers]
    rfl

/-- Where every item can be dealt with, all of them can. -/
theorem exists_mapM_eq_ok {f : σ → Except ε τ} {items : List σ}
    (h : ∀ item ∈ items, ∃ result, f item = .ok result) :
    ∃ results, items.mapM f = .ok results := by
  obtain ⟨results, hresults, _⟩ := exists_mapM_forall₂ (P := fun _ _ => True)
    fun item hmem => (h item hmem).imp fun _ hresult => ⟨hresult, trivial⟩
  exact ⟨results, hresults⟩

/-- Every result comes from an item. -/
theorem exists_of_mem_mapM {f : σ → Except ε τ} {items : List σ} {results : List τ} {result : τ}
    (h : items.mapM f = .ok results) (hmem : result ∈ results) :
    ∃ item ∈ items, f item = .ok result := by
  have hall := mapM_eq_ok h
  clear h
  induction hall with
  | nil => cases hmem
  | cons hhead _ ih =>
    rcases List.mem_cons.mp hmem with rfl | hrest
    · exact ⟨_, List.mem_cons_self .., hhead⟩
    · obtain ⟨item, hitem, hresult⟩ := ih hrest
      exact ⟨item, List.mem_cons_of_mem _ hitem, hresult⟩

/-- What every step leaves as it is in an item is the same in all results. -/
theorem map_eq_of_mapM_eq_ok {κ : Type*} {f : σ → Except ε τ} {items : List σ} {results : List τ}
    {before : σ → κ} {after : τ → κ} (h : items.mapM f = .ok results)
    (hstep : ∀ item result, f item = .ok result → after result = before item) :
    results.map after = items.map before := by
  have hall := mapM_eq_ok h
  clear h
  induction hall with
  | nil => rfl
  | cons hhead _ ih => rw [List.map_cons, List.map_cons, ih, hstep _ _ hhead]

/-- Where the result of every item is known, so are all. -/
theorem mapM_eq_map_of_mem {f : σ → Except ε τ} {g : σ → τ} {items : List σ}
    (h : ∀ item ∈ items, f item = .ok (g item)) : items.mapM f = .ok (items.map g) := by
  induction items with
  | nil => rfl
  | cons item rest ih =>
    obtain ⟨hitem, hrest⟩ := List.forall_mem_cons.mp h
    rw [List.mapM_cons, hitem, ih hrest]
    rfl

/-- A step that never fails, for every item. -/
theorem mapM_eq_map {f : σ → Except ε τ} {g : σ → τ} (h : ∀ item, f item = .ok (g item))
    (items : List σ) : items.mapM f = .ok (items.map g) :=
  mapM_eq_map_of_mem fun item _ => h item

/-- Where the items of a kind, and they alone, have a fault, all have the fault of such an item if
there is one: the first. -/
theorem mapM_eq_error {f : σ → Except ε τ} {items : List σ} {P : σ → Prop} {fault : σ → ε}
    (hbad : ∀ item ∈ items, P item → f item = .error (fault item))
    (hfine : ∀ item ∈ items, ¬P item → ∃ result, f item = .ok result)
    (h : ∃ item ∈ items, P item) :
    ∃ item ∈ items, P item ∧ items.mapM f = .error (fault item) := by
  induction items with
  | nil =>
    obtain ⟨item, hmem, _⟩ := h
    cases hmem
  | cons item rest ih =>
    rw [List.mapM_cons]
    by_cases hitem : P item
    · refine ⟨item, List.mem_cons_self .., hitem, ?_⟩
      exact bind_of_eq_error (hbad item (List.mem_cons_self ..) hitem)
    -- The head is fine, so the first fault is one of the rest.
    · obtain ⟨first, hfirst⟩ := hfine item (List.mem_cons_self ..) hitem
      have hrest : ∃ item' ∈ rest, P item' := by
        obtain ⟨item', hmem, hitem'⟩ := h
        rcases List.mem_cons.mp hmem with rfl | hmem
        · exact absurd hitem' hitem
        · exact ⟨item', hmem, hitem'⟩
      obtain ⟨item', hmem, hitem', hfault⟩ :=
        ih (fun item' hmem => hbad item' (List.mem_cons_of_mem _ hmem))
          (fun item' hmem => hfine item' (List.mem_cons_of_mem _ hmem)) hrest
      refine ⟨item', List.mem_cons_of_mem _ hmem, hitem', ?_⟩
      rw [bind_of_eq_ok hfirst]
      exact bind_of_eq_error hfault

/-- A fault of all items is the fault of one of them. -/
theorem exists_of_mapM_eq_error {f : σ → Except ε τ} {items : List σ} {e : ε}
    (h : items.mapM f = .error e) : ∃ item ∈ items, f item = .error e := by
  induction items with
  | nil => cases h
  | cons item rest ih =>
    rw [List.mapM_cons] at h
    rcases bind_eq_error.mp h with hitem | ⟨_, _, h⟩
    · exact ⟨item, List.mem_cons_self .., hitem⟩
    · rcases bind_eq_error.mp h with hrest | ⟨_, _, h⟩
      · obtain ⟨item', hmem, hitem'⟩ := ih hrest
        exact ⟨item', List.mem_cons_of_mem _ hmem, hitem'⟩
      · cases h

/-- What every step keeps, a run keeps. -/
theorem foldlM_invariant {f : τ → σ → Except ε τ} {items : List σ} {start result : τ}
    (P : τ → Prop) (hstep : ∀ item ∈ items, ∀ a a', P a → f a item = .ok a' → P a')
    (hstart : P start) (h : items.foldlM f start = .ok result) : P result := by
  induction items generalizing start with
  | nil =>
    rw [List.foldlM_nil, pure_eq_ok] at h
    exact h ▸ hstart
  | cons item rest ih =>
    rw [List.foldlM_cons] at h
    obtain ⟨next, hnext, h⟩ := bind_eq_ok.mp h
    exact ih (fun item' hmem => hstep item' (List.mem_cons_of_mem _ hmem))
      (hstep item (List.mem_cons_self ..) start next hstart hnext) h

/-- Where every step puts what it adds behind what there is, a run does. -/
theorem foldlM_append {κ : Type*} {f : τ → σ → Except ε τ} {added : σ → List κ} {items : List σ}
    {start result : τ} {before : List κ} (P : τ → List κ → Prop)
    (hstep : ∀ a ks item a', P a ks → f a item = .ok a' → P a' (ks ++ added item))
    (hstart : P start before) (h : items.foldlM f start = .ok result) :
    P result (before ++ items.flatMap added) := by
  induction items generalizing start before with
  | nil =>
    rw [List.foldlM_nil, pure_eq_ok] at h
    rwa [List.flatMap_nil, List.append_nil, ← h]
  | cons item rest ih =>
    rw [List.foldlM_cons] at h
    obtain ⟨next, hnext, h⟩ := bind_eq_ok.mp h
    rw [List.flatMap_cons, ← List.append_assoc]
    exact ih (hstep start before item next hstart hnext) h

/-- Steps that succeed one after the other as long as something holds that they keep. -/
theorem exists_foldlM {f : τ → σ → Except ε τ} {items : List σ} {start : τ} (P : τ → Prop)
    (hstep : ∀ item ∈ items, ∀ a, P a → ∃ a', f a item = .ok a' ∧ P a') (hstart : P start) :
    ∃ result, items.foldlM f start = .ok result ∧ P result := by
  induction items generalizing start with
  | nil => exact ⟨start, rfl, hstart⟩
  | cons item rest ih =>
    obtain ⟨next, hnext, hnextP⟩ := hstep item (List.mem_cons_self ..) start hstart
    obtain ⟨result, hresult, hresultP⟩ :=
      ih (fun item' hmem => hstep item' (List.mem_cons_of_mem _ hmem)) hnextP
    refine ⟨result, ?_, hresultP⟩
    rw [List.foldlM_cons, hnext]
    exact hresult

/-- Steps that always succeed succeed one after the other. -/
theorem exists_foldlM_of_forall {f : τ → σ → Except ε τ} (h : ∀ a item, ∃ a', f a item = .ok a')
    (items : List σ) (start : τ) : ∃ result, items.foldlM f start = .ok result := by
  obtain ⟨result, hresult, _⟩ := exists_foldlM (fun _ => True)
    (fun item _ a _ => (h a item).imp fun _ ha => ⟨ha, trivial⟩) (trivial : True)
  exact ⟨result, hresult⟩

/-! ## Computations that a check decides -/

/-- A computation that has a result if a check passes, and else fails with the fault of the
check. -/
structure DecidedBy (check : Except ε Unit) (x : Except ε τ) : Prop where
  /-- Where the check passes, there is a result. -/
  result : check = .ok () → ∃ r, x = .ok r
  /-- There are no other faults than those of the check. -/
  fault : ∀ e, check = .error e → x = .error e

namespace DecidedBy

variable {check : Except ε Unit} {x : Except ε τ}

/-- What comes before a computation and does not fail decides nothing. -/
theorem after {a : τ} {f : τ → Except ε ρ} (hx : x = .ok a) (h : DecidedBy check (f a)) :
    DecidedBy check (x >>= f) := by
  rw [hx]
  exact h

/-- What comes after a computation and does not fail decides nothing. -/
theorem before {f : τ → Except ε ρ} (h : DecidedBy check x)
    (hf : ∀ a, x = .ok a → ∃ r, f a = .ok r) : DecidedBy check (x >>= f) := by
  constructor
  · intro hcheck
    obtain ⟨a, ha⟩ := h.result hcheck
    obtain ⟨r, hr⟩ := hf a ha
    exact ⟨r, bind_eq_ok.mpr ⟨a, ha, hr⟩⟩
  · intro e hcheck
    rw [h.fault e hcheck]
    rfl

/-- A computation that starts with the check and does not fail after it. -/
theorem of_check {κ : Type} {y : Except ε κ} (hy : check = .ok () → ∃ r, y = .ok r) :
    DecidedBy check (check >>= fun _ => y) := by
  constructor
  · intro hcheck
    obtain ⟨r, hr⟩ := hy hcheck
    exact ⟨r, bind_eq_ok.mpr ⟨(), hcheck, hr⟩⟩
  · intro e hcheck
    rw [hcheck]
    rfl

end DecidedBy

end GoalBudget
