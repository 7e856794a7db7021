import GoalBudget.Number.Scalar

/-!
# Sorting by a key

Items are sorted by an amount, and those with equal amounts keep their order. Section 9 of the
specification asks for a sort by key before any iteration that affects what is allocated.

An undefined amount is neither smaller nor larger than any other, so no order of items with such
keys is right, and what comes out depends on which of them are compared. `insertionSort` fixes the
comparisons: the run at the front that is already in order stays, a falling one is turned around,
and every other item is put in by halving. As long as all keys are defined, the comparisons do not
matter, and the items are merge sorted. Descending order is not ascending order read backwards,
because ties keep their order in both.

`insertionSort_perm` and `byDescending_perm`: nothing is lost and nothing is added.
-/

namespace GoalBudget

section
variable {τ : Type} (before : τ → τ → Bool)

/-- An item put in by halving: to the left of the middle item if it comes before that, and
to the right of it otherwise. -/
def insertByHalving (x : τ) (items : List τ) : List τ :=
  match _h : items.drop (items.length / 2) with
  | [] => [x]
  | middle :: right =>
    let left := items.take (items.length / 2)
    if before x middle then insertByHalving x left ++ middle :: right
    else left ++ middle :: insertByHalving x right
  termination_by items.length
  decreasing_by
    all_goals
      have len := congrArg List.length _h
      rw [List.length_drop, List.length_cons] at len
    · exact Nat.lt_of_le_of_lt (List.length_take_le _ _) (by omega)
    · omega

/-- The longest run at the front in which all neighbours agree, and the items behind it. -/
def frontRun (agree : τ → τ → Bool) : τ → List τ → List τ × List τ
  | x, [] => ([x], [])
  | x, y :: rest =>
    if agree x y then
      let (run, behind) := frontRun agree y rest
      (x :: run, behind)
    else ([x], y :: rest)

/-- Items sorted by insertion. The run at the front is strictly falling if its second item
comes before its first, and otherwise no item of it comes before the one ahead. -/
def insertionSort : List τ → List τ
  | [] => []
  | [x] => [x]
  | x :: y :: rest =>
    let falls := before y x
    let (run, behind) := frontRun (fun a b => before b a == falls) x (y :: rest)
    behind.foldl (fun sorted z => insertByHalving before z sorted)
      (if falls then run.reverse else run)

theorem insertByHalving_perm (x : τ) (items : List τ) :
    (insertByHalving before x items).Perm (x :: items) := by
  fun_induction insertByHalving before x items with
  | case1 items h =>
    have : items = [] := by
      have := congrArg List.length h
      simp only [List.length_drop, List.length_nil] at this
      exact List.eq_nil_of_length_eq_zero (by omega)
    rw [this]
  | case2 items middle right h left _ ih =>
    have whole : left ++ middle :: right = items := h ▸ List.take_append_drop _ items
    exact (ih.append_right _).trans (List.Perm.of_eq (by rw [List.cons_append, whole]))
  | case3 items middle right h left _ ih =>
    have whole : left ++ middle :: right = items := h ▸ List.take_append_drop _ items
    rw [← whole]
    exact ((ih.cons middle).append_left left).trans
      (((List.Perm.swap x middle right).append_left left).trans List.perm_middle)

/-- The run at the front and the items behind it are all items. -/
theorem frontRun_append (agree : τ → τ → Bool) (x : τ) (items : List τ) :
    (frontRun agree x items).1 ++ (frontRun agree x items).2 = x :: items := by
  induction items generalizing x with
  | nil => rfl
  | cons y rest ih =>
    rw [frontRun]
    split
    · exact congrArg (x :: ·) (ih y)
    · rfl

/-- Items put in one after the other, wherever each of them goes. -/
theorem foldl_insertByHalving_perm (items sorted : List τ) :
    (items.foldl (fun sorted z => insertByHalving before z sorted) sorted).Perm
      (sorted ++ items) := by
  induction items generalizing sorted with
  | nil => rw [List.append_nil, List.foldl_nil]
  | cons z rest ih =>
    exact (ih _).trans
      (((insertByHalving_perm before z sorted).append_right rest).trans List.perm_middle.symm)

/-- Sorting by insertion rearranges the items, whatever the comparisons say. -/
theorem insertionSort_perm (items : List τ) : (insertionSort before items).Perm items := by
  match items with
  | [] => rfl
  | [_] => rfl
  | x :: y :: rest =>
    rw [insertionSort]
    refine (foldl_insertByHalving_perm before _ _).trans ?_
    conv => rhs; rw [← frontRun_append (fun a b => before b a == before y x) x (y :: rest)]
    refine List.Perm.append_right _ ?_
    split
    · exact List.reverse_perm _
    · rfl

end

section
variable {τ α : Type} [Scalar α] (key : τ → α)

/-- Items by ascending key; equal keys keep their order. -/
def byAscending (items : List τ) : List τ :=
  if items.any fun x => isUndefined (key x) then insertionSort (fun a b => key a < key b) items
  else items.mergeSort fun a b => !(key b < key a)

/-- Items by descending key; equal keys keep their order. With undefined keys it is the
ascending order of the items from the last to the first, read backwards. -/
def byDescending (items : List τ) : List τ :=
  if items.any fun x => isUndefined (key x) then
    (insertionSort (fun a b => key a < key b) items.reverse).reverse
  else items.mergeSort fun a b => !(key a < key b)

/-- Sorting loses nothing and adds nothing, whichever way it compares. -/
theorem byDescending_perm (items : List τ) : (byDescending key items).Perm items := by
  rw [byDescending]
  split
  · exact (List.reverse_perm _).trans
      ((insertionSort_perm _ _).trans (List.reverse_perm items))
  · exact List.mergeSort_perm items _

end

end GoalBudget
