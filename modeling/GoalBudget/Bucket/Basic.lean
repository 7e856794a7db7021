import GoalBudget.Ladder.Basic

/-!
# Buckets

A bucket is a share of the surplus with items that compete for it, each with a ladder of levels. In
order of priority, and by id within a priority, every item takes the highest level that the money
pays for, or a part of its lowest level if at least half of that is there. Then upgrades to next
levels are bought, the best reward per cost first, at most 500 of them. This is the third phase of
the hybrid strategy in section 4.4 of the specification.

An item keeps what it got, the level it attained and the reward for it (`BucketItem.raiseTo`). A
part of the lowest level is an attainment of its own and pays no reward; it takes all that is left,
so no item behind it gets anything (`BucketItem.fund`).

Levels are taken in the order in which they are given, the lowest first; they are not sorted here.
The next level of an item is the one after the level attained, and the lowest one for an item with a
part of it.
-/

namespace GoalBudget

/-- How far an item was funded. -/
inductive Attainment where
  | unfunded
  /-- With part of its lowest level. -/
  | partly
  /-- Up to the level at a position. -/
  | level (index : Nat)
  deriving DecidableEq, Repr

/-- An item that competes for a bucket. -/
structure BucketItem (α : Type) where
  id : String
  name : String
  kind : ItemKind
  /-- Smaller is more important. -/
  priority : Int
  /-- A weight, for information. -/
  weight : α
  /-- The levels, the lowest first. -/
  levels : List (Level α)
  /-- The amount given to it. -/
  allocated : α
  /-- How far it was funded. -/
  attained : Attainment
  reward : α

/-- The purposes of the surplus. -/
inductive Purpose where
  | emergency | debtExtra | goals | flexible
  deriving DecidableEq, Repr

/-- The name of a purpose. -/
def Purpose.name : Purpose → String
  | emergency => "emergency"
  | debtExtra => "debt_extra"
  | goals => "goals"
  | flexible => "flexible"

/-- A share of the surplus with the items it funds. -/
structure Bucket (α : Type) where
  /-- What the share is for. -/
  purpose : Purpose
  percent : α
  budget : α
  allocated : α
  remaining : α
  items : List (BucketItem α)

namespace BucketItem

variable {α : Type} [Scalar α]

/-- An item that has nothing yet. -/
def fresh (id name : String) (kind : ItemKind) (priority : Int) (weight : α)
    (levels : List (Level α)) : BucketItem α :=
  ⟨id, name, kind, priority, weight, levels, 0, .unfunded, 0⟩

/-- The name of what an item attained. -/
def label (item : BucketItem α) : String :=
  match item.attained with
  | .unfunded => noLevelName
  | .partly => "partial"
  | .level i => (item.levels[i]?).elim noLevelName (·.label)

/-- The position of the level after the one attained. -/
def nextIndex (item : BucketItem α) : Nat :=
  match item.attained with
  | .level i => i + 1
  | _ => 0

/-- The reward of the highest level. -/
def topReward (item : BucketItem α) : α := (item.levels.getLast?.map (·.reward)).getD 0

/-- An item raised to a level. -/
def raiseTo (item : BucketItem α) (index : Nat) (l : Level α) : BucketItem α :=
  { item with allocated := l.value, attained := .level index, reward := l.reward }

/-- The highest level that an amount pays for. -/
def affordable? (item : BucketItem α) (money : α) : Option (Level α × Nat) :=
  item.levels.zipIdx.reverse.find? fun l => l.1.value ≤ money

/-- An item funded from what is left: its highest affordable level, else all that is left if
that is at least half of its lowest level, else nothing. Also what is left then. -/
def fund (item : BucketItem α) (money : α) : BucketItem α × α :=
  match item.affordable? money with
  | some (l, i) => (item.raiseTo i l, money - l.value)
  | none =>
    let lowest := (item.levels.head?.map (·.value)).getD 0
    if 0 < money && 0.5 * lowest ≤ money then
      ({ item with allocated := money, attained := .partly }, 0)
    else (item, money)

end BucketItem

namespace Bucket

variable {α : Type} [Scalar α]

/-- Whether an item comes before another: by priority, then by id. -/
def comesFirst (a b : BucketItem α) : Bool :=
  a.priority < b.priority || (a.priority == b.priority && a.id ≤ b.id)

/-- Items funded in turn, with what is left then. -/
def fundAll (money : α) : List (BucketItem α) → List (BucketItem α) × α
  | [] => ([], money)
  | item :: rest =>
    let (funded, money) := item.fund money
    let (others, money) := fundAll money rest
    (funded :: others, money)

/-- A step of an item to its next level. -/
structure Upgrade (α : Type) where
  place : Nat
  index : Nat
  level : Level α
  /-- What it costs. -/
  cost : α
  /-- The reward gained per cost. -/
  ratio : α

/-- The better one of the best upgrade so far and that of the next item, if that one is
affordable and rewarding. -/
def consider (money : α) (best : Option (Upgrade α)) (entry : BucketItem α × Nat) :
    Option (Upgrade α) :=
  let item := entry.1
  match item.levels[item.nextIndex]? with
  | none => best
  | some next =>
    let cost := next.value - item.allocated
    let gain := next.reward - item.reward
    let bar := best.elim 0 (·.ratio)
    if 0 < cost && cost ≤ money && 0 < gain && bar < gain / cost then
      some ⟨entry.2, item.nextIndex, next, cost, gain / cost⟩
    else best

/-- Upgrades bought until none is worth it, at most so many. -/
def upgrade : Nat → List (BucketItem α) × α → List (BucketItem α) × α
  | 0, state => state
  | rounds + 1, (items, money) =>
    match items.zipIdx.foldl (consider money) none with
    | none => (items, money)
    | some u =>
      upgrade rounds (items.modify u.place fun item => item.raiseTo u.index u.level, money - u.cost)

/-- A bucket spent on its items. -/
def spend (b : Bucket α) : Bucket α :=
  let funded := fundAll b.budget (b.items.mergeSort comesFirst)
  let (items, money) := upgrade 500 funded
  { b with items, remaining := money, allocated := b.budget - money }

end Bucket

end GoalBudget
