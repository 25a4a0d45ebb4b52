import BlockScript.Sort.Short

/-!
Sorting by merging stretches.

A list is cut into stretches.  One that is in order already, or in strictly descending order, is
kept if it is long enough; what is done with the others is up to the caller, who may sort them at
once or leave them for later, as long as they do not grow too big.  Neighbours are then merged
along a binary tree in which a joint lies the deeper, the closer it is to the joints around it.
-/

namespace BlockScript.Sort

variable {α : Type} (lt : α → α → Bool)

structure Stretch (α : Type) where
  items : List α
  sorted : Bool

def chainLength (linked : α → α → Bool) (count : Nat) (last : α) : List α → Nat
  | [] => count
  | item :: rest => if linked last item then chainLength linked (count + 1) item rest else count

def initialChain : List α → List α
  | items@(a :: b :: rest) =>
    let descends := lt b a
    let chain := items.take (chainLength (fun last item => lt item last == descends) 2 b rest)
    if descends then chain.reverse else chain
  | items => items

def aboutSqrt (n : Nat) : Nat :=
  let power := Nat.pow 2 ((1 + n.log2) / 2)
  (power + n / power) / 2

def worthwhile (length : Nat) : Nat :=
  if length ≤ 4096 then min (length - length / 2) 64 else aboutSqrt length

def unsortedLimit (length : Nat) : Nat := max (length - length / 2) (min length 250000)

/-- Cuts a list into at most `limit` stretches, of which `cut` gives the first one if no chain of
`least` items does. -/
def stretches (least : Nat) (cut : List α → Option (Stretch α)) :
    Nat → List α → Option (List (Stretch α))
  | _, [] => some []
  | 0, items => some [⟨items, false⟩]
  | limit + 1, items => do
    let chain := initialChain lt items
    let first ← if least ≤ chain.length then some ⟨chain, true⟩ else cut items
    return first :: (← stretches least cut limit (items.drop first.items.length))

/-- The depth of the joint between two stretches that meet at `middle` in a list of `total` items:
the number of leading binary digits that the centres of the two have in common. -/
def jointDepth (total left middle right : Nat) : Nat :=
  let scale := (Nat.pow 2 62 + total - 1) / total
  63 - Nat.log2 ((scale * (left + middle)) ^^^ (scale * (middle + right)))

def Stretch.finish (sort : List α → Option (List α)) (stretch : Stretch α) : Option (List α) :=
  if stretch.sorted then some stretch.items else sort stretch.items

/-- Merges neighbours. Two that are not sorted are left so while they have no more than `most`
items together. -/
def join (sort : List α → Option (List α)) (most : Nat) (left right : Stretch α) :
    Option (Stretch α) :=
  if left.sorted || right.sorted || most < left.items.length + right.items.length then do
    return ⟨merge lt (← left.finish sort) (← right.finish sort), true⟩
  else some ⟨left.items ++ right.items, false⟩

/-- Joins a stretch with those before it whose joints are at least as deep as the next one. The
pending ones come with the depth of the joint behind them, the latest first. -/
def joinDeeper (join : Stretch α → Stretch α → Option (Stretch α)) (depth : Nat) :
    List (Stretch α × Nat) → Stretch α → Option (List (Stretch α × Nat) × Stretch α)
  | [], stretch => some ([], stretch)
  | (left, leftDepth) :: pending, stretch =>
    if depth ≤ leftDepth then do joinDeeper join depth pending (← join left stretch)
    else some ((left, leftDepth) :: pending, stretch)

def joinAll (join : Stretch α → Stretch α → Option (Stretch α)) (total : Nat) :
    Nat → List (Stretch α × Nat) → Stretch α → List (Stretch α) → Option (Stretch α)
  | _, pending, stretch, [] => do return (← joinDeeper join 0 pending stretch).2
  | place, pending, stretch, next :: rest => do
    let length := next.items.length
    let depth := jointDepth total (place - stretch.items.length) place (place + length)
    let (pending, stretch) ← joinDeeper join depth pending stretch
    joinAll join total (place + length) ((stretch, depth) :: pending) next rest

/-- Sorts a list by its stretches: `cut` makes those that are not in order, and `sort` sorts the
ones that are left. -/
def sortStretches (cut : List α → Option (Stretch α)) (sort : List α → Option (List α))
    (items : List α) : Option (List α) := do
  let total := items.length
  match ← stretches lt (worthwhile total) cut total items with
  | [] => return []
  | first :: rest =>
    let join := join lt sort (unsortedLimit total)
    (← joinAll join total first.items.length [] first rest).finish sort

def shortLimit : Nat := 32

def sortEagerly (items : List α) : Option (List α) :=
  sortStretches lt (fun rest => do return ⟨← sortHalves lt (rest.take shortLimit), true⟩) some items

end BlockScript.Sort
