import BlockScript.Sort.Partition

/-!
Stable sorting.

Short lists are sorted by insertion, longer ones by their stretches.  For an order in which "neither
is less" is an equivalence, the outcome is the one sorted list in which equivalent items keep their
order.  For other orders it depends on the comparisons made, and there may be none.
-/

namespace BlockScript.Sort

variable {α : Type} (lt : α → α → Bool)

def insertionLimit : Nat := 20

def eagerLimit : Nat := 64

def stable (items : List α) : Option (List α) :=
  if items.length ≤ insertionLimit then some (insertAll lt [] items)
  else if items.length ≤ eagerLimit then sortEagerly lt items
  else
    let least := worthwhile items.length
    sortStretches lt (fun rest => some ⟨rest.take least, false⟩) (sortByPartition lt) items

end BlockScript.Sort
