import BlockScript.Sort.Stretch

/-!
Sorting by partition.

A pivot divides a list into the lesser items and the others, both in their order.  The limit bounds
the number of divisions one inside the other; beyond it the list is sorted by its stretches.
-/

namespace BlockScript.Sort

variable {α : Type} (lt : α → α → Bool)

def median (items : Array α) (a b c : Nat) : Nat :=
  let less (i j : Nat) : Bool :=
    match items[i]?, items[j]? with
    | some x, some y => lt x y
    | _, _ => false
  if less a b = less a c then
    if less b c = less a b then b else c
  else a

def medianOfSections (items : Array α) (a b c width : Nat) : Nat :=
  if 8 ≤ width then
    let part := width / 8
    let inner (start : Nat) : Nat :=
      medianOfSections items start (start + part * 4) (start + part * 7) part
    median lt items (inner a) (inner b) (inner c)
  else median lt items a b c
termination_by width
decreasing_by omega

def pivotPlace (items : Array α) : Nat :=
  let width := items.size / 8
  medianOfSections lt items 0 (width * 4) (width * 7) width

/-- Sorts by partition. `bound` is a pivot that no item is less than; if the new pivot does not
exceed it, or no item is less than the new pivot, the items that the pivot does not precede are
in place. -/
def sortByPivots : Nat → Option α → List α → Option (List α)
  | 0, _, items => if items.length ≤ shortLimit then sortHalves lt items else sortEagerly lt items
  | limit + 1, bound, items =>
    if items.length ≤ shortLimit then sortHalves lt items
    else
      let place := pivotPlace lt items.toArray
      match items.drop place with
      | [] => some items
      | pivot :: after =>
        let before := items.take place
        let (lesserBefore, othersBefore) := before.partition (lt · pivot)
        let (lesserAfter, othersAfter) := after.partition (lt · pivot)
        let lesser := lesserBefore ++ lesserAfter
        if bound.any (!lt · pivot) || lesser.isEmpty then do
          let (greaterBefore, equalBefore) := before.partition (lt pivot ·)
          let (greaterAfter, equalAfter) := after.partition (lt pivot ·)
          let greater ← sortByPivots limit none (greaterBefore ++ greaterAfter)
          return equalBefore ++ pivot :: equalAfter ++ greater
        else do
          let others ← sortByPivots limit (some pivot) (othersBefore ++ pivot :: othersAfter)
          return (← sortByPivots limit bound lesser) ++ others

def sortByPartition (items : List α) : Option (List α) :=
  sortByPivots lt (2 * items.length.log2) none items

end BlockScript.Sort
