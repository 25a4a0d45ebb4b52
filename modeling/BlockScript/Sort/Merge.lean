/-!
Merging two lists.

Of two items of which neither is less, the one of the left list comes first.  Lists can be merged
from one end, or from both ends at once until the ends meet.  If the order contradicts itself, the
two ends may claim the same item; then they do not meet and there is no merge.
-/

namespace BlockScript.Sort

variable {α : Type} (lt : α → α → Bool)

def mergeFront : Nat → List α → List α → List α × List α × List α
  | count + 1, a :: left, b :: right =>
    if lt b a then
      let (front, rest) := mergeFront count (a :: left) right
      (b :: front, rest)
    else
      let (front, rest) := mergeFront count left (b :: right)
      (a :: front, rest)
  | _, left, right => ([], left, right)

/-- Merges two lists of which the right one is as long as the left one or longer by one. Either
end yields as many items as the left list has, and an item that remains goes in the middle. -/
def mergeEnds (left right : List α) : Option (List α) :=
  let (front, leftRest, rightRest) := mergeFront lt left.length left right
  let (back, rightKept, leftKept) :=
    mergeFront (fun a b => lt b a) left.length right.reverse left.reverse
  let leftTaken := left.length - leftKept.length
  let rightTaken := right.length - rightKept.length
  if leftTaken ≤ leftRest.length ∧ rightTaken ≤ rightRest.length then
    let middle := leftRest.take (leftRest.length - leftTaken) ++
      rightRest.take (rightRest.length - rightTaken)
    some (front ++ middle ++ back.reverse)
  else none

def merge (left right : List α) : List α :=
  if left.length ≤ right.length then left.merge right fun a b => !lt b a
  else (right.reverse.merge left.reverse fun b a => !lt b a).reverse

end BlockScript.Sort
