import BlockScript.Sort.Merge

/-!
Sorting short lists.

`insertAll` inserts one item after another.  `sortHalves` sorts the two halves of a list, each by
insertion, and merges them from both ends.
-/

namespace BlockScript.Sort

variable {α : Type} (lt : α → α → Bool)

/-- Inserts an item into a list with the greatest items in front, just before the first one that
is not greater than it. -/
def insertDescending (item : α) : List α → List α
  | [] => [item]
  | other :: rest =>
    if lt item other then other :: insertDescending item rest else item :: other :: rest

def insertAll (sorted items : List α) : List α :=
  (items.foldl (fun found item => insertDescending lt item found) sorted.reverse).reverse

def sortFour (p q r s : α) : List α :=
  let (a, b) := if lt q p then (q, p) else (p, q)
  let (c, d) := if lt s r then (s, r) else (r, s)
  let (least, x, y, greatest) :=
    match lt c a, lt d b with
    | false, false => (a, b, c, d)
    | false, true => (a, c, d, b)
    | true, false => (c, a, b, d)
    | true, true => (c, a, d, b)
  if lt y x then [least, y, x, greatest] else [least, x, y, greatest]

def sortFromFour : List α → List α
  | p :: q :: r :: s :: rest => insertAll lt (sortFour lt p q r s) rest
  | items => insertAll lt [] items

def sortHalves (items : List α) : Option (List α) :=
  let sortHalf := if items.length < 8 then insertAll lt [] else sortFromFour lt
  let half := items.length / 2
  mergeEnds lt (sortHalf (items.take half)) (sortHalf (items.drop half))

end BlockScript.Sort
