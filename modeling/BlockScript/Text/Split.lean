/-!
Searching a text and cutting it at a separator.
-/

namespace BlockScript.Text

def occursIn (part : List Char) : List Char → Bool
  | [] => part.isEmpty
  | c :: rest => part.isPrefixOf (c :: rest) || occursIn part rest

def consPiece (c : Char) : List (List Char) → List (List Char)
  | [] => [[c]]
  | piece :: rest => (c :: piece) :: rest

/-- The pieces between the leftmost occurrences, none overlapping, of the separator
`first :: more`. -/
def cutAt (first : Char) (more : List Char) : List Char → List (List Char)
  | [] => [[]]
  | c :: rest =>
    if (first :: more).isPrefixOf (c :: rest) then [] :: cutAt first more (rest.drop more.length)
    else consPiece c (cutAt first more rest)
termination_by cs => cs.length
decreasing_by all_goals simp; try omega

def dropTrailingEmpty (pieces : List (List Char)) : List (List Char) :=
  (pieces.reverse.dropWhile List.isEmpty).reverse

/-- The pieces of a text between separators, without the empty ones at the end; an empty separator
cuts the text into its characters. -/
def splitPieces (cs : List Char) : List Char → List (List Char)
  | [] => cs.map ([·])
  | first :: more => dropTrailingEmpty (cutAt first more cs)

def split (s separator : String) : List String :=
  (splitPieces s.toList separator.toList).map String.ofList

end BlockScript.Text
