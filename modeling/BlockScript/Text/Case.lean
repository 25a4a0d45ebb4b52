import BlockScript.Text.CaseTable

/-!
Upper and lower case of texts.

A character may map to several.  A capital sigma becomes the final form when a cased letter
precedes it and none follows, ignorable characters in between not counting.
-/

namespace BlockScript.Text

def mapCase (runs : List CaseRun) (expansions : List (Nat × List Nat)) (c : Char) : List Char :=
  match runs.findSome? (·.image? c.toNat) with
  | some image => [Char.ofNat image]
  | none => ((expansions.lookup c.toNat).map (·.map Char.ofNat)).getD [c]

def upperChar : Char → List Char := mapCase upperRuns upperExpansions

def lowerChar : Char → List Char := mapCase lowerRuns lowerExpansions

def upper (s : String) : String := String.ofList (s.toList.flatMap upperChar)

def startsCased (cs : List Char) : Bool :=
  match cs.dropWhile (inRanges ignorableRanges) with
  | c :: _ => inRanges casedRanges c
  | [] => false

def lowerFrom (before : List Char) : List Char → List Char
  | [] => []
  | c :: rest =>
    let image :=
      if c = 'Σ' then [if startsCased before && !startsCased rest then 'ς' else 'σ']
      else lowerChar c
    image ++ lowerFrom (c :: before) rest

def lower (s : String) : String := String.ofList (lowerFrom [] s.toList)

end BlockScript.Text
