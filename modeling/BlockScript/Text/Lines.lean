/-!
Texts as lists of lines.

Reading accepts a line feed, or a carriage return and a line feed, after each line; the last line
may go without.  Writing ends every line with a line feed.
-/

namespace BlockScript.Text

def consLine (c : Char) : List (List Char) → List (List Char)
  | [] => [[c]]
  | line :: rest => (c :: line) :: rest

def splitLines : List Char → List (List Char)
  | [] => []
  | '\n' :: rest => [] :: splitLines rest
  | '\r' :: '\n' :: rest => [] :: splitLines rest
  | c :: rest => consLine c (splitLines rest)

def joinLines (lines : List (List Char)) : List Char :=
  lines.flatMap (· ++ ['\n'])

def readLines (content : String) : List String :=
  (splitLines content.toList).map String.ofList

def writeLines (lines : List String) : String :=
  String.ofList (joinLines (lines.map String.toList))

end BlockScript.Text
