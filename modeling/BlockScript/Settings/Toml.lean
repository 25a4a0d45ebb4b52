import BlockScript.Json.Parser

/-!
The part of TOML that settings are written in: one key and one string or boolean per line.

Tables, dotted keys and values of other kinds are refused.
-/

namespace BlockScript.Toml

inductive Scalar where
  | string (s : String)
  | boolean (b : Bool)
deriving DecidableEq, Repr

abbrev Reader (α : Type) := List Char → Option (α × List Char)

def isBlank (c : Char) : Bool := c = ' ' || c = '\t'

def skipBlank (cs : List Char) : List Char := cs.dropWhile isBlank

def isPlain (c : Char) : Bool := c = '\t' || (0x20 ≤ c.toNat && c.toNat ≠ 0x7f)

def endLine? : List Char → Option (List Char)
  | [] => some []
  | '\n' :: rest => some rest
  | '\r' :: '\n' :: rest => some rest
  | _ => none

def dropBreak (cs : List Char) : List Char :=
  match cs with
  | '\n' :: rest => rest
  | '\r' :: '\n' :: rest => rest
  | _ => cs

def closeLine? (cs : List Char) : Option (List Char) :=
  match skipBlank cs with
  | '#' :: rest => endLine? (rest.dropWhile isPlain)
  | rest => endLine? rest

/-! ## Strings -/

def scalarChar? (n : Nat) : Option Char := if n.isValidChar then some (Char.ofNat n) else none

def hexNumber? (digits : List Char) : Option Nat :=
  digits.foldlM (fun n c => (Json.hexValue? c).map (16 * n + ·)) 0

def readHex (count : Nat) (cs : List Char) : Option (Char × List Char) :=
  if cs.length < count then none
  else ((hexNumber? (cs.take count)).bind scalarChar?).map (·, cs.drop count)

def readEscape : Reader Char
  | 'b' :: rest => some ('\x08', rest)
  | 't' :: rest => some ('\t', rest)
  | 'n' :: rest => some ('\n', rest)
  | 'f' :: rest => some ('\x0c', rest)
  | 'r' :: rest => some ('\r', rest)
  | '"' :: rest => some ('"', rest)
  | '\\' :: rest => some ('\\', rest)
  | 'u' :: rest => readHex 4 rest
  | 'U' :: rest => readHex 8 rest
  | _ => none

/-- The rest of a string of one line, of at most `fuel` characters; only strings in double quotes
have escapes. -/
def readInline (quote : Char) : Nat → Reader (List Char)
  | 0, _ => none
  | _, [] => none
  | fuel + 1, c :: rest =>
    if c = quote then some ([], rest)
    else if c = '\\' ∧ quote = '"' then
      (readEscape rest).bind fun (c, rest) =>
        (readInline quote fuel rest).map fun (cs, rest) => (c :: cs, rest)
    else if isPlain c then (readInline quote fuel rest).map fun (cs, rest) => (c :: cs, rest)
    else none

def skipBreaks : List Char → List Char
  | '\r' :: '\n' :: rest => skipBreaks rest
  | c :: rest => if isBlank c || c = '\n' then skipBreaks rest else c :: rest
  | [] => []

def breaksLine (cs : List Char) : Bool :=
  match skipBlank cs with
  | '\n' :: _ => true
  | '\r' :: '\n' :: _ => true
  | _ => false

/-- The rest of a string of several lines, of at most `fuel` characters. Three quotes end it, up
to two more before them belong to it; a backslash at the end of a line joins it to the next
text. -/
def readBlock (quote : Char) : Nat → Reader (List Char)
  | 0, _ => none
  | _, [] => none
  | fuel + 1, c :: rest =>
    if c = quote then
      let more := (rest.takeWhile (· = quote)).length
      if more < 2 then (readBlock quote fuel rest).map fun (cs, rest) => (c :: cs, rest)
      else
        let extra := min 2 (more - 2)
        some (List.replicate extra quote, rest.drop (2 + extra))
    else if c = '\\' ∧ quote = '"' then
      if breaksLine rest then readBlock quote fuel (skipBreaks rest)
      else
        (readEscape rest).bind fun (c, rest) =>
          (readBlock quote fuel rest).map fun (cs, rest) => (c :: cs, rest)
    else if isPlain c || c = '\n' then
      (readBlock quote fuel rest).map fun (cs, rest) => (c :: cs, rest)
    else match c, rest with
      | '\r', '\n' :: rest =>
        (readBlock quote fuel rest).map fun (cs, rest) => ('\n' :: cs, rest)
      | _, _ => none

def readLineString (cs : List Char) : Option (String × List Char) :=
  match cs with
  | c :: rest =>
    if c = '"' ∨ c = '\x27' then
      (readInline c cs.length rest).map fun (cs, rest) => (String.ofList cs, rest)
    else none
  | [] => none

def readString (cs : List Char) : Option (String × List Char) :=
  match cs with
  | a :: b :: c :: rest =>
    if a = b ∧ b = c ∧ (a = '"' ∨ a = '\x27') then
      (readBlock a cs.length (dropBreak rest)).map fun (cs, rest) => (String.ofList cs, rest)
    else readLineString cs
  | _ => readLineString cs

/-! ## Lines -/

def isBareKey (c : Char) : Bool := c.isAlphanum || c = '_' || c = '-'

def readKey (cs : List Char) : Option (String × List Char) :=
  match cs.takeWhile isBareKey with
  | [] => readLineString cs
  | key => some (String.ofList key, cs.dropWhile isBareKey)

def readScalar (cs : List Char) : Option (Scalar × List Char) :=
  if "true".toList.isPrefixOf cs then some (.boolean true, cs.drop 4)
  else if "false".toList.isPrefixOf cs then some (.boolean false, cs.drop 5)
  else (readString cs).map fun (s, rest) => (.string s, rest)

def readPair (cs : List Char) : Option ((String × Scalar) × List Char) :=
  (readKey cs).bind fun (key, rest) =>
    match skipBlank rest with
    | '=' :: rest =>
      (readScalar (skipBlank rest)).map fun (value, rest) => ((key, value), rest)
    | _ => none

def readLines : Nat → List Char → Option (List (String × Scalar))
  | 0, _ => none
  | fuel + 1, cs =>
    match skipBlank cs with
    | [] => some []
    | c :: rest =>
      if c = '#' ∨ c = '\n' ∨ c = '\r' then (closeLine? (c :: rest)).bind (readLines fuel)
      else do
        let (pair, rest) ← readPair (c :: rest)
        let pairs ← readLines fuel (← closeLine? rest)
        return pair :: pairs

def parse? (text : String) : Option (List (String × Scalar)) :=
  match text.toList with
  | '\uFEFF' :: rest => readLines (rest.length + 1) rest
  | cs => readLines (cs.length + 1) cs

end BlockScript.Toml
