import BlockScript.Json.Basic
import BlockScript.Number.Arithmetic
import BlockScript.Number.Reading

/-!
Reading JSON text.

`parse?` accepts one value with white space around it, containers nested at most `depthLimit`
deep, and gives objects sorted by key.  Numbers without fraction and exponent are integers as far
as they fit; the others are read from at most twenty significant digits and one scaling by powers
of ten, which may differ from the nearest real in the last place.
-/

namespace BlockScript.Json

def depthLimit : Nat := 127

abbrev Reader (α : Type) := List Char → Option (α × List Char)

def isSpace (c : Char) : Bool := c = ' ' || c = '\t' || c = '\n' || c = '\r'

def skipSpace (cs : List Char) : List Char := cs.dropWhile isSpace

/-! ## Numbers -/

def appendDigits (n taken : Nat) : List Char → Nat × Nat × List Char
  | [] => (n, taken, [])
  | c :: rest =>
    let next := 10 * n + digitValue c
    if next < UInt64.size then appendDigits next (taken + 1) rest else (n, taken, c :: rest)

def powerOfTen (n : Nat) : Binary64 := Binary64.ofNat (Nat.pow 10 n)

/-- Scales a positive real down by `10 ^ n`, by at most `10 ^ 308` at a time. -/
def scaleDown (x : Binary64) (n : Nat) : Binary64 :=
  if x.magnitude = 0 then x
  else if n ≤ 308 then x / powerOfTen n
  else scaleDown (x / powerOfTen 308) (n - 308)
termination_by n

def scaleReal? (significand : Nat) (exponent : Int) : Option Binary64 :=
  let x := Binary64.ofNat significand
  if 0 ≤ exponent then
    if exponent ≤ 308 then
      let scaled := x * powerOfTen exponent.toNat
      if scaled.isFinite then some scaled else none
    else if significand = 0 then some x
    else none
  else some (scaleDown x (-exponent).toNat)

/-- The bound below which exponents are computed; beyond it only their sign matters. -/
def exponentLimit : Nat := Nat.pow 2 31

def readExponent : Reader Int
  | [] => some (0, [])
  | mark :: rest =>
    if mark = 'e' ∨ mark = 'E' then
      let (negative, rest) := spanSign rest
      match spanDigits rest with
      | ([], _) => none
      | (digits, rest) =>
        let n : Int := naturalOfDigits digits
        some (if negative then -n else n, rest)
    else some (0, mark :: rest)

def realOf? (whole fraction : List Char) (exponent : Int) : Option Binary64 :=
  let (n, _, skipped) := appendDigits 0 0 whole
  let (n, taken, _) := appendDigits n 0 fraction
  if exponentLimit ≤ exponent.natAbs then
    if n = 0 ∨ exponent < 0 then some Binary64.zero else none
  else scaleReal? n (exponent + skipped.length - taken)

def finiteNumber? (negative : Bool) (x : Binary64) : Option Number :=
  Number.ofBinary64? (if negative then x.neg else x)

def integerNumber? (negative : Bool) (digits : List Char) : Option Number :=
  let n := naturalOfDigits digits
  if UInt64.size ≤ n then (realOf? digits [] 0).bind (finiteNumber? negative)
  else if !negative then some (.natural (UInt64.ofNat n))
  else if 0 < n ∧ n ≤ Nat.pow 2 63 then some (Number.ofInt64 (Int64.ofInt (-n)))
  else finiteNumber? true (Binary64.ofNat n)

def isWholePart : List Char → Bool
  | [] => false
  | ['0'] => true
  | c :: _ => c ≠ '0'

def readNumber (cs : List Char) : Option (Number × List Char) :=
  let (negative, cs) := match cs with
    | '-' :: rest => (true, rest)
    | rest => (false, rest)
  let (whole, rest) := spanDigits cs
  if !isWholePart whole then none
  else match rest with
    | '.' :: rest =>
      match spanDigits rest with
      | ([], _) => none
      | (fraction, rest) =>
        (readExponent rest).bind fun (exponent, rest) =>
          ((realOf? whole fraction exponent).bind (finiteNumber? negative)).map (·, rest)
    | 'e' :: _ | 'E' :: _ =>
      (readExponent rest).bind fun (exponent, rest) =>
        ((realOf? whole [] exponent).bind (finiteNumber? negative)).map (·, rest)
    | rest => (integerNumber? negative whole).map (·, rest)

/-! ## Strings -/

def hexValue? (c : Char) : Option Nat :=
  if isDigit c then some (digitValue c)
  else if 'a' ≤ c ∧ c ≤ 'f' then some (c.toNat - 'a'.toNat + 10)
  else if 'A' ≤ c ∧ c ≤ 'F' then some (c.toNat - 'A'.toNat + 10)
  else none

def hex4? (a b c d : Char) : Option Nat := do
  return (((← hexValue? a) * 16 + (← hexValue? b)) * 16 + (← hexValue? c)) * 16 + (← hexValue? d)

def isHighSurrogate (n : Nat) : Bool := 0xd800 ≤ n && n < 0xdc00

def isLowSurrogate (n : Nat) : Bool := 0xdc00 ≤ n && n < 0xe000

def simpleEscape? : Char → Option Char
  | '"' => some '"'
  | '\\' => some '\\'
  | '/' => some '/'
  | 'b' => some '\x08'
  | 'f' => some '\x0c'
  | 'n' => some '\n'
  | 'r' => some '\r'
  | 't' => some '\t'
  | _ => none

/-- The characters up to the closing quote. Surrogates come in pairs only, and controls are
escaped. -/
def readChars : List Char → Option (List Char × List Char)
  | [] => none
  | '"' :: rest => some ([], rest)
  | '\\' :: 'u' :: a :: b :: c :: d :: '\\' :: 'u' :: a' :: b' :: c' :: d' :: rest =>
    match hex4? a b c d with
    | none => none
    | some n =>
      if isHighSurrogate n then
        match hex4? a' b' c' d' with
        | none => none
        | some n' =>
          if isLowSurrogate n' then
            let scalar := 0x10000 + (n - 0xd800) * 0x400 + (n' - 0xdc00)
            (readChars rest).map fun (cs, rest) => (Char.ofNat scalar :: cs, rest)
          else none
      else if isLowSurrogate n then none
      else
        (readChars ('\\' :: 'u' :: a' :: b' :: c' :: d' :: rest)).map fun (cs, rest) =>
          (Char.ofNat n :: cs, rest)
  | '\\' :: 'u' :: a :: b :: c :: d :: rest =>
    match hex4? a b c d with
    | none => none
    | some n =>
      if isHighSurrogate n || isLowSurrogate n then none
      else (readChars rest).map fun (cs, rest) => (Char.ofNat n :: cs, rest)
  | '\\' :: c :: rest =>
    match simpleEscape? c with
    | none => none
    | some c => (readChars rest).map fun (cs, rest) => (c :: cs, rest)
  | c :: rest =>
    if c.toNat < 0x20 || c = '\\' then none
    else (readChars rest).map fun (cs, rest) => (c :: cs, rest)

def readString : Reader String
  | '"' :: rest => (readChars rest).map fun (cs, rest) => (String.ofList cs, rest)
  | _ => none

/-! ## Containers -/

def readEntries {α : Type} (entry : Reader α) (close : Char) : Nat → Reader (List α)
  | 0, _ => none
  | fuel + 1, cs =>
    (entry (skipSpace cs)).bind fun (first, rest) =>
      match skipSpace rest with
      | c :: rest =>
        if c = close then some ([first], rest)
        else if c = ',' then
          (readEntries entry close fuel rest).map fun (more, rest) => (first :: more, rest)
        else none
      | [] => none

def readSequence {α : Type} (entry : Reader α) (close : Char) (cs : List Char) :
    Option (List α × List Char) :=
  match skipSpace cs with
  | c :: rest => if c = close then some ([], rest) else readEntries entry close cs.length cs
  | [] => none

def readField (value : Reader Json) (cs : List Char) : Option ((String × Json) × List Char) :=
  (readString cs).bind fun (key, rest) =>
    match skipSpace rest with
    | ':' :: rest => (value (skipSpace rest)).map fun (value, rest) => ((key, value), rest)
    | _ => none

def readWord (word : String) (json : Json) (cs : List Char) : Option (Json × List Char) :=
  if word.toList.isPrefixOf cs then some (json, cs.drop word.length) else none

def readScalar (cs : List Char) : Option (Json × List Char) :=
  match cs with
  | 'n' :: _ => readWord "null" null cs
  | 't' :: _ => readWord "true" (bool true) cs
  | 'f' :: _ => readWord "false" (bool false) cs
  | '"' :: _ => (readString cs).map fun (s, rest) => (string s, rest)
  | _ => (readNumber cs).map fun (n, rest) => (number n, rest)

/-- A value whose containers nest at most `depth` deep. -/
def readValue (depth : Nat) (cs : List Char) : Option (Json × List Char) :=
  match depth, cs with
  | 0, '[' :: _ => none
  | 0, '\x7b' :: _ => none
  | depth + 1, '[' :: rest =>
    (readSequence (readValue depth) ']' rest).map fun (items, rest) => (array items, rest)
  | depth + 1, '\x7b' :: rest =>
    (readSequence (readField (readValue depth)) '\x7d' rest).map fun (fields, rest) =>
      (object (sortEntries fields), rest)
  | _, cs => readScalar cs

def readWhole {α : Type} (reader : Reader α) (text : String) : Option α :=
  match reader (skipSpace text.toList) with
  | some (value, rest) => if (skipSpace rest).isEmpty then some value else none
  | none => none

def parse? (text : String) : Option Json := readWhole (readValue depthLimit) text

def parseFields? (text : String) : Option (List (String × Json)) :=
  readWhole (fun
    | '\x7b' :: rest => readSequence (readField (readValue (depthLimit - 1))) '\x7d' rest
    | _ => none) text

end BlockScript.Json
