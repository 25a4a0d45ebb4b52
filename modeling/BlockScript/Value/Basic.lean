import BlockScript.Number.Layout
import BlockScript.Number.Reading

/-!
Values and the kinds of values that slots declare.

There are five kinds of values.  A slot declares one of them, or accepts any.  `Value.equal` is
the equality that programs see; it differs from identity on reals only.
-/

namespace BlockScript

inductive Value where
  | real (x : Binary64)
  | integer (n : Int64)
  | boolean (b : Bool)
  | text (s : String)
  | list (items : List Value)

inductive ValueKind where
  | real
  | integer
  | boolean
  | text
  | list
deriving DecidableEq, Repr

inductive SlotKind where
  | real
  | integer
  | boolean
  | text
  | list
  | any
deriving DecidableEq, Repr

def ValueKind.name : ValueKind → String
  | real => "real"
  | integer => "integer"
  | boolean => "boolean"
  | text => "text"
  | list => "list"

namespace SlotKind

def name : SlotKind → String
  | real => "real"
  | integer => "integer"
  | boolean => "boolean"
  | text => "text"
  | list => "list"
  | any => "any"

def valueKind? : SlotKind → Option ValueKind
  | real => some .real
  | integer => some .integer
  | boolean => some .boolean
  | text => some .text
  | list => some .list
  | any => none

end SlotKind

namespace Value

instance : Inhabited Value := ⟨text ""⟩

def kind : Value → ValueKind
  | real _ => .real
  | integer _ => .integer
  | boolean _ => .boolean
  | text _ => .text
  | list _ => .list

def asReal? : Value → Option Binary64
  | real x => some x
  | _ => none

def asInteger? : Value → Option Int64
  | integer n => some n
  | _ => none

def asBoolean? : Value → Option Bool
  | boolean b => some b
  | _ => none

def asText? : Value → Option String
  | text s => some s
  | _ => none

def asList? : Value → Option (List Value)
  | list items => some items
  | _ => none

mutual

/-- Values of different kinds differ; reals are compared as numbers. -/
def equal : Value → Value → Bool
  | real x, real y => x.equal y
  | integer m, integer n => m == n
  | boolean a, boolean b => a == b
  | text s, text t => s == t
  | list xs, list ys => equalLists xs ys
  | _, _ => false

def equalLists : List Value → List Value → Bool
  | [], [] => true
  | x :: xs, y :: ys => equal x y && equalLists xs ys
  | _, _ => false

end

/-! ## Text -/

/-- Reals are positional from `0.0001` up to `10 ^ 16`, a positive exponent has no sign, and of
two equally near decimals the upper one is written. -/
def realLayout : Layout where
  positionalFrom := -4
  positionalBelow := 16
  plus := ""
  tie := .up

def realText (x : Binary64) : String :=
  if x.isNaN then "NaN"
  else if x.isFinite then realLayout.write x
  else if x.negative then "-Infinity" else "Infinity"

def booleanText (b : Bool) : String := if b then "true" else "false"

mutual

def display : Value → String
  | real x => realText x
  | integer n => toString n.toInt
  | boolean b => booleanText b
  | text s => s
  | list items => "[" ++ ", ".intercalate (displayItems items) ++ "]"

def displayItems : List Value → List String
  | [] => []
  | item :: rest => display item :: displayItems rest

end

/-- The text that an editor shows for a literal: whole reals without fraction, and of a list its
first item only. -/
def label : Value → String
  | real x => if x.isWhole then x.writeWhole else realText x
  | list items => (items.head?.map display).getD ""
  | value => value.display

end Value

end BlockScript
