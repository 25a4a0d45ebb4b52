import BlockScript.Value.Basic
import BlockScript.Text.Blank

/-!
Conversion of values to the kind a slot declares.

Every value converts to every kind; only the absence of a value, as a statement leaves it, cannot
be converted.
-/

namespace BlockScript

inductive ValueError where
  | nothingToConvert (target : SlotKind)
  | invalidLiteral (reason : String)
deriving DecidableEq, Repr

def ValueError.message : ValueError → String
  | nothingToConvert target => "unsupported value kind: nothing to convert to " ++ target.name
  | invalidLiteral reason => "invalid literal: " ++ reason

def SlotKind.default : SlotKind → Value
  | .real | .integer => .integer 0
  | .boolean => .boolean false
  | .list => .list []
  | .text | .any => .text ""

namespace Value

/-- The number of a value: that of a boolean is `0` or `1`, of a text the number it denotes when
trimmed, or zero, and of a list its length. -/
def toReal : Value → Binary64
  | real x => x
  | integer n => Binary64.ofInt n.toInt
  | boolean b => if b then Binary64.one else Binary64.zero
  | text s => (Binary64.ofChars? (Text.trim s.toList)).getD Binary64.zero
  | list items => Binary64.ofNat items.length

def toInteger : Value → Int64
  | real x => x.truncate
  | integer n => n
  | boolean b => if b then 1 else 0
  | text s => (int64OfText? s).getD 0
  | list items => Int64.ofInt items.length

/-- Positive numbers, the word `true` in any ASCII case and non-empty lists are true. -/
def toBoolean : Value → Bool
  | real x => Binary64.zero.less x
  | integer n => 0 < n
  | boolean b => b
  | text s => lowerAscii s.toList == "true".toList
  | list items => !items.isEmpty

/-- A value that is no list becomes its only item; the empty text becomes the empty list. -/
def toList : Value → List Value
  | text s => if s.isEmpty then [] else [text s]
  | list items => items
  | value => [value]

def convert : SlotKind → Value → Value
  | .any, value => value
  | .real, value => real value.toReal
  | .integer, value => integer value.toInteger
  | .boolean, value => boolean value.toBoolean
  | .text, value => text value.display
  | .list, value => list value.toList

def convertOutput (target : SlotKind) : Option Value → Except ValueError Value
  | some value => .ok (value.convert target)
  | none => .error (.nothingToConvert target)

end Value

end BlockScript
