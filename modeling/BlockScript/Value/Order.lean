import BlockScript.Number.Rounding
import BlockScript.Sort.Stable
import BlockScript.Value.Basic

/-!
The order in which lists are sorted.

Numbers, texts and booleans each form a family that can be sorted; a list of values of one family
is sorted stably.  Integers that differ can round to one real and so both be equal to it, hence
the order of numbers contradicts itself on some long lists, and these have no sorted form.
-/

namespace BlockScript

inductive Family where
  | number
  | text
  | boolean
deriving DecidableEq, Repr

namespace Value

def family? : Value → Option Family
  | real _ | integer _ => some .number
  | text _ => some .text
  | boolean _ => some .boolean
  | list _ => none

def asNumber : Value → Binary64
  | real x => x
  | integer n => Binary64.ofInt n.toInt
  | _ => Binary64.nan false

/-- Two integers are compared exactly, other pairs of numbers by the total order of reals, texts
character by character, and false comes before true. -/
def compare : Value → Value → Ordering
  | text s, text t => Ord.compare s t
  | boolean a, boolean b => Ord.compare a.toNat b.toNat
  | integer m, integer n => Ord.compare m.toInt n.toInt
  | x, y => Ord.compare x.asNumber.rank y.asNumber.rank

def precedes (x y : Value) : Bool := (compare x y).isLT

inductive SortError where
  | startsWithList
  | mixedFamilies
deriving DecidableEq, Repr

def SortError.message : SortError → String
  | startsWithList => "lists cannot be sorted"
  | mixedFamilies => "list holds values that cannot be compared"

def sort (items : List Value) : Except SortError (Option (List Value)) :=
  match items with
  | [] => .ok (some [])
  | first :: rest =>
    match first.family? with
    | none => .error .startsWithList
    | some family =>
      if rest.all fun item => item.family? = some family then .ok (Sort.stable precedes items)
      else .error .mixedFamilies

end Value

end BlockScript
