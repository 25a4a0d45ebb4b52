import BlockScript.Number.Rounding

/-!
The shortest decimal of a binary number.

Of the decimals that round back to a number, `Binary64.shortest` finds one with the fewest digits
and, of those, the nearest.  For each digit count in turn it looks at the number's two neighbours
on that decimal grid.
-/

namespace BlockScript

structure Decimal where
  digits : Nat
  exponent : Int
deriving DecidableEq, Repr

def Decimal.carry (d : Decimal) : Decimal :=
  if d.digits = 10 then ⟨1, d.exponent + 1⟩ else d

def digitCount (n : Nat) : Nat := (Nat.toDigits 10 n).length

def floorLog10 (num den : Nat) : Int :=
  if den ≤ num then (digitCount (num / den) : Int) - 1
  else -digitCount ((den - 1) / num)

inductive Tie where
  | up
  | even
deriving DecidableEq, Repr

/-- Choice of the upper of two neighbours in the interval, `lower` and `lower + 1`, where `order`
compares the number with their middle. -/
def Tie.takesUpper (tie : Tie) (order : Ordering) (lower : Nat) : Bool :=
  match order, tie with
  | .lt, _ => false
  | .gt, _ => true
  | .eq, .up => true
  | .eq, .even => lower % 2 == 1

namespace Binary64

/-- The reals that round to a positive finite number, in units of a quarter of its last place:
from `low` to `high` around `middle`, ends included iff `closed`; a unit is `num / den`. -/
structure Interval where
  low : Nat
  middle : Nat
  high : Nat
  closed : Bool
  num : Nat
  den : Nat

def interval (x : Binary64) : Interval :=
  let m := x.significand
  let (num, den) := scaledBy (x.exponent - 2) 1 1
  let below := if m = fractionCount ∧ -1074 < x.exponent then 1 else 2
  { low := 4 * m - below, middle := 4 * m, high := 4 * m + 2, closed := m % 2 == 0, num, den }

def Interval.contains (i : Interval) (p q : Nat) : Bool :=
  let here := p * i.den
  let low := i.low * i.num * q
  let high := i.high * i.num * q
  if i.closed then low ≤ here && here ≤ high else low < here && here < high

/-- The decimal of the interval nearest to its middle among the multiples of `10 ^ grid`. -/
def Interval.onGrid (i : Interval) (tie : Tie) (grid : Int) : Option Decimal :=
  -- The grid's spacing is `up / down`.
  let up := Nat.pow 10 grid.toNat
  let down := Nat.pow 10 (-grid).toNat
  let num := i.middle * i.num * down
  let den := i.den * up
  let lower := num / den
  let upperOrder := compare (2 * (num % den)) den
  match i.contains (lower * up) down, i.contains ((lower + 1) * up) down with
  | true, true => some ⟨if tie.takesUpper upperOrder lower then lower + 1 else lower, grid⟩
  | true, false => some ⟨lower, grid⟩
  | false, true => some ⟨lower + 1, grid⟩
  | false, false => none

/-- Shortest decimal of a positive finite number; seventeen digits always suffice. -/
def shortest (tie : Tie) (x : Binary64) : Decimal :=
  let i := x.interval
  let top := floorLog10 (i.middle * i.num) i.den
  let found := (List.range 17).findSome? fun (count : Nat) => i.onGrid tie (top - count)
  (found.getD ⟨0, 0⟩).carry

end Binary64

end BlockScript
