import BlockScript.Number.Rounding

/-!
Arithmetic on real numbers.

The result of an operation is the exact result, rounded once.  An operation on a not-a-number
returns it, the first of two; an operation without a result returns the negative not-a-number.
-/

namespace BlockScript.Binary64

def alignedTo (low : Int) (x : Binary64) : Nat :=
  x.significand * Nat.pow 2 (x.exponent - low).toNat

/-- `op` on two numbers, and the first not-a-number otherwise. -/
def onNumbers (op : Binary64 → Binary64 → Binary64) (x y : Binary64) : Binary64 :=
  if x.isNaN then x else if y.isNaN then y else op x y

/-- The sum of two numbers. Opposite numbers cancel to the positive zero. -/
def sum (x y : Binary64) : Binary64 :=
  if !x.isFinite && !y.isFinite then
    if x.negative = y.negative then x else nan true
  else if !x.isFinite then x
  else if !y.isFinite then y
  else
    let low := min x.exponent y.exponent
    let signed (z : Binary64) : Int := if z.negative then -z.alignedTo low else z.alignedTo low
    let total := signed x + signed y
    let negative := if total = 0 then x.negative && y.negative else decide (total < 0)
    ofScaled negative total.natAbs low

def product (x y : Binary64) : Binary64 :=
  let negative := x.negative != y.negative
  if x.isFinite && y.isFinite then
    ofScaled negative (x.significand * y.significand) (x.exponent + y.exponent)
  else if x.magnitude = 0 ∨ y.magnitude = 0 then nan true
  else infinity negative

def quotient (x y : Binary64) : Binary64 :=
  let negative := x.negative != y.negative
  if !x.isFinite then (if y.isFinite then infinity negative else nan true)
  else if !y.isFinite then ofMagnitude negative 0
  else if y.magnitude = 0 then (if x.magnitude = 0 then nan true else infinity negative)
  else
    let (num, den) := scaledBy (x.exponent - y.exponent) x.significand y.significand
    ofRatio negative num den

def remainder (x y : Binary64) : Binary64 :=
  if !x.isFinite || y.magnitude == 0 then nan true
  else if !y.isFinite then x
  else
    let low := min x.exponent y.exponent
    ofScaled x.negative (x.alignedTo low % y.alignedTo low) low

instance : Add Binary64 := ⟨onNumbers sum⟩
instance : Sub Binary64 := ⟨onNumbers fun x y => sum x y.neg⟩
instance : Mul Binary64 := ⟨onNumbers product⟩
instance : Div Binary64 := ⟨onNumbers quotient⟩
instance : Mod Binary64 := ⟨onNumbers remainder⟩

def roundHalfUp (x : Binary64) : Int64 := (x + half).floor

end BlockScript.Binary64
