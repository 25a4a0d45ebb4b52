import BlockScript.Number.Binary64

/-!
Rounding between exact quotients, integers and binary numbers.

`ofRatio` is the one rounding rule (to nearest, a tie to the even neighbour); reading decimals,
converting integers and arithmetic go through it.
-/

namespace BlockScript

/-- The natural nearest to `num / den`, a tie going to the even one. -/
def roundDiv (num den : Nat) : Nat :=
  let quotient := num / den
  let rest := 2 * (num % den)
  if rest < den then quotient
  else if den < rest then quotient + 1
  else quotient + quotient % 2

def scaledBy (shift : Int) (num den : Nat) : Nat × Nat :=
  if 0 ≤ shift then (num * Nat.pow 2 shift.toNat, den)
  else (num, den * Nat.pow 2 (-shift).toNat)

/-- The greatest `e` with `2 ^ e ≤ num / den`, for positive `num` and `den`. -/
def floorLog2 (num den : Nat) : Int :=
  let guess : Int := (num.log2 : Int) - den.log2
  let (n, d) := scaledBy (-guess) num den
  if d ≤ n then guess else guess - 1

namespace Binary64

/-- The number nearest to `num / den`, a tie going to the even significand; too large a quotient
gives infinity. -/
def ofRatio (negative : Bool) (num den : Nat) : Binary64 :=
  if num = 0 ∨ den = 0 then ofMagnitude negative 0
  else
    let exponent := max (floorLog2 num den - 52) (-1074)
    let (n, d) := scaledBy (-exponent) num den
    let magnitude := (exponent + 1074).toNat * fractionCount + roundDiv n d
    ofMagnitude negative (min magnitude infinityMagnitude)

def ofInt (n : Int) : Binary64 := ofRatio (decide (n < 0)) n.natAbs 1

def ofNat (n : Nat) : Binary64 := ofRatio false n 1

def ofScaled (negative : Bool) (significand : Nat) (exponent : Int) : Binary64 :=
  let (n, d) := scaledBy exponent significand 1
  ofRatio negative n d

def wholePart (x : Binary64) : Nat :=
  let (n, d) := scaledBy x.exponent x.significand 1
  n / d

def isWhole (x : Binary64) : Bool :=
  let (n, d) := scaledBy x.exponent x.significand 1
  x.isFinite && n % d == 0

def clamp (n : Int) : Int64 :=
  if n < Int64.minValue.toInt then Int64.minValue
  else if Int64.maxValue.toInt < n then Int64.maxValue
  else Int64.ofInt n

/-- Machine integer of `round x`, where `round` acts on finite numbers; the infinities give the
extremes and a not-a-number gives zero. -/
def toInt64With (round : Binary64 → Int) (x : Binary64) : Int64 :=
  if x.isNaN then 0
  else if x.isFinite then clamp (round x)
  else if x.negative then Int64.minValue else Int64.maxValue

def truncate : Binary64 → Int64 :=
  toInt64With fun x => if x.negative then -x.wholePart else x.wholePart

def floor : Binary64 → Int64 :=
  toInt64With fun x =>
    if x.negative then (if x.isWhole then -x.wholePart else -x.wholePart - 1) else x.wholePart

end Binary64

end BlockScript
