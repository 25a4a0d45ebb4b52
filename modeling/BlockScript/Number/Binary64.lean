/-!
Real numbers in the 64-bit binary interchange format.

A real is its 64 bits: a sign, then 63 bits of magnitude that order the non-negative numbers,
infinity and the not-a-numbers as naturals.  Equality of `Binary64` is equality of bits; the
comparison that programs see (`equal`, `less`) and the total order that sorting uses (`rank`)
are functions on the same sign and magnitude.
-/

namespace BlockScript

structure Binary64 where
  bits : UInt64
deriving DecidableEq, Repr, Inhabited

namespace Binary64

def signThreshold : Nat := Nat.pow 2 63

def fractionCount : Nat := Nat.pow 2 52

/-- Magnitude of infinity; every magnitude above it is a not-a-number. -/
def infinityMagnitude : Nat := 0x7ff * fractionCount

def nanMagnitude : Nat := infinityMagnitude + fractionCount / 2

def ofMagnitude (negative : Bool) (magnitude : Nat) : Binary64 :=
  ⟨UInt64.ofNat ((if negative then signThreshold else 0) + magnitude % signThreshold)⟩

def negative (x : Binary64) : Bool := signThreshold ≤ x.bits.toNat

def magnitude (x : Binary64) : Nat := x.bits.toNat % signThreshold

def isNaN (x : Binary64) : Bool := infinityMagnitude < x.magnitude

def isFinite (x : Binary64) : Bool := x.magnitude < infinityMagnitude

def zero : Binary64 := ofMagnitude false 0

def one : Binary64 := ofMagnitude false (0x3ff * fractionCount)

def half : Binary64 := ofMagnitude false (0x3fe * fractionCount)

def infinity (negative : Bool) : Binary64 := ofMagnitude negative infinityMagnitude

def nan (negative : Bool) : Binary64 := ofMagnitude negative nanMagnitude

def neg (x : Binary64) : Binary64 := ofMagnitude (!x.negative) x.magnitude

/-! ## Significand and exponent -/

/-- A finite number is `significand * 2 ^ exponent`, up to sign. -/
def significand (x : Binary64) : Nat :=
  if x.magnitude < fractionCount then x.magnitude
  else fractionCount + x.magnitude % fractionCount

def exponent (x : Binary64) : Int := max (x.magnitude / fractionCount : Nat) 1 - 1075

/-! ## Order -/

def position (x : Binary64) : Int := if x.negative then -x.magnitude else x.magnitude

/-- Numeric equality: a not-a-number differs from everything, itself included, and the two
zeros are equal. -/
def equal (x y : Binary64) : Bool := !x.isNaN && !y.isNaN && x.position == y.position

def less (x y : Binary64) : Bool := !x.isNaN && !y.isNaN && decide (x.position < y.position)

/-- Place in the total order of all bit patterns: negative zero lies just below zero, and a
not-a-number lies beyond the infinity of its sign. -/
def rank (x : Binary64) : Int := if x.negative then -x.magnitude - 1 else x.magnitude

end Binary64

end BlockScript
