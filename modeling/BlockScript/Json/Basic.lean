import BlockScript.Number.Rounding
import BlockScript.Table

/-!
JSON values.

A number is a natural below `2 ^ 64`, a negative machine integer or a finite real, and the three
never coincide.  An object lists its fields; readers of JSON text give them sorted by key, each
key once.
-/

namespace BlockScript

inductive Json.Number where
  | natural (n : UInt64)
  | negative (n : Int64) (below : n < 0)
  | real (x : Binary64) (finite : x.isFinite = true)
deriving DecidableEq

inductive Json where
  | null
  | bool (b : Bool)
  | number (n : Json.Number)
  | string (s : String)
  | array (items : List Json)
  | object (fields : List (String × Json))

namespace Json

instance : Inhabited Json := ⟨null⟩

def Number.ofInt64 (n : Int64) : Number :=
  if below : n < 0 then negative n below else natural (UInt64.ofNat n.toInt.toNat)

def Number.toInt64? : Number → Option Int64
  | natural n => if n.toNat < Nat.pow 2 63 then some (Int64.ofInt n.toNat) else none
  | negative n _ => some n
  | real _ _ => none

def Number.toBinary64 : Number → Binary64
  | natural n => Binary64.ofNat n.toNat
  | negative n _ => Binary64.ofInt n.toInt
  | real x _ => x

def Number.ofBinary64? (x : Binary64) : Option Number :=
  if finite : x.isFinite = true then some (real x finite) else none

end Json

end BlockScript
