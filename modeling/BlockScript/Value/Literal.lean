import BlockScript.Json.Basic
import BlockScript.Value.Conversion

/-!
Values as JSON literals.

A literal is a JSON value without null and objects.  Writing turns reals that are not finite into
null, which reading rejects; all other values are read back as they were.
-/

namespace BlockScript.Value

mutual

def toJson : Value → Json
  | real x => match Json.Number.ofBinary64? x with
    | some n => .number n
    | none => .null
  | integer n => .number (.ofInt64 n)
  | boolean b => .bool b
  | text s => .string s
  | list items => .array (toJsonItems items)

def toJsonItems : List Value → List Json
  | [] => []
  | item :: rest => toJson item :: toJsonItems rest

end

/-- Integers in the range of machine integers stay integers; all other numbers become reals. -/
def ofNumber (n : Json.Number) : Value :=
  match n.toInt64? with
  | some i => integer i
  | none => real n.toBinary64

mutual

def ofJson : Json → Except ValueError Value
  | .null => .error (.invalidLiteral "null")
  | .bool b => .ok (boolean b)
  | .number n => .ok (ofNumber n)
  | .string s => .ok (text s)
  | .array items => (ofJsonItems items).map list
  | .object _ => .error (.invalidLiteral "object where a literal was expected")

def ofJsonItems : List Json → Except ValueError (List Value)
  | [] => .ok []
  | item :: rest => do
    let value ← ofJson item
    let values ← ofJsonItems rest
    return value :: values

end

end BlockScript.Value
