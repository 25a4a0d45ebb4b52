import BlockScript.Table
import BlockScript.Value.Basic

/-!
The variables of a program.

The names in the store are the variables that exist.  Nine constants may be seeded.
-/

namespace BlockScript

abbrev Store := Table Value

namespace Store

def constantCount : Nat := 9

def constantName (n : Int) : String := "#" ++ toString n

def constants : List (String × Value) :=
  (List.range constantCount).map fun (i : Nat) =>
    (constantName (i + 1), .integer (Int64.ofInt (i + 1)))

def seedConstants (store : Store) : Store := store.setAll constants

end Store

end BlockScript
