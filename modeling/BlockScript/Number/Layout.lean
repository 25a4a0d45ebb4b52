import BlockScript.Number.Shortest

/-!
Writing numbers as text.

A `Layout` gathers the decisions of one number format; the digits come from `Binary64.shortest`.
-/

namespace BlockScript

structure Layout where
  /-- Leading-digit exponents from here on are written positionally, … -/
  positionalFrom : Int
  /-- … up to this one, excluded. -/
  positionalBelow : Int
  plus : String
  tie : Tie

namespace Layout

def positional (d : Decimal) : String :=
  let digits := Nat.toDigits 10 d.digits
  let whole : Int := digits.length + d.exponent
  if 0 ≤ d.exponent then
    String.ofList (digits ++ List.replicate d.exponent.toNat '0' ++ ['.', '0'])
  else if 0 < whole then
    String.ofList (digits.take whole.toNat ++ '.' :: digits.drop whole.toNat)
  else
    String.ofList ('0' :: '.' :: List.replicate (-whole).toNat '0' ++ digits)

def scientific (layout : Layout) (digits : List Char) (exponent : Int) : String :=
  let mantissa := match digits with
    | [] => []
    | [d] => [d]
    | d :: rest => d :: '.' :: rest
  String.ofList mantissa ++ "e" ++ (if 0 < exponent then layout.plus else "") ++ toString exponent

def write (layout : Layout) (x : Binary64) : String :=
  let sign := if x.negative then "-" else ""
  if x.magnitude = 0 then sign ++ "0.0"
  else
    let d := x.shortest layout.tie
    let digits := Nat.toDigits 10 d.digits
    let exponent := d.exponent + digits.length - 1
    if layout.positionalFrom ≤ exponent ∧ exponent < layout.positionalBelow then
      sign ++ positional d
    else
      sign ++ layout.scientific digits exponent

end Layout

/-- Integer text without a fraction, of a finite number that has none; the sign of zero shows. -/
def Binary64.writeWhole (x : Binary64) : String :=
  (if x.negative then "-" else "") ++ toString x.wholePart

end BlockScript
