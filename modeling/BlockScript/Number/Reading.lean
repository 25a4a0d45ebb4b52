import BlockScript.Number.Shortest

/-!
Reading numbers from text.

`Numeral` is the shape of a written decimal; `Binary64.ofText?`, `int64OfText?`,
`naturalOfText?` and `indexOfText?` say which texts denote a real, a machine integer, a natural
and an index.
-/

namespace BlockScript

def isDigit (c : Char) : Bool := '0' ≤ c && c ≤ '9'

def digitValue (c : Char) : Nat := c.toNat - '0'.toNat

def valueInBase (base : Nat) (digits : List Nat) : Nat :=
  digits.foldr (fun digit n => digit + base * n) 0

def joinDigits (base : Nat) : List Nat → List Nat
  | low :: high :: rest => (low + base * high) :: joinDigits base rest
  | digits => digits

theorem valueInBase_joinDigits (base : Nat) (digits : List Nat) :
    valueInBase (base * base) (joinDigits base digits) = valueInBase base digits := by
  induction digits using joinDigits.induct with
  | case1 low high rest ih =>
    simp only [valueInBase, List.foldr_cons, joinDigits] at ih ⊢
    rw [ih, Nat.mul_add, Nat.mul_assoc, Nat.add_assoc]
  | case2 digits h =>
    match digits with
    | [] | [_] => simp [joinDigits, valueInBase]
    | low :: high :: rest => exact (h low high rest rfl).elim

/-- The natural with the given digits, found by joining them `rounds` times; so numbers of like
length are multiplied, which is fast. -/
def joinedValue : Nat → Nat → List Nat → Nat
  | 0, base, digits => valueInBase base digits
  | rounds + 1, base, digits => joinedValue rounds (base * base) (joinDigits base digits)

theorem joinedValue_eq (rounds base : Nat) (digits : List Nat) :
    joinedValue rounds base digits = valueInBase base digits := by
  induction rounds generalizing base digits with
  | zero => rfl
  | succ rounds ih => rw [joinedValue, ih, valueInBase_joinDigits]

def naturalOfDigits (digits : List Char) : Nat :=
  joinedValue digits.length.log2 10 (digits.reverse.map digitValue)

theorem naturalOfDigits_eq_foldl (digits : List Char) :
    naturalOfDigits digits = digits.foldl (fun n c => digitValue c + 10 * n) 0 := by
  rw [naturalOfDigits, joinedValue_eq, valueInBase, List.foldr_map, List.foldr_reverse]

def exponentBound : Nat := 65536

/-- The exponent written by decimal digits; once it has reached the bound, further digits are
passed over. -/
def exponentOfDigits (digits : List Char) : Nat :=
  digits.foldl (fun n c => if n < exponentBound then 10 * n + digitValue c else n) 0

def spanDigits (cs : List Char) : List Char × List Char :=
  (cs.takeWhile isDigit, cs.dropWhile isDigit)

def spanSign : List Char → Bool × List Char
  | '-' :: rest => (true, rest)
  | '+' :: rest => (false, rest)
  | rest => (false, rest)

structure Numeral where
  whole : List Char
  fraction : List Char
  exponent : Int

namespace Numeral

/-- Digits with an optional point and an optional exponent, and nothing else. At least one digit
stands before or after the point, and at least one in an exponent. -/
def ofChars? (cs : List Char) : Option Numeral :=
  let (whole, rest) := spanDigits cs
  let (fraction, rest) := match rest with
    | '.' :: rest => spanDigits rest
    | rest => ([], rest)
  if whole.isEmpty && fraction.isEmpty then none
  else match rest with
    | [] => some ⟨whole, fraction, 0⟩
    | mark :: rest =>
      if mark = 'e' ∨ mark = 'E' then
        let (negative, rest) := spanSign rest
        match spanDigits rest with
        | (digits@(_ :: _), []) =>
          let n : Int := exponentOfDigits digits
          some ⟨whole, fraction, if negative then -n else n⟩
        | _ => none
      else none

def toDecimal (n : Numeral) : Decimal :=
  ⟨naturalOfDigits (n.whole ++ n.fraction), n.exponent - n.fraction.length⟩

end Numeral

/-- The number nearest to a decimal. Exponents far outside the range decide the result before any
power of ten is computed: a number of `bits + 1` binary digits is at least `1000 ^ (bits / 10)` and
less than `10 ^ (bits / 3 + 1)`. -/
def Decimal.toBinary64 (negative : Bool) (d : Decimal) : Binary64 :=
  let bits := d.digits.log2
  if d.digits = 0 ∨ d.exponent + (bits / 3 + 1 : Nat) < -400 then Binary64.ofMagnitude negative 0
  else if 400 < d.exponent + (bits / 10 * 3 : Nat) then Binary64.infinity negative
  else
    let num := d.digits * Nat.pow 10 d.exponent.toNat
    Binary64.ofRatio negative num (Nat.pow 10 (-d.exponent).toNat)

def lowerAscii (cs : List Char) : List Char := cs.map Char.toLower

/-- The real that a text denotes: an optional sign, then a numeral or one of the words for
infinity and not-a-number in any ASCII case. -/
def Binary64.ofChars? (cs : List Char) : Option Binary64 :=
  let (negative, rest) := spanSign cs
  let word := String.ofList (lowerAscii rest)
  if word = "inf" ∨ word = "infinity" then some (infinity negative)
  else if word = "nan" then some (nan negative)
  else (Numeral.ofChars? rest).map fun n => n.toDecimal.toBinary64 negative

def Binary64.ofText? (s : String) : Option Binary64 := ofChars? s.toList

def integerOfChars? (cs : List Char) : Option Int :=
  let (negative, rest) := spanSign cs
  if rest.isEmpty || !rest.all isDigit then none
  else some (if negative then -naturalOfDigits rest else naturalOfDigits rest)

def int64OfText? (s : String) : Option Int64 :=
  (integerOfChars? s.toList).bind fun n =>
    if Int64.minValue.toInt ≤ n ∧ n ≤ Int64.maxValue.toInt then some (Int64.ofInt n) else none

def naturalOfText? (s : String) : Option Nat :=
  match s.toList with
  | '-' :: _ => none
  | cs => (integerOfChars? cs).map Int.toNat

def indexOfText? (s : String) : Option Nat :=
  (naturalOfText? s).bind fun n => if n < UInt64.size then some n else none

end BlockScript
