import BlockScript.Value.Conversion
import Mathlib.Data.List.Basic

/-!
# Decimals

Which texts denote a natural and which an integer, as grammars: `NaturalText` and `IntegerText` give
the number that a text spells, and `naturalOfText?_eq_some_iff` and `integerOfChars?_eq_some_iff`
say that exactly these texts are read, as these numbers.  Numbers are written in the same grammar
(`isDecimal_toString`, `integerText_toString`), so what is written is read back; conversions between
texts and machine integers are an instance (`Value.integers_exchanged`).
-/

namespace BlockScript

/-! ## Digits -/

theorem isDigit_eq (c : Char) : isDigit c = c.isDigit := by
  simp [isDigit, Char.isDigit, Char.le_def]

theorem naturalOfDigits_eq (digits : List Char) :
    naturalOfDigits digits = Nat.ofDigitChars 10 digits 0 := by
  rw [naturalOfDigits_eq_foldl, Nat.ofDigitChars_eq_foldl]
  congr 1
  funext sum c
  exact Nat.add_comm _ _

structure IsDecimal (digits : List Char) (n : Nat) : Prop where
  nonempty : digits ≠ []
  digit : ∀ c ∈ digits, c.isDigit = true
  value : Nat.ofDigitChars 10 digits 0 = n

theorem isDecimal_toString (n : Nat) : IsDecimal (toString n).toList n := by
  rw [Nat.toString_eq_ofList_toDigits, String.toList_ofList]
  exact {
    nonempty := Nat.toDigits_ne_nil
    digit := fun c member => Nat.isDigit_of_mem_toDigits (by decide) (by decide) member
    value := Nat.ofDigitChars_ten_toDigits }

theorem IsDecimal.ne_of_mem {digits : List Char} {n : Nat} (decimal : IsDecimal digits n)
    {c d : Char} (member : c ∈ digits) (other : d.isDigit = false) : c ≠ d := by
  intro same
  have digit := decimal.digit c member
  simp [same, other] at digit

theorem isDigit_of_mem_toString {n : Nat} {c : Char} (member : c ∈ (toString n).toList) :
    isDigit c = true := by
  rw [isDigit_eq]
  exact (isDecimal_toString n).digit c member

theorem toList_toString_ne_nil (n : Nat) : (toString n).toList ≠ [] :=
  (isDecimal_toString n).nonempty

theorem naturalOfDigits_toString (n : Nat) : naturalOfDigits (toString n).toList = n := by
  rw [naturalOfDigits_eq, (isDecimal_toString n).value]

theorem head_toDigits (n : Nat) (positive : 0 < n) :
    ∃ c cs, Nat.toDigits 10 n = c :: cs ∧ c ≠ '0' := by
  induction n using Nat.strongRecOn with
  | ind n ih =>
      by_cases small : n < 10
      · have digit : ∀ n < 10, 0 < n → Nat.digitChar n ≠ '0' := by decide
        exact ⟨_, [], Nat.toDigits_of_lt_base small, digit n small positive⟩
      · obtain ⟨c, cs, eq, head⟩ := ih (n / 10) (by omega) (by omega)
        rw [Nat.toDigits_of_base_le (by omega) (by omega), eq]
        exact ⟨c, _, rfl, head⟩

theorem toString_of_head_zero {n : Nat} (zero : (toString n).toList.head? = some '0') :
    (toString n).toList = ['0'] := by
  rcases Nat.eq_zero_or_pos n with rfl | positive
  · rfl
  · obtain ⟨c, cs, eq, head⟩ := head_toDigits n positive
    rw [Nat.toString_eq_ofList_toDigits, String.toList_ofList, eq] at zero
    simp [head] at zero

/-! ## Texts of numbers -/

inductive NaturalText : List Char → Nat → Prop where
  | plain {digits : List Char} {n : Nat} (decimal : IsDecimal digits n) : NaturalText digits n
  | plus {digits : List Char} {n : Nat} (decimal : IsDecimal digits n) :
      NaturalText ('+' :: digits) n

inductive IntegerText : List Char → Int → Prop where
  | natural {cs : List Char} {n : Nat} (natural : NaturalText cs n) : IntegerText cs n
  | minus {digits : List Char} {n : Nat} (decimal : IsDecimal digits n) :
      IntegerText ('-' :: digits) (-n)

theorem spanSign_of_isDigit {c : Char} (cs : List Char) (digit : isDigit c = true) :
    spanSign (c :: cs) = (false, c :: cs) := by
  have minus : c ≠ '-' := by
    intro same
    simp [same, isDigit] at digit
  have plus : c ≠ '+' := by
    intro same
    simp [same, isDigit] at digit
  simp [spanSign, minus, plus]

theorem IsDecimal.spanSign {digits : List Char} {n : Nat} (decimal : IsDecimal digits n) :
    spanSign digits = (false, digits) := by
  obtain ⟨c, cs, rfl⟩ := List.exists_cons_of_ne_nil decimal.nonempty
  apply spanSign_of_isDigit
  rw [isDigit_eq]
  exact decimal.digit c List.mem_cons_self

theorem integerOfChars?_of_spanSign {cs rest : List Char} {negative : Bool}
    (sign : spanSign cs = (negative, rest)) (n : Int) :
    integerOfChars? cs = some n ↔
      ∃ m : Nat, IsDecimal rest m ∧ (if negative then -(m : Int) else m) = n := by
  simp only [integerOfChars?, sign, naturalOfDigits_eq]
  constructor
  · intro read
    split at read
    · cases read
    next accepted =>
      simp only [Bool.or_eq_true, List.isEmpty_iff, Bool.not_eq_true', not_or,
        Bool.not_eq_false, List.all_eq_true, isDigit_eq] at accepted
      exact ⟨_, ⟨accepted.1, accepted.2, rfl⟩, Option.some.inj read⟩
  · intro spelled
    obtain ⟨m, ⟨nonempty, digit, rfl⟩, rfl⟩ := spelled
    have all : rest.all isDigit = true := by simpa [isDigit_eq] using digit
    simp [nonempty, all]

theorem integerOfChars?_eq_some_iff {cs : List Char} {n : Int} :
    integerOfChars? cs = some n ↔ IntegerText cs n := by
  constructor
  · intro read
    rcases sign : spanSign cs with ⟨negative, rest⟩
    obtain ⟨m, decimal, rfl⟩ := (integerOfChars?_of_spanSign sign n).1 read
    unfold spanSign at sign
    split at sign
    all_goals obtain ⟨rfl, rfl⟩ := Prod.mk.inj sign
    · exact .minus decimal
    · exact .natural (.plus decimal)
    · exact .natural (.plain decimal)
  · intro text
    cases text with
    | natural text =>
        cases text with
        | plain decimal => exact (integerOfChars?_of_spanSign decimal.spanSign _).2 ⟨_, decimal, rfl⟩
        | plus decimal => exact (integerOfChars?_of_spanSign rfl _).2 ⟨_, decimal, rfl⟩
    | minus decimal => exact (integerOfChars?_of_spanSign rfl _).2 ⟨_, decimal, rfl⟩

theorem naturalOfText?_eq_some_iff {s : String} {n : Nat} :
    naturalOfText? s = some n ↔ NaturalText s.toList n := by
  unfold naturalOfText?
  split
  next negative =>
    refine iff_of_false nofun fun text => ?_
    rw [negative] at text
    cases text with
    | plain decimal => exact decimal.ne_of_mem List.mem_cons_self (by decide) rfl
  next unsigned =>
    simp only [Option.map_eq_some_iff, integerOfChars?_eq_some_iff]
    constructor
    · intro read
      obtain ⟨i, text, rfl⟩ := read
      generalize s.toList = cs at unsigned text
      cases text with
      | natural text => exact text
      | minus decimal => exact absurd rfl (unsigned _)
    · intro text
      exact ⟨n, .natural text, rfl⟩

theorem integerText_toString (n : Int) : IntegerText (toString n).toList n := by
  cases n with
  | ofNat n => exact .natural (.plain (isDecimal_toString n))
  | negSucc n =>
      have text : (toString (Int.negSucc n)).toList = '-' :: (toString (n + 1)).toList := by
        change ("-" ++ toString (n + 1)).toList = _
        rw [String.toList_append]
        rfl
      rw [text]
      exact .minus (isDecimal_toString (n + 1))

/-! ## Machine integers -/

theorem int64OfText?_eq_some_iff {s : String} {n : Int64} :
    int64OfText? s = some n ↔ IntegerText s.toList n.toInt := by
  rw [← integerOfChars?_eq_some_iff, int64OfText?, Option.bind_eq_some_iff]
  constructor
  · intro read
    obtain ⟨i, isRead, inside⟩ := read
    split at inside
    next bounds =>
      obtain rfl := Option.some.inj inside
      rw [isRead, Int64.toInt_ofInt_of_le bounds.1 (Int.lt_add_one_of_le bounds.2)]
    · cases inside
  · intro isRead
    refine ⟨n.toInt, isRead, ?_⟩
    rw [if_pos ⟨Int64.le_toInt n, Int.le_of_lt_add_one (Int64.toInt_lt n)⟩, Int64.ofInt_toInt]

namespace Value

/-- A text becomes the machine integer that it spells, or zero if it spells none, and a machine
integer comes back from its text. -/
theorem integers_exchanged :
    (∀ (s : String) (n : Int64), IntegerText s.toList n.toInt →
      convert .integer (.text s) = .integer n) ∧
    (∀ s : String, (∀ n : Int64, ¬ IntegerText s.toList n.toInt) →
      convert .integer (.text s) = .integer 0) ∧
    ∀ n : Int64, convert .integer (convert .text (.integer n)) = .integer n := by
  have spelled (s : String) (n : Int64) (text : IntegerText s.toList n.toInt) :
      convert .integer (.text s) = .integer n := by
    simp [convert, toInteger, int64OfText?_eq_some_iff.2 text]
  refine ⟨spelled, fun s unspelled => ?_, fun n => ?_⟩
  · have unread : int64OfText? s = none := by
      rw [Option.eq_none_iff_forall_ne_some]
      intro n read
      exact unspelled n (int64OfText?_eq_some_iff.1 read)
    simp [convert, toInteger, unread]
  · simp only [convert, display]
    exact spelled _ n (integerText_toString n.toInt)

theorem integers_exchanged_least :
    convert .integer (.text "-09223372036854775808") = .integer Int64.minValue ∧
    convert .integer (.text "+9223372036854775808") = .integer 0 ∧
    convert .integer (.text "+-1") = .integer 0 ∧
    convert .integer (convert .text (.integer Int64.minValue)) = .integer Int64.minValue := by
  have digits : IsDecimal "09223372036854775808".toList 9223372036854775808 :=
    ⟨by simp, by simp, by decide⟩
  have least : IntegerText "-09223372036854775808".toList Int64.minValue.toInt := .minus digits
  have beyond (n : Int64) : ¬ IntegerText "+9223372036854775808".toList n.toInt := by
    rw [← int64OfText?_eq_some_iff]
    have unread : int64OfText? "+9223372036854775808" = none := by decide +kernel
    simp [unread]
  have signs (n : Int64) : ¬ IntegerText "+-1".toList n.toInt := by
    rw [← int64OfText?_eq_some_iff]
    have unread : int64OfText? "+-1" = none := by decide +kernel
    simp [unread]
  exact ⟨integers_exchanged.1 _ _ least, integers_exchanged.2.1 _ beyond,
    integers_exchanged.2.1 _ signs, integers_exchanged.2.2 _⟩

end Value

end BlockScript
