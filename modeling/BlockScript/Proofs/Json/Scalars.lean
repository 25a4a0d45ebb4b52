import BlockScript.Json.Parser
import BlockScript.Json.Printer
import BlockScript.Proofs.Document.Codes
import Mathlib.Data.List.TakeWhile

/-!
# Strings and numbers in JSON text

`readString_renderString` reads every string back from its text.  A number is `Exact` if its text is
read as that number: integers always are (`exact_natural`, `exact_negative`), while reading a real
may miss it by the last place.  `readNumber_append` says that a number is read alike when other text
follows it.
-/

namespace BlockScript.Json

/-! ## Strings -/

theorem hexValue?_digitChar : ∀ n < 16, hexValue? (Nat.digitChar n) = some n := by decide

theorem hex4?_digitChars {n : Nat} (small : n < 0x20) :
    hex4? '0' '0' (Nat.digitChar (n / 16)) (Nat.digitChar (n % 16)) = some n := by
  have zero : hexValue? '0' = some 0 := by decide
  simp only [hex4?, zero, hexValue?_digitChar (n / 16) (by omega),
    hexValue?_digitChar (n % 16) (by omega)]
  exact congrArg some (by omega)

theorem readChars_unicode {a b c d : Char} {n : Nat} (value : hex4? a b c d = some n)
    (high : isHighSurrogate n = false) (low : isLowSurrogate n = false) (rest : List Char) :
    readChars ('\\' :: 'u' :: a :: b :: c :: d :: rest) =
      (readChars rest).map fun (cs, rest) => (Char.ofNat n :: cs, rest) := by
  rw [readChars.eq_def]
  split
  -- what follows may look like the second half of a pair
  case h_3 eq =>
    simp only [List.cons.injEq, true_and] at eq
    obtain ⟨rfl, rfl, rfl, rfl, rfl⟩ := eq
    simp [value, high, low]
  case h_4 eq =>
    simp only [List.cons.injEq, true_and] at eq
    obtain ⟨rfl, rfl, rfl, rfl, rfl⟩ := eq
    simp [value, high, low]
  case h_5 other eq =>
    simp only [List.cons.injEq, true_and] at eq
    exact absurd eq.2.symm (other _ _ _ _ _ eq.1.symm)
  case h_6 other eq =>
    obtain ⟨rfl, rfl⟩ := List.cons.inj eq
    exact absurd rfl (other _ _ rfl)
  all_goals simp_all

theorem readChars_simple {letter c : Char} (escape : simpleEscape? letter = some c)
    (rest : List Char) : readChars ('\\' :: letter :: rest) =
      (readChars rest).map fun (cs, rest) => (c :: cs, rest) := by
  have other : letter ≠ 'u' := by
    rintro rfl
    cases escape
  rw [readChars.eq_def]
  split
  case h_5 eq =>
    simp only [List.cons.injEq, true_and] at eq
    obtain ⟨rfl, rfl⟩ := eq
    rw [escape]
  case h_6 other eq =>
    obtain ⟨rfl, rfl⟩ := List.cons.inj eq
    exact absurd rfl (other _ _ rfl)
  all_goals simp_all

theorem readChars_escapeChar (c : Char) (rest : List Char) :
    readChars (escapeChar c ++ rest) = (readChars rest).map fun (cs, rest) => (c :: cs, rest) := by
  have code {n : Nat} (eq : c.toNat = n) : c = Char.ofNat n := eq ▸ (Char.ofNat_toNat c).symm
  unfold escapeChar
  split
  · next quote =>
    subst quote
    exact readChars_simple rfl rest
  split
  · next backslash =>
    subst backslash
    exact readChars_simple rfl rest
  split
  · next quote backslash plain =>
    have printable : (c.toNat < 0x20 || c = '\\') = false := by
      simp [backslash, Nat.not_lt.2 plain]
    rw [List.singleton_append, readChars.eq_def]
    split
    case h_6 eq =>
      obtain ⟨rfl, rfl⟩ := List.cons.inj eq
      exact if_neg (by rw [printable]; exact Bool.false_ne_true)
    all_goals simp_all
  · next quote backslash control =>
    split
    iterate 5
      next eq => exact readChars_simple (code eq ▸ rfl) rest
    · have small : c.toNat < 0x20 := by omega
      have high : isHighSurrogate c.toNat = false := by
        simp only [isHighSurrogate, Bool.and_eq_false_iff, decide_eq_false_iff_not]
        omega
      have low : isLowSurrogate c.toNat = false := by
        simp only [isLowSurrogate, Bool.and_eq_false_iff, decide_eq_false_iff_not]
        omega
      have read := readChars_unicode (hex4?_digitChars small) high low rest
      rwa [Char.ofNat_toNat] at read

theorem readString_renderString (s : String) (rest : List Char) :
    readString (renderString s ++ rest) = some (s, rest) := by
  have chars (cs : List Char) : readChars (cs.flatMap escapeChar ++ '"' :: rest) =
      some (cs, rest) := by
    induction cs with
    | nil => simp [readChars]
    | cons c cs ih => rw [List.flatMap_cons, List.append_assoc, readChars_escapeChar, ih]; rfl
  have all := chars s.toList
  simp only [renderString, readString, List.cons_append, List.append_assoc, List.nil_append, all]
  simp [String.ofList_toList]

/-! ## Numbers -/

def Stops (rest : List Char) : Prop :=
  ∀ c ∈ rest.head?, isDigit c = false ∧ c ≠ '.' ∧ c ≠ 'e' ∧ c ≠ 'E'

def Number.Exact (n : Number) : Prop := readNumber n.render.toList = some (n, [])

theorem spanDigits_append {rest : List Char} (stops : Stops rest) (cs : List Char) :
    spanDigits (cs ++ rest) = ((spanDigits cs).1, (spanDigits cs).2 ++ rest) := by
  induction cs with
  | nil =>
      cases rest with
      | nil => rfl
      | cons c rest => simp [spanDigits, (stops c rfl).1]
  | cons c cs ih =>
      simp only [spanDigits, Prod.mk.injEq] at ih
      cases digit : isDigit c <;> simp [spanDigits, digit, ih]

theorem spanSign_append (c : Char) (cs rest : List Char) :
    spanSign (c :: cs ++ rest) = ((spanSign (c :: cs)).1, (spanSign (c :: cs)).2 ++ rest) := by
  by_cases minus : c = '-'
  · subst minus
    rfl
  by_cases plus : c = '+'
  · subst plus
    rfl
  · simp [spanSign, minus, plus]

theorem readExponent_append {rest : List Char} (stops : Stops rest) {cs r : List Char} {n : Int}
    (read : readExponent cs = some (n, r)) : readExponent (cs ++ rest) = some (n, r ++ rest) := by
  cases cs with
  | nil =>
      obtain ⟨rfl, rfl⟩ := Prod.mk.inj (Option.some.inj read)
      cases rest with
      | nil => rfl
      | cons c rest =>
          obtain ⟨-, -, lower, upper⟩ := stops c rfl
          simp [readExponent, lower, upper]
  | cons mark cs =>
      simp only [readExponent, List.cons_append] at read ⊢
      split at read
      · next marked =>
        rw [if_pos marked]
        cases cs with
        | nil => cases read
        | cons c cs =>
            rw [spanSign_append]
            simp only [spanDigits_append stops]
            rcases span : spanDigits (spanSign (c :: cs)).2 with ⟨_ | ⟨digit, digits⟩, r'⟩
            · rw [span] at read
              cases read
            · rw [span] at read
              obtain ⟨rfl, rfl⟩ := Prod.mk.inj (Option.some.inj read)
              rfl
      · next other =>
        obtain ⟨rfl, rfl⟩ := Prod.mk.inj (Option.some.inj read)
        rw [if_neg other, List.cons_append]

def readTail (negative : Bool) (whole rest : List Char) : Option (Number × List Char) :=
  match rest with
  | '.' :: rest =>
    match spanDigits rest with
    | ([], _) => none
    | (fraction, rest) =>
      (readExponent rest).bind fun (exponent, rest) =>
        ((realOf? whole fraction exponent).bind (finiteNumber? negative)).map (·, rest)
  | 'e' :: _ | 'E' :: _ =>
    (readExponent rest).bind fun (exponent, rest) =>
      ((realOf? whole [] exponent).bind (finiteNumber? negative)).map (·, rest)
  | rest => (integerNumber? negative whole).map (·, rest)

def readUnsigned (negative : Bool) (cs : List Char) : Option (Number × List Char) :=
  if !isWholePart (spanDigits cs).1 then none
  else readTail negative (spanDigits cs).1 (spanDigits cs).2

theorem readNumber_minus (cs : List Char) : readNumber ('-' :: cs) = readUnsigned true cs := rfl

theorem readNumber_of_ne {c : Char} (cs : List Char) (other : c ≠ '-') :
    readNumber (c :: cs) = readUnsigned false (c :: cs) := by
  unfold readNumber
  split
  next eq =>
    split at eq
    · next eq' => exact absurd (List.cons.inj eq').1 other
    · obtain ⟨rfl, rfl⟩ := Prod.mk.inj eq
      rfl

theorem readTail_of_stops (negative : Bool) (whole rest : List Char)
    (stops : ∀ c ∈ rest.head?, c ≠ '.' ∧ c ≠ 'e' ∧ c ≠ 'E') :
    readTail negative whole rest = (integerNumber? negative whole).map (·, rest) := by
  cases rest with
  | nil => rfl
  | cons c rest =>
      obtain ⟨point, lower, upper⟩ := stops c rfl
      simp [readTail, point, lower, upper]

theorem readTail_append {rest : List Char} (stops : Stops rest) {negative : Bool}
    {whole cs r : List Char} {n : Number} (read : readTail negative whole cs = some (n, r)) :
    readTail negative whole (cs ++ rest) = some (n, r ++ rest) := by
  have real {fraction cs : List Char}
      (read : ((readExponent cs).bind fun (exponent, rest) =>
        ((realOf? whole fraction exponent).bind (finiteNumber? negative)).map (·, rest)) =
          some (n, r)) :
      ((readExponent (cs ++ rest)).bind fun (exponent, rest) =>
        ((realOf? whole fraction exponent).bind (finiteNumber? negative)).map (·, rest)) =
          some (n, r ++ rest) := by
    obtain ⟨⟨exponent, after⟩, reads, value⟩ := Option.bind_eq_some_iff.1 read
    obtain ⟨number, eq, same⟩ := Option.map_eq_some_iff.1 value
    obtain ⟨rfl, rfl⟩ := Prod.mk.inj same
    rw [readExponent_append stops reads, Option.bind_some]
    exact Option.map_eq_some_iff.2 ⟨number, eq, rfl⟩
  have integer (here : ∀ c ∈ cs.head?, c ≠ '.' ∧ c ≠ 'e' ∧ c ≠ 'E')
      (there : ∀ c ∈ (cs ++ rest).head?, c ≠ '.' ∧ c ≠ 'e' ∧ c ≠ 'E') :
      readTail negative whole (cs ++ rest) = some (n, r ++ rest) := by
    rw [readTail_of_stops negative whole cs here] at read
    obtain ⟨number, eq, same⟩ := Option.map_eq_some_iff.1 read
    obtain ⟨rfl, rfl⟩ := Prod.mk.inj same
    rw [readTail_of_stops negative whole _ there, eq, Option.map_some]
  rcases cs with _ | ⟨c, cs⟩
  · exact integer nofun fun c mem => (stops c mem).2
  by_cases point : c = '.'
  · subst point
    simp only [readTail, List.cons_append, spanDigits_append stops] at read ⊢
    rcases fraction : spanDigits cs with ⟨_ | ⟨digit, digits⟩, after⟩
    · simp [fraction] at read
    · simp only [fraction] at read ⊢
      exact real read
  by_cases lower : c = 'e'
  · subst lower
    exact real read
  by_cases upper : c = 'E'
  · subst upper
    exact real read
  · have other : ∀ d ∈ some c, d ≠ '.' ∧ d ≠ 'e' ∧ d ≠ 'E' := by
      intro d mem
      obtain rfl := Option.mem_some_iff.1 mem
      exact ⟨point, lower, upper⟩
    exact integer other other

theorem readNumber_append {rest : List Char} (stops : Stops rest) {cs r : List Char} {n : Number}
    (read : readNumber cs = some (n, r)) : readNumber (cs ++ rest) = some (n, r ++ rest) := by
  have unsigned {negative : Bool} {cs : List Char} (read : readUnsigned negative cs = some (n, r)) :
      readUnsigned negative (cs ++ rest) = some (n, r ++ rest) := by
    unfold readUnsigned at read ⊢
    rw [spanDigits_append stops]
    split at read
    · cases read
    · next whole =>
      rw [if_neg whole]
      exact readTail_append stops read
  rcases cs with _ | ⟨c, cs⟩
  · cases read
  by_cases minus : c = '-'
  · subst minus
    exact unsigned read
  · rw [readNumber_of_ne cs minus] at read
    rw [List.cons_append, readNumber_of_ne _ minus]
    exact unsigned read

theorem head_of_readNumber {cs r : List Char} {n : Number} (read : readNumber cs = some (n, r)) :
    ∃ c rest, cs = c :: rest ∧ (c = '-' ∨ isDigit c = true) := by
  rcases cs with _ | ⟨c, cs⟩
  · cases read
  refine ⟨c, cs, rfl, or_iff_not_imp_left.2 fun minus => ?_⟩
  rw [readNumber_of_ne cs minus] at read
  by_contra other
  simp [readUnsigned, spanDigits, other, isWholePart] at read

theorem isWholePart_toString (n : Nat) : isWholePart (toString n).toList = true := by
  rcases Nat.eq_zero_or_pos n with rfl | positive
  · rfl
  · rw [Nat.toString_eq_ofList_toDigits, String.toList_ofList]
    obtain ⟨c, cs, eq, head⟩ := head_toDigits n positive
    rw [eq, isWholePart]
    · simpa using head
    · rintro rfl
      exact absurd rfl head

theorem readUnsigned_toString (negative : Bool) (n : Nat) :
    readUnsigned negative (toString n).toList =
      (integerNumber? negative (toString n).toList).map (·, []) := by
  have all : ∀ c ∈ (toString n).toList, isDigit c = true := fun c => isDigit_of_mem_toString
  have span : spanDigits (toString n).toList = ((toString n).toList, []) := by
    rw [spanDigits, List.takeWhile_eq_self_iff.2 all, List.dropWhile_eq_nil_iff.2 all]
  rw [readUnsigned, span, isWholePart_toString]
  exact readTail_of_stops negative (toString n).toList [] nofun

theorem exact_natural (n : UInt64) : (Number.natural n).Exact := by
  obtain ⟨c, cs, chars⟩ := List.exists_cons_of_ne_nil (toList_toString_ne_nil n.toNat)
  have digit : isDigit c = true := isDigit_of_mem_toString (chars ▸ List.mem_cons_self)
  have minus : c ≠ '-' := by
    rintro rfl
    cases digit
  have bound : ¬ UInt64.size ≤ n.toNat := Nat.not_le.2 n.toNat_lt
  have number : integerNumber? false (toString n.toNat).toList = some (.natural n) := by
    rw [integerNumber?, naturalOfDigits_toString, if_neg bound]
    simp
  rw [Number.Exact, Number.render, chars, readNumber_of_ne cs minus, ← chars,
    readUnsigned_toString, number, Option.map_some]

theorem exact_negative (n : Int64) (below : n < 0) : (Number.negative n below).Exact := by
  have negative : n.toInt < 0 := Int64.lt_iff_toInt_lt.1 below
  have least : -(2 : Int) ^ 63 ≤ n.toInt := Int64.le_toInt n
  obtain ⟨m, eq⟩ := Int.eq_negSucc_of_lt_zero negative
  have value : -((m + 1 : Nat) : Int) = n.toInt := by omega
  have text : (Number.negative n below).render.toList = '-' :: (toString (m + 1)).toList := by
    rw [Number.render, eq]
    change ("-" ++ toString (m + 1)).toList = _
    rw [String.toList_append]
    rfl
  have number : integerNumber? true (toString (m + 1)).toList = some (.negative n below) := by
    have bound : m + 1 ≤ Nat.pow 2 63 := by
      rw [Nat.pow_eq]
      omega
    have small : ¬ UInt64.size ≤ m + 1 := by
      rw [Nat.pow_eq] at bound
      simp only [UInt64.size]
      omega
    rw [integerNumber?, naturalOfDigits_toString]
    simp only [if_neg small, Bool.not_true, Bool.false_eq_true, if_false]
    rw [if_pos ⟨Nat.succ_pos m, bound⟩, value, Int64.ofInt_toInt, Number.ofInt64, dif_pos below]
  rw [Number.Exact, text, readNumber_minus, readUnsigned_toString, number, Option.map_some]

end BlockScript.Json
