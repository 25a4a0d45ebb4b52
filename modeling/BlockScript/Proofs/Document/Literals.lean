import BlockScript.Proofs.Number.Rounding
import BlockScript.Value.Literal
import Mathlib.Algebra.Group.Nat.Defs
import Mathlib.Data.List.Basic

/-!
# Literals

A value is written as a literal and read back unchanged when all its reals are finite, at any depth
of lists; otherwise a null stands in the literal, and reading stops there (`ofJson_toJson`).  A
literal that is read is written again as it was, except that naturals beyond the machine integers
have become reals (`toJson_of_ofJson`).  What can be read is free of nulls and objects
(`exists_ofJson_iff`).
-/

namespace BlockScript

/-! ## Results -/

theorem bind_eq_ok {ε α β : Type} {x : Except ε α} {f : α → Except ε β} {b : β} :
    (x >>= f) = .ok b ↔ ∃ a, x = .ok a ∧ f a = .ok b := by
  cases x with
  | error e => simp [bind, Except.bind]
  | ok a => simp [bind, Except.bind]

theorem pure_eq_ok {ε α : Type} {a b : α} : (pure a : Except ε α) = .ok b ↔ a = b := by
  simp [pure, Except.pure]

theorem map_eq_ok {ε α β : Type} {x : Except ε α} {f : α → β} {b : β} :
    x.map f = .ok b ↔ ∃ a, x = .ok a ∧ f a = b := by
  cases x with
  | error e => simp [Except.map]
  | ok a => simp [Except.map]

theorem both_eq_ok {ε α β γ : Type} {x : Except ε α} {y : Except ε β} {f : α → β → γ} {c : γ} :
    (do let a ← x; let b ← y; return f a b) = .ok c ↔
      ∃ a b, x = .ok a ∧ y = .ok b ∧ c = f a b := by
  simp only [bind_eq_ok, pure_eq_ok]
  constructor
  · rintro ⟨a, hx, b, hy, rfl⟩
    exact ⟨a, b, hx, hy, rfl⟩
  · rintro ⟨a, b, hx, hy, rfl⟩
    exact ⟨a, hx, b, hy, rfl⟩

/-! ## Numbers -/

theorem Binary64.isFinite_ofMagnitude {magnitude : Nat} (below : magnitude < infinityMagnitude) :
    (ofMagnitude false magnitude).isFinite = true := by
  have small : magnitude < signThreshold := Nat.lt_trans below (by decide)
  rw [isFinite, magnitude_ofMagnitude small, decide_eq_true below]

theorem floorLog2_of_large {n : Nat} (lower : 2 ^ 63 ≤ n) (upper : n < 2 ^ 64) :
    floorLog2 n 1 = 63 := by
  have log : n.log2 = 63 := (Nat.log2_eq_iff (by omega)).2 ⟨lower, upper⟩
  rw [floorLog2_one (by omega), log]
  rfl

theorem Binary64.isFinite_ofNat {n : Nat} (lower : 2 ^ 63 ≤ n) (upper : n < 2 ^ 64) :
    (ofNat n).isFinite = true := by
  have positive : ¬ (n = 0 ∨ 1 = 0) := by omega
  have magnitude : ofNat n =
      ofMagnitude false (min (1085 * fractionCount + roundDiv n 2048) infinityMagnitude) := by
    rw [ofNat, ofRatio, if_neg positive, floorLog2_of_large lower upper]
    rfl
  have rounded := roundDiv_le n 2048
  have fractions : fractionCount = 2 ^ 52 := rfl
  rw [magnitude]
  apply isFinite_ofMagnitude
  simp only [infinityMagnitude, fractions]
  omega

namespace Json

def Number.normalize : Number → Number
  | natural n =>
    if below : n.toNat < 2 ^ 63 then natural n
    else real (Binary64.ofNat n.toNat) (Binary64.isFinite_ofNat (Nat.le_of_not_lt below) n.toNat_lt)
  | n => n

mutual

def normalizeLiteral : Json → Json
  | number n => number n.normalize
  | array items => array (normalizeLiterals items)
  | document => document

def normalizeLiterals : List Json → List Json
  | [] => []
  | item :: rest => normalizeLiteral item :: normalizeLiterals rest

end

namespace Number

theorem toInt64?_ofInt64 (n : Int64) : (ofInt64 n).toInt64? = some n := by
  unfold ofInt64
  split
  · rfl
  · next nonneg =>
    have lower : 0 ≤ n.toInt := by
      rw [Int64.lt_iff_toInt_lt] at nonneg
      simpa using nonneg
    have upper : n.toInt < 2 ^ 63 := Int64.toInt_lt n
    have size : (UInt64.ofNat n.toInt.toNat).toNat = n.toInt.toNat := by
      apply UInt64.toNat_ofNat_of_lt'
      change n.toInt.toNat < 2 ^ 64
      omega
    have below : n.toInt.toNat < Nat.pow 2 63 := by
      change n.toInt.toNat < 2 ^ 63
      omega
    rw [toInt64?, size, if_pos below, Int.toNat_of_nonneg lower, Int64.ofInt_toInt]

theorem ofInt64_ofInt {n : UInt64} (below : n.toNat < 2 ^ 63) :
    ofInt64 (Int64.ofInt n.toNat) = natural n := by
  have whole : (Int64.ofInt n.toNat).toInt = n.toNat :=
    Int64.toInt_ofInt_of_le (by omega) (by omega)
  have nonneg : ¬ Int64.ofInt n.toNat < 0 := by
    rw [Int64.lt_iff_toInt_lt, whole]
    simp
  rw [ofInt64, dif_neg nonneg, whole]
  simp

end Number

end Json

/-! ## Values -/

namespace Value

mutual

def finite : Value → Bool
  | real x => x.isFinite
  | list items => finiteItems items
  | _ => true

def finiteItems : List Value → Bool
  | [] => true
  | item :: rest => finite item && finiteItems rest

end

theorem ofNumber_ofInt64 (n : Int64) : ofNumber (.ofInt64 n) = integer n := by
  rw [ofNumber, Json.Number.toInt64?_ofInt64]

mutual

theorem ofJson_toJson (v : Value) :
    ofJson v.toJson = if v.finite then .ok v else .error (.invalidLiteral "null") := by
  cases v with
  | real x =>
      by_cases fin : x.isFinite = true
      · simp [toJson, Json.Number.ofBinary64?, fin, ofJson, ofNumber, Json.Number.toInt64?,
          Json.Number.toBinary64, finite]
      · simp [toJson, Json.Number.ofBinary64?, fin, ofJson, finite]
  | integer n => simp [toJson, ofJson, ofNumber_ofInt64, finite]
  | boolean b => simp [toJson, ofJson, finite]
  | text s => simp [toJson, ofJson, finite]
  | list items =>
      rw [toJson, ofJson, ofJsonItems_toJsonItems items, finite]
      split <;> rfl

theorem ofJsonItems_toJsonItems (items : List Value) :
    ofJsonItems (toJsonItems items) =
      if finiteItems items then .ok items else .error (.invalidLiteral "null") := by
  cases items with
  | nil => rfl
  | cons item rest =>
      rw [toJsonItems, ofJsonItems, ofJson_toJson item, ofJsonItems_toJsonItems rest, finiteItems]
      cases item.finite <;> cases finiteItems rest <;> rfl

end

theorem toJson_ofNumber (n : Json.Number) :
    (ofNumber n).toJson = .number n.normalize ∧ (ofNumber n).finite = true := by
  cases n with
  | natural n =>
      by_cases below : n.toNat < 2 ^ 63
      · have machine : (Json.Number.natural n).toInt64? = some (Int64.ofInt n.toNat) := if_pos below
        rw [ofNumber, machine, Json.Number.normalize, dif_pos below]
        exact ⟨congrArg Json.number (Json.Number.ofInt64_ofInt below), rfl⟩
      · have beyond : (Json.Number.natural n).toInt64? = none := if_neg below
        have finite := Binary64.isFinite_ofNat (Nat.le_of_not_lt below) n.toNat_lt
        rw [ofNumber, beyond, Json.Number.normalize, dif_neg below]
        simp [toJson, Json.Number.toBinary64, Json.Number.ofBinary64?, finite, Value.finite]
  | negative n below =>
      simp [ofNumber, Json.Number.toInt64?, toJson, Json.Number.ofInt64, below, finite,
        Json.Number.normalize]
  | real x bounded =>
      simp [ofNumber, Json.Number.toInt64?, Json.Number.toBinary64, toJson,
        Json.Number.ofBinary64?, bounded, finite, Json.Number.normalize]

mutual

theorem toJson_of_ofJson (j : Json) {v : Value} (read : ofJson j = .ok v) :
    v.toJson = j.normalizeLiteral ∧ v.finite = true := by
  cases j with
  | null => simp [ofJson] at read
  | bool b =>
      obtain rfl := Except.ok.inj read
      exact ⟨rfl, rfl⟩
  | number n =>
      obtain rfl := Except.ok.inj read
      exact toJson_ofNumber n
  | string s =>
      obtain rfl := Except.ok.inj read
      exact ⟨rfl, rfl⟩
  | array items =>
      rw [ofJson, map_eq_ok] at read
      obtain ⟨values, listed, rfl⟩ := read
      obtain ⟨written, finite⟩ := toJsonItems_of_ofJsonItems items listed
      exact ⟨congrArg Json.array written, finite⟩
  | object fields => simp [ofJson] at read

theorem toJsonItems_of_ofJsonItems (items : List Json) {values : List Value}
    (read : ofJsonItems items = .ok values) :
    toJsonItems values = Json.normalizeLiterals items ∧ finiteItems values = true := by
  cases items with
  | nil =>
      obtain rfl := Except.ok.inj read
      exact ⟨rfl, rfl⟩
  | cons item rest =>
      rw [ofJsonItems, both_eq_ok] at read
      obtain ⟨value, others, first, later, rfl⟩ := read
      obtain ⟨head, bounded⟩ := toJson_of_ofJson item first
      obtain ⟨tail, all⟩ := toJsonItems_of_ofJsonItems rest later
      rw [toJsonItems, Json.normalizeLiterals, finiteItems, head, tail, bounded, all]
      exact ⟨rfl, rfl⟩

end

end Value

/-! ## Readable literals -/

inductive Json.IsLiteral : Json → Prop where
  | bool (b : Bool) : IsLiteral (.bool b)
  | number (n : Json.Number) : IsLiteral (.number n)
  | string (s : String) : IsLiteral (.string s)
  | array {items : List Json} (each : ∀ item ∈ items, IsLiteral item) : IsLiteral (.array items)

theorem Json.isLiteral_array {items : List Json} :
    (Json.array items).IsLiteral ↔ ∀ item ∈ items, item.IsLiteral :=
  ⟨fun | .array each => each, .array⟩

namespace Value

mutual

theorem exists_ofJson_iff (j : Json) : (∃ v, ofJson j = .ok v) ↔ j.IsLiteral := by
  cases j with
  | null => exact ⟨fun ⟨_, read⟩ => by simp [ofJson] at read, nofun⟩
  | bool b => exact ⟨fun _ => .bool b, fun _ => ⟨_, rfl⟩⟩
  | number n => exact ⟨fun _ => .number n, fun _ => ⟨_, rfl⟩⟩
  | string s => exact ⟨fun _ => .string s, fun _ => ⟨_, rfl⟩⟩
  | array items =>
      rw [Json.isLiteral_array, ← exists_ofJsonItems_iff items]
      simp only [ofJson, map_eq_ok]
      exact ⟨fun ⟨_, values, read, _⟩ => ⟨values, read⟩, fun ⟨values, read⟩ => ⟨_, values, read, rfl⟩⟩
  | object fields => exact ⟨fun ⟨_, read⟩ => by simp [ofJson] at read, nofun⟩

theorem exists_ofJsonItems_iff (items : List Json) :
    (∃ values, ofJsonItems items = .ok values) ↔ ∀ item ∈ items, item.IsLiteral := by
  cases items with
  | nil => exact ⟨fun _ => nofun, fun _ => ⟨_, rfl⟩⟩
  | cons item rest =>
      rw [List.forall_mem_cons, ← exists_ofJson_iff item, ← exists_ofJsonItems_iff rest]
      simp only [ofJsonItems, both_eq_ok]
      constructor
      · rintro ⟨_, value, values, first, later, rfl⟩
        exact ⟨⟨value, first⟩, values, later⟩
      · rintro ⟨⟨value, first⟩, values, later⟩
        exact ⟨_, value, values, first, later, rfl⟩

end

end Value

end BlockScript
