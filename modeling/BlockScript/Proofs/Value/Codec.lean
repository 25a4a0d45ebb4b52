import BlockScript.Proofs.Document.Literals

/-!
# Values written and read

What it takes for a value to come back from its literal, and for a literal to come back from the
value that is read from it, said by what occurs in them at any depth (`literals_exchanged`).

Literals are compared by a relation on their numbers.  Of it nothing is needed but that it holds of
equal numbers and keeps naturals apart from reals, so that it may take the two zeros for one.
-/

namespace BlockScript

/-! ## Finite reals -/

theorem Binary64.eq_infinity {x : Binary64} (infinite : x.magnitude = infinityMagnitude) :
    x = infinity x.negative := by
  have small : infinityMagnitude < signThreshold := by decide
  apply rank_injective
  rw [infinity, rank_ofMagnitude small, rank, infinite]

theorem Binary64.isFinite_iff (x : Binary64) :
    x.isFinite = true ↔ x.isNaN = false ∧ ∀ negative, x ≠ infinity negative := by
  have small : infinityMagnitude < signThreshold := by decide
  simp only [isFinite, isNaN, decide_eq_true_eq, decide_eq_false_iff_not]
  constructor
  · intro below
    refine ⟨Nat.lt_asymm below, ?_⟩
    rintro negative rfl
    rw [infinity, magnitude_ofMagnitude small] at below
    exact Nat.lt_irrefl _ below
  · rintro ⟨isNumber, bounded⟩
    exact (Nat.le_of_not_lt isNumber).lt_of_ne fun infinite => bounded _ (eq_infinity infinite)

namespace Value

inductive Within (part : Value) : Value → Prop where
  | refl : Within part part
  | item {items : List Value} {item : Value} (member : item ∈ items) (within : Within part item) :
      Within part (.list items)

theorem real_within_list {x : Binary64} {items : List Value} :
    (real x).Within (list items) ↔ ∃ item ∈ items, (real x).Within item := by
  constructor
  · rintro (_ | ⟨member, within⟩)
    exact ⟨_, member, within⟩
  · rintro ⟨item, member, within⟩
    exact .item member within

mutual

theorem finite_iff (v : Value) :
    v.finite = true ↔ ∀ x, (real x).Within v → x.isFinite = true := by
  cases v with
  | real x =>
      refine ⟨fun finite y within => ?_, fun all => all x .refl⟩
      cases within
      exact finite
  | integer | boolean | text => exact iff_of_true rfl nofun
  | list items =>
      rw [finite, finiteItems_iff items]
      simp only [real_within_list]
      exact ⟨fun all x ⟨item, member, within⟩ => all item member x within,
        fun all item member x within => all x ⟨item, member, within⟩⟩

theorem finiteItems_iff (items : List Value) :
    finiteItems items = true ↔ ∀ item ∈ items, ∀ x, (real x).Within item → x.isFinite = true := by
  cases items with
  | nil => exact iff_of_true rfl nofun
  | cons item rest =>
      rw [finiteItems, Bool.and_eq_true, finite_iff item, finiteItems_iff rest,
        List.forall_mem_cons]

end

end Value

namespace Json

inductive Within (part : Json) : Json → Prop where
  | refl : Within part part
  | item {items : List Json} {item : Json} (member : item ∈ items) (within : Within part item) :
      Within part (.array items)
  | field {fields : List (String × Json)} {field : String × Json} (member : field ∈ fields)
      (within : Within part field.2) : Within part (.object fields)

theorem IsLiteral.not_within {j : Json} (literal : j.IsLiteral) :
    ¬ null.Within j ∧ ∀ fields, ¬ (object fields).Within j := by
  induction literal with
  | bool | number | string => exact ⟨nofun, nofun⟩
  | array each ih =>
      constructor
      · rintro (_ | ⟨member, within⟩)
        exact (ih _ member).1 within
      · rintro fields (_ | ⟨member, within⟩)
        exact (ih _ member).2 fields within

mutual

theorem isLiteral_of_not_within (j : Json) (noNull : ¬ null.Within j)
    (noObject : ∀ fields, ¬ (object fields).Within j) : j.IsLiteral := by
  cases j with
  | null => exact absurd .refl noNull
  | bool b => exact .bool b
  | number n => exact .number n
  | string s => exact .string s
  | array items =>
      exact .array (isLiteral_items items (fun _ member within => noNull (.item member within))
        fun _ member fields within => noObject fields (.item member within))
  | object fields => exact absurd .refl (noObject fields)

theorem isLiteral_items (items : List Json) (noNull : ∀ item ∈ items, ¬ null.Within item)
    (noObject : ∀ item ∈ items, ∀ fields, ¬ (object fields).Within item) :
    ∀ item ∈ items, item.IsLiteral := by
  cases items with
  | nil => exact nofun
  | cons item rest =>
      rw [List.forall_mem_cons] at *
      exact ⟨isLiteral_of_not_within item noNull.1 noObject.1,
        isLiteral_items rest noNull.2 noObject.2⟩

end

theorem isLiteral_iff (j : Json) :
    j.IsLiteral ↔ ¬ null.Within j ∧ ∀ fields, ¬ (object fields).Within j :=
  ⟨IsLiteral.not_within, fun ⟨noNull, noObject⟩ => isLiteral_of_not_within j noNull noObject⟩

/-! ## Comparing literals -/

mutual

/-- Two values differ in their numbers only, and those that stand at the same place are the same by
the given relation. -/
inductive Alike (same : Number → Number → Prop) : Json → Json → Prop where
  | null : Alike same .null .null
  | bool (b : Bool) : Alike same (.bool b) (.bool b)
  | number {n m : Number} (is : same n m) : Alike same (.number n) (.number m)
  | string (s : String) : Alike same (.string s) (.string s)
  | array {items items' : List Json} (each : AlikeItems same items items') :
      Alike same (.array items) (.array items')
  | object {fields fields' : List (String × Json)} (each : AlikeFields same fields fields') :
      Alike same (.object fields) (.object fields')

inductive AlikeItems (same : Number → Number → Prop) : List Json → List Json → Prop where
  | nil : AlikeItems same [] []
  | cons {item item' : Json} {rest rest' : List Json} (first : Alike same item item')
      (later : AlikeItems same rest rest') : AlikeItems same (item :: rest) (item' :: rest')

inductive AlikeFields (same : Number → Number → Prop) :
    List (String × Json) → List (String × Json) → Prop where
  | nil : AlikeFields same [] []
  | cons (name : String) {field field' : Json} {rest rest' : List (String × Json)}
      (first : Alike same field field') (later : AlikeFields same rest rest') :
      AlikeFields same ((name, field) :: rest) ((name, field') :: rest')

end

variable {same : Number → Number → Prop}

mutual

theorem alike_refl (reflexive : ∀ n, same n n) (j : Json) : Alike same j j := by
  cases j with
  | null => exact .null
  | bool b => exact .bool b
  | number n => exact .number (reflexive n)
  | string s => exact .string s
  | array items => exact .array (alikeItems_refl reflexive items)
  | object fields => exact .object (alikeFields_refl reflexive fields)

theorem alikeItems_refl (reflexive : ∀ n, same n n) (items : List Json) :
    AlikeItems same items items := by
  cases items with
  | nil => exact .nil
  | cons item rest => exact .cons (alike_refl reflexive item) (alikeItems_refl reflexive rest)

theorem alikeFields_refl (reflexive : ∀ n, same n n) (fields : List (String × Json)) :
    AlikeFields same fields fields := by
  cases fields with
  | nil => exact .nil
  | cons field rest =>
      exact .cons field.1 (alike_refl reflexive field.2) (alikeFields_refl reflexive rest)

end

def Number.Equal : Number → Number → Prop
  | real x _, real y _ => x.equal y = true
  | n, m => n = m

theorem Number.equal_refl (n : Number) : n.Equal n := by
  cases n with
  | natural | negative => rfl
  | real x finite =>
      obtain ⟨isNumber, -⟩ := (Binary64.isFinite_iff x).1 finite
      simp [Equal, Binary64.equal, isNumber]

/-! ## Naturals beyond the machine integers -/

def Bounded (j : Json) : Prop := ∀ n, (number (.natural n)).Within j → n.toNat < 2 ^ 63

theorem Bounded.item {items : List Json} {item : Json} (bounded : (array items).Bounded)
    (member : item ∈ items) : item.Bounded := fun n within => bounded n (.item member within)

mutual

theorem Bounded.normalizeLiteral_eq_self {j : Json} (bounded : j.Bounded) :
    j.normalizeLiteral = j := by
  cases j with
  | number n =>
      cases n with
      | natural n => exact congrArg number (dif_pos (bounded n .refl))
      | negative | real => rfl
  | array items =>
      exact congrArg array (normalizeLiterals_eq_self fun _ member => bounded.item member)
  | null | bool | string | object => rfl

theorem normalizeLiterals_eq_self {items : List Json} (bounded : ∀ item ∈ items, item.Bounded) :
    normalizeLiterals items = items := by
  cases items with
  | nil => rfl
  | cons item rest =>
      obtain ⟨first, later⟩ := List.forall_mem_cons.1 bounded
      rw [normalizeLiterals, first.normalizeLiteral_eq_self, normalizeLiterals_eq_self later]

end

mutual

theorem bounded_of_alike (apart : ∀ x finite n, ¬ same (.real x finite) (.natural n)) {j : Json}
    (literal : j.IsLiteral) (alike : Alike same j.normalizeLiteral j) : j.Bounded := by
  cases j with
  | null | bool | string => exact nofun
  | number m =>
      rintro n ⟨⟩
      by_contra beyond
      have changed : (number (.natural n)).normalizeLiteral = number (.real _ _) :=
        congrArg number (dif_neg beyond)
      rw [changed] at alike
      obtain ⟨⟩ | ⟨⟩ | is := alike
      exact apart _ _ _ is
  | array items =>
      obtain ⟨⟩ | ⟨⟩ | ⟨⟩ | ⟨⟩ | each := alike
      rintro n (_ | ⟨member, within⟩)
      exact bounded_of_alikeItems apart (isLiteral_array.1 literal) each _ member n within
  | object fields => cases literal

theorem bounded_of_alikeItems (apart : ∀ x finite n, ¬ same (.real x finite) (.natural n))
    {items : List Json} (literals : ∀ item ∈ items, item.IsLiteral)
    (each : AlikeItems same (normalizeLiterals items) items) : ∀ item ∈ items, item.Bounded := by
  cases items with
  | nil => exact nofun
  | cons item rest =>
      obtain ⟨literal, literals⟩ := List.forall_mem_cons.1 literals
      obtain _ | ⟨first, later⟩ := each
      exact List.forall_mem_cons.2
        ⟨bounded_of_alike apart literal first, bounded_of_alikeItems apart literals later⟩

end

theorem alike_normalizeLiteral_iff (reflexive : ∀ n, same n n)
    (apart : ∀ x finite n, ¬ same (.real x finite) (.natural n)) {j : Json}
    (literal : j.IsLiteral) : Alike same j.normalizeLiteral j ↔ j.Bounded := by
  refine ⟨bounded_of_alike apart literal, fun bounded => ?_⟩
  rw [bounded.normalizeLiteral_eq_self]
  exact alike_refl reflexive j

theorem normalizeLiteral_eq_self_iff {j : Json} (literal : j.IsLiteral) :
    j.normalizeLiteral = j ↔ j.Bounded := by
  refine ⟨fun eq => ?_, Bounded.normalizeLiteral_eq_self⟩
  have alike : Alike Eq j.normalizeLiteral j := eq.symm ▸ alike_refl (fun _ => rfl) j
  exact bounded_of_alike nofun literal alike

end Json

namespace Value

/-! ## Both directions -/

theorem exists_ofJson_toJson_iff (v : Value) :
    (∃ w, ofJson v.toJson = .ok w) ↔ v.finite = true := by
  rw [ofJson_toJson]
  split
  next finite => exact iff_of_true ⟨v, rfl⟩ finite
  next infinite => exact iff_of_false nofun infinite

theorem ofJson_toJson_of_finite {v : Value} (finite : v.finite = true) :
    ofJson v.toJson = .ok v := by
  rw [ofJson_toJson, if_pos finite]

/-- A value comes back from its literal exactly if no infinity and no not-a-number occurs in it.  A
literal, in which no null and no object occurs, comes back from its value exactly if no natural
beyond the machine integers occurs in it, and its value comes back in any case. -/
theorem literals_exchanged :
    (∀ v : Value,
      ((∃ w, ofJson v.toJson = .ok w) ↔
        ∀ x, (real x).Within v → x.isNaN = false ∧ ∀ negative, x ≠ .infinity negative) ∧
      ∀ w, ofJson v.toJson = .ok w → w = v) ∧
    ∀ j : Json,
      ((∃ v, ofJson j = .ok v) ↔ ¬ Json.null.Within j ∧ ∀ fields, ¬ (Json.object fields).Within j) ∧
      ∀ v, ofJson j = .ok v →
        (v.toJson = j ↔ j.Bounded) ∧
        (∀ same : Json.Number → Json.Number → Prop, (∀ n, same n n) →
          (∀ x finite n, ¬ same (.real x finite) (.natural n)) →
          (Json.Alike same v.toJson j ↔ j.Bounded)) ∧
        ofJson v.toJson = .ok v := by
  refine ⟨fun v => ⟨?_, fun w back => ?_⟩, fun j => ⟨?_, fun v read => ?_⟩⟩
  · rw [exists_ofJson_toJson_iff, finite_iff]
    simp only [Binary64.isFinite_iff]
  · have finite := (exists_ofJson_toJson_iff v).1 ⟨w, back⟩
    exact (Except.ok.inj ((ofJson_toJson_of_finite finite).symm.trans back)).symm
  · rw [exists_ofJson_iff, Json.isLiteral_iff]
  · have literal := (exists_ofJson_iff j).1 ⟨v, read⟩
    obtain ⟨written, finite⟩ := toJson_of_ofJson j read
    rw [written]
    refine ⟨Json.normalizeLiteral_eq_self_iff literal, fun same reflexive apart => ?_, ?_⟩
    · exact Json.alike_normalizeLiteral_iff reflexive apart literal
    · rw [← written]
      exact ofJson_toJson_of_finite finite

/-- In a list inside a list, the integer `3` and the real `3` come back as what they are.  The
natural `2 ^ 63` becomes a real, which is another literal. -/
theorem literals_exchanged_natural :
    let three := Value.list [.list [.integer 3, .real (Binary64.ofInt 3)]]
    let large := Json.array [.array [.number (.natural (Nat.pow 2 63).toUInt64)]]
    let read := Value.list [.list [.real (Binary64.ofInt (Nat.pow 2 63))]]
    ofJson three.toJson = .ok three ∧
    ofJson large = .ok read ∧ read.toJson ≠ large ∧
      ¬ Json.Alike Json.Number.Equal read.toJson large ∧ ofJson read.toJson = .ok read := by
  intro three large read
  have finite : three.finite = true := by decide +kernel
  obtain ⟨w, back⟩ := (literals_exchanged.1 three).1.2
    (by simpa only [← Binary64.isFinite_iff] using (finite_iff three).1 finite)
  have same := (literals_exchanged.1 three).2 w back
  subst same
  have reads : ofJson large = .ok read := rfl
  obtain ⟨written, alike, again⟩ := (literals_exchanged.2 large).2 read reads
  have unbounded : ¬ large.Bounded := by
    intro bounded
    have below := bounded _ (.item List.mem_cons_self (.item List.mem_cons_self .refl))
    exact absurd below (by decide +kernel)
  refine ⟨back, reads, fun eq => unbounded (written.1 eq), fun same => unbounded ?_, again⟩
  exact (alike Json.Number.Equal Json.Number.equal_refl nofun).1 same

end Value

end BlockScript
