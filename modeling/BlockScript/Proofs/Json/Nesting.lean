import BlockScript.Proofs.Document.Literals
import BlockScript.Proofs.Json.RoundTrip

/-!
# How deep text nests

`Legible` says of a value exactly how deep it nests, besides all that reading it from its text takes;
whether it is read is then a matter of the limit alone (`Legible.parse?_compact`).  The lemmas build
it up along a value: containers add one to the deepest of their entries.  A literal nests as deep as
its lists do (`orderly_toJson`).
-/

namespace BlockScript

namespace Value

mutual

def nesting : Value → Nat
  | list items => nestingItems items + 1
  | _ => 0

def nestingItems : List Value → Nat
  | [] => 0
  | item :: rest => max (nesting item) (nestingItems rest)

end

theorem nestingItems_le {items : List Value} {depth : Nat} :
    nestingItems items ≤ depth ↔ ∀ item ∈ items, item.nesting ≤ depth := by
  induction items with
  | nil => simp [nestingItems]
  | cons item rest ih => rw [nestingItems, Nat.max_le, ih, List.forall_mem_cons]

end Value

namespace Json

theorem orderly_array {items : List Json} {nesting : Nat}
    (inside : ∀ depth, (∀ item ∈ items, item.Orderly depth) ↔ nesting ≤ depth) (depth : Nat) :
    (array items).Orderly depth ↔ nesting + 1 ≤ depth := by
  cases depth with
  | zero => exact iff_of_false nofun (Nat.not_succ_le_zero _)
  | succ depth =>
      rw [Nat.succ_le_succ_iff, ← inside depth]
      refine ⟨fun orderly => ?_, .array⟩
      cases orderly with
      | array each => exact each

theorem orderly_object {fields : List (String × Json)} (ascending : Ascending fields)
    {nesting : Nat}
    (inside : ∀ depth, (∀ field ∈ fields, field.2.Orderly depth) ↔ nesting ≤ depth) (depth : Nat) :
    (object fields).Orderly depth ↔ nesting + 1 ≤ depth := by
  cases depth with
  | zero => exact iff_of_false nofun (Nat.not_succ_le_zero _)
  | succ depth =>
      rw [Nat.succ_le_succ_iff, ← inside depth]
      refine ⟨fun orderly => ?_, .object ascending⟩
      cases orderly with
      | object _ each => exact each

end Json

namespace Value

mutual

theorem orderly_toJson (v : Value) (depth : Nat) : v.toJson.Orderly depth ↔ v.nesting ≤ depth := by
  cases v with
  | real x =>
      refine iff_of_true ?_ (Nat.zero_le depth)
      rw [toJson]
      split
      · exact .number depth _
      · exact .null depth
  | integer n => exact iff_of_true (.number depth _) (Nat.zero_le depth)
  | boolean b => exact iff_of_true (.bool depth b) (Nat.zero_le depth)
  | text s => exact iff_of_true (.string depth s) (Nat.zero_le depth)
  | list items =>
      rw [toJson, nesting]
      exact Json.orderly_array (orderly_toJsonItems items) depth

theorem orderly_toJsonItems (items : List Value) (depth : Nat) :
    (∀ item ∈ toJsonItems items, item.Orderly depth) ↔ nestingItems items ≤ depth := by
  cases items with
  | nil => simp [toJsonItems, nestingItems]
  | cons item rest =>
      rw [toJsonItems, nestingItems, Nat.max_le, List.forall_mem_cons, orderly_toJson item depth,
        orderly_toJsonItems rest depth]

end

/-! ## Reals -/

mutual

def realFree : Value → Bool
  | real _ => false
  | list items => realFreeItems items
  | _ => true

def realFreeItems : List Value → Bool
  | [] => true
  | item :: rest => realFree item && realFreeItems rest

end

mutual

theorem finite_of_realFree (v : Value) (free : v.realFree = true) : v.finite = true := by
  cases v with
  | real x => simp [realFree] at free
  | integer | boolean | text => rfl
  | list items => exact finiteItems_of_realFree items free

theorem finiteItems_of_realFree (items : List Value) (free : realFreeItems items = true) :
    finiteItems items = true := by
  cases items with
  | nil => rfl
  | cons item rest =>
      obtain ⟨here, later⟩ := Bool.and_eq_true_iff.1 free
      rw [finiteItems, finite_of_realFree item here, finiteItems_of_realFree rest later]
      rfl

end

theorem exact_ofInt64 (n : Int64) : (Json.Number.ofInt64 n).Exact := by
  unfold Json.Number.ofInt64
  split
  · next below => exact Json.exact_negative n below
  · exact Json.exact_natural _

mutual

theorem exact_toJson (v : Value) (free : v.realFree = true) (n : Json.Number)
    (holds : v.toJson.Holds n) : n.Exact := by
  cases v with
  | real x => simp [realFree] at free
  | integer i =>
      obtain rfl := Json.holds_number.1 holds
      exact exact_ofInt64 i
  | boolean b => cases holds
  | text s => cases holds
  | list items =>
      obtain ⟨item, mem, inside⟩ := Json.holds_array.1 holds
      exact exact_toJsonItems items free item mem n inside

theorem exact_toJsonItems (items : List Value) (free : realFreeItems items = true) (item : Json)
    (mem : item ∈ toJsonItems items) (n : Json.Number) (holds : item.Holds n) : n.Exact := by
  cases items with
  | nil => cases mem
  | cons first rest =>
      obtain ⟨here, later⟩ := Bool.and_eq_true_iff.1 free
      rcases List.mem_cons.1 mem with rfl | mem
      · exact exact_toJson first here n holds
      · exact exact_toJsonItems rest later item mem n holds

end

end Value

/-! ## Legible values -/

namespace Json

/-- Containers nest exactly `nesting` deep, and nothing but that may keep the value from being read
from its text. -/
structure Legible (nesting : Nat) (j : Json) : Prop where
  orderly : ∀ depth, j.Orderly depth ↔ nesting ≤ depth
  exact : ∀ n, j.Holds n → n.Exact

structure LegibleAll (nesting : Nat) (items : List Json) : Prop where
  orderly : ∀ depth, (∀ item ∈ items, item.Orderly depth) ↔ nesting ≤ depth
  exact : ∀ item ∈ items, ∀ n, item.Holds n → n.Exact

theorem Legible.parse?_compact {nesting : Nat} {j : Json} (legible : j.Legible nesting) :
    parse? j.compact = if nesting ≤ depthLimit then some j else none := by
  split
  · next shallow => exact Json.parse?_compact ((legible.orderly _).2 shallow) legible.exact
  · next deep =>
    have orderly := (legible.orderly nesting).2 (Nat.le_refl nesting)
    exact parse?_compact_of_deep orderly (mt (legible.orderly _).1 deep) legible.exact

theorem legible_string (s : String) : (string s).Legible 0 where
  orderly depth := iff_of_true (.string depth s) (Nat.zero_le depth)
  exact := nofun

theorem legible_toJson {v : Value} (free : v.realFree = true) : v.toJson.Legible v.nesting where
  orderly := v.orderly_toJson
  exact := v.exact_toJson free

namespace LegibleAll

variable {m n : Nat} {item : Json} {items : List Json}

theorem nil : LegibleAll 0 [] where
  orderly depth := iff_of_true (List.forall_mem_nil _) (Nat.zero_le depth)
  exact := List.forall_mem_nil _

theorem cons (first : item.Legible m) (rest : LegibleAll n items) :
    LegibleAll (max m n) (item :: items) where
  orderly depth := by
    rw [List.forall_mem_cons, Nat.max_le, first.orderly, rest.orderly]
  exact := List.forall_mem_cons.2 ⟨first.exact, rest.exact⟩

theorem append {others : List Json} (first : LegibleAll m items) (second : LegibleAll n others) :
    LegibleAll (max m n) (items ++ others) where
  orderly depth := by
    rw [List.forall_mem_append, Nat.max_le, first.orderly, second.orderly]
  exact := List.forall_mem_append.2 ⟨first.exact, second.exact⟩

theorem single (only : item.Legible n) : LegibleAll n [item] := by
  have whole := cons only nil
  rwa [Nat.max_zero] at whole

theorem array (inside : LegibleAll n items) : (array items).Legible (n + 1) where
  orderly := orderly_array inside.orderly
  exact m holds := by
    obtain ⟨item, mem, inner⟩ := holds_array.1 holds
    exact inside.exact item mem m inner

theorem object {fields : List (String × Json)} (ascending : Ascending fields)
    (inside : LegibleAll n (fields.map (·.2))) : (object fields).Legible (n + 1) where
  orderly := by
    refine orderly_object ascending fun depth => ?_
    rw [← inside.orderly, List.forall_mem_map]
  exact m holds := by
    obtain ⟨field, mem, inner⟩ := holds_object.1 holds
    exact inside.exact field.2 (List.mem_map_of_mem mem) m inner

end LegibleAll

theorem Legible.field {nesting : Nat} {j : Json} (legible : j.Legible nesting) (name : String) :
    (Json.object [(name, j)]).Legible (nesting + 1) :=
  LegibleAll.object (List.pairwise_singleton _ _) (.single legible)

end Json

end BlockScript
