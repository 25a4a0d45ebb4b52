import BlockScript.Node.Document

/-!
# Reading, case by case

One equation for each form of document: a node by the kind that its code names, a payload by the
category of that kind, an item of a slot by whether it is an object, and the fields of a control
block by name.
-/

namespace BlockScript.Document

variable {κ : Type} [Vocabulary κ]

def readLiteral (item : Json) : Result (Input κ) :=
  match Value.ofJson item with
  | .ok value => .ok (.literal value)
  | .error e => malformed (.literal e)

def readItem (registry : Registry κ) (item : Json) : Result (Input κ) :=
  match item with
  | .object _ => (readNode registry item).map Input.node
  | _ => readLiteral item

theorem readItems_cons (registry : Registry κ) (item : Json) (rest : List Json) :
    readItems registry (item :: rest) = do
      let input ← readItem registry item
      let inputs ← readItems registry rest
      return input :: inputs := by
  cases item with
  | object fields =>
      rw [readItems]
      rfl
  | null | bool | number | string | array =>
      rw [readItems, readItem, readLiteral]
      · generalize Value.ofJson _ = literal
        cases literal <;> rfl
      all_goals simp

theorem readInputsIn_eq (registry : Registry κ) (k : Kind) (fields : List (String × Json)) :
    readInputsIn registry k fields = (findEntry inputField fields).map (readInputs registry k) := by
  induction fields with
  | nil => rw [readInputsIn, findEntry, Option.map_none]
  | cons field rest ih =>
      obtain ⟨name, value⟩ := field
      rw [readInputsIn, findEntry, ih]
      by_cases h : name = inputField
      · rw [if_pos h, if_pos h.symm, Option.map_some]
      · rw [if_neg h, if_neg (Ne.symm h)]

theorem readListIn_eq (registry : Registry κ) (field : String) (fields : List (String × Json)) :
    readListIn registry field fields = (findEntry field fields).map (readList registry) := by
  induction fields with
  | nil => rw [readListIn, findEntry, Option.map_none]
  | cons entry rest ih =>
      obtain ⟨name, value⟩ := entry
      rw [readListIn, findEntry, ih]
      by_cases h : name = field
      · rw [if_pos h, if_pos h.symm, Option.map_some]
      · rw [if_neg h, if_neg (Ne.symm h)]

theorem checked_eq_ok {payload : Json} {n m : Node κ} :
    checked payload n = .ok m ↔ n.fits = true ∧ m = n := by
  unfold checked Node.checked?
  by_cases fits : n.fits = true
  · simp [fits, eq_comm]
  · simp [fits, malformed]

theorem required_eq_ok {α : Type} {name : String} {payload : Json} {found : Option (Result α)}
    {a : α} : required name payload found = .ok a ↔ found = some (.ok a) := by
  cases found with
  | none => simp [required, malformed]
  | some result => simp [required]

theorem fitting_of_length {k : Kind} {items : List Json}
    (length : items.length = k.slots.length) : fitting k items = .ok () := by
  rw [fitting, if_pos length]

theorem readItem_object (registry : Registry κ) (fields : List (String × Json)) :
    readItem registry (.object fields) = (readNode registry (.object fields)).map Input.node := rfl

theorem readNode_object {registry : Registry κ} {text : String} {k : κ} (payload : Json)
    (resolves : registry.resolve? text = some k) :
    readNode registry (.object [(text, payload)]) = readPayload registry k text payload := by
  rw [readNode, resolves]

theorem readPayload_block {registry : Registry κ} {k : κ} (text : String) (payload : Json)
    (category : (describe k).category = .statement ∨ (describe k).category = .expression) :
    readPayload registry k text payload =
      (readInputs registry (describe k) payload >>= fun inputs =>
        checked payload (.block k inputs)) := by
  rcases category with h | h
  all_goals
    cases payload with
    | array items => simp only [readPayload, h, readInputs, bind_assoc]
    | null | bool | number | string | object =>
        simp only [readPayload, h, readInputs]
        rfl

theorem readPayload_control {registry : Registry κ} {k : κ} {flow : Flow} (text : String)
    (fields : List (String × Json)) (category : (describe k).category = .control flow) :
    readPayload registry k text (.object fields) = (do
      let inputs ← required inputField (.object fields)
        ((findEntry inputField fields).map (readInputs registry (describe k)))
      let bodies ← (bodyFields.take flow.bodyCount).mapM fun field =>
        required field (.object fields) ((findEntry field fields).map (readList registry))
      checked (.object fields) (.control k inputs bodies)) := by
  simp only [readPayload, category, readInputsIn_eq, readListIn_eq]

theorem readPayload_reference {registry : Registry κ} {k : κ} (text name : String)
    (category : (describe k).category = .reference) :
    readPayload registry k text (.string name) = .ok (.reference k name) := by
  simp only [readPayload, category]

end BlockScript.Document
