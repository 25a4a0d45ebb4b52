import BlockScript.Catalog.Standard
import BlockScript.Proofs.Document.Reading
import BlockScript.Proofs.Document.Writing
import Mathlib.Tactic.IntervalCases

/-!
# Growing registries

A registry grows when blocks of new kinds are added behind the blocks of its groups, and groups
behind its groups.  The positions that were there keep their kinds (`Grows.resolve?`), and since an
added kind is none of the old ones the first position of an old kind stays the first
(`Grows.codeOf?`).  Both go through to documents: what was read is read as before
(`readNode_keeps`), and what was written is written as before (`writeNode_keeps`).
-/

namespace BlockScript

variable {κ : Type} [Vocabulary κ]

namespace Registry

structure Grows (old new : Registry κ) : Prop where
  builtin : new.builtin = old.builtin
  groups : ∀ (g : Nat) (group : Group κ), old.groups[g]? = some group →
    ∃ grown : Group κ, new.groups[g]? = some grown ∧ group.blocks <+: grown.blocks
  fresh : ∀ g b k, old.at? g b = none → new.at? g b = some k → ¬ old.Registered k

omit [Vocabulary κ] in
theorem getElem?_of_isPrefix {blocks grown : List κ} (before : blocks <+: grown) {b : Nat} {k : κ}
    (listed : blocks[b]? = some k) : grown[b]? = some k := by
  obtain ⟨bound, rfl⟩ := List.getElem?_eq_some_iff.1 listed
  exact List.prefix_iff_getElem?.1 before b bound

variable {old new : Registry κ}

theorem Grows.at? (grows : old.Grows new) {g b : Nat} {k : κ} (here : old.at? g b = some k) :
    new.at? g b = some k := by
  obtain ⟨group, found, listed⟩ := at?_eq_some.1 here
  obtain ⟨grown, found', before⟩ := grows.groups g group found
  exact at?_eq_some.2 ⟨grown, found', getElem?_of_isPrefix before listed⟩

theorem Grows.resolve? (grows : old.Grows new) {code : String} {k : κ}
    (resolves : old.resolve? code = some k) : new.resolve? code = some k := by
  rw [resolve?_eq_some_iff] at resolves ⊢
  rcases resolves with ⟨word, own⟩ | ⟨g, b, spells, here⟩
  · exact .inl ⟨word, grows.builtin ▸ own⟩
  · exact .inr ⟨g, b, spells, grows.at? here⟩

section
variable [DecidableEq κ]

omit [Vocabulary κ] in
theorem locate?_of_grown {k : κ} {index : Nat} {position : Nat × Nat}
    {groups groups' : List (Group κ)}
    (grown : ∀ (g : Nat) (group : Group κ), groups[g]? = some group →
      ∃ group' : Group κ, groups'[g]? = some group' ∧ group.blocks <+: group'.blocks ∧
        (k ∈ group'.blocks → k ∈ group.blocks))
    (found : locate? k index groups = some position) :
    locate? k index groups' = some position := by
  induction groups generalizing index groups' with
  | nil => simp [locate?] at found
  | cons group rest ih =>
      obtain ⟨group', first, ⟨added, blocks⟩, only⟩ := grown 0 group rfl
      rcases groups' with _ | ⟨head, rest'⟩
      · simp at first
      obtain rfl := Option.some.inj first
      rw [locate?] at found ⊢
      cases here : group.blocks.idxOf? k with
      | some b =>
          have same : head.blocks.idxOf? k = some b := by
            rw [← blocks, List.idxOf?, List.findIdx?_append, ← List.idxOf?, here]
            rfl
          simpa only [same, here] using found
      | none =>
          have same : head.blocks.idxOf? k = none := by
            rw [List.idxOf?_eq_none_iff] at here ⊢
            exact mt only here
          simp only [here] at found
          simp only [same]
          exact ih (fun g group' at_ => grown (g + 1) group' at_) found

theorem Grows.codeOf? (grows : old.Grows new) {k : κ} {code : String}
    (written : old.codeOf? k = some code) : new.codeOf? k = some code := by
  unfold Registry.codeOf? at written ⊢
  split at written
  · next reference => rw [if_pos reference, written]
  · next plain =>
    obtain ⟨position, found, rfl⟩ := Option.map_eq_some_iff.1 written
    obtain ⟨group, -, at_, listed⟩ := locate?_eq_some found
    have registered : old.Registered k :=
      ⟨group, List.mem_of_getElem? at_, List.mem_of_getElem? listed⟩
    rw [if_neg plain]
    refine Option.map_eq_some_iff.2 ⟨position, locate?_of_grown (fun g group here => ?_) found, rfl⟩
    obtain ⟨grown, here', before⟩ := grows.groups g group here
    refine ⟨grown, here', before, fun member => ?_⟩
    -- a registered kind does not stand among the added blocks
    obtain ⟨b, stands⟩ := List.mem_iff_getElem?.1 member
    cases place : old.at? g b with
    | none => exact absurd registered (grows.fresh g b k place (at?_eq_some.2 ⟨grown, here', stands⟩))
    | some k' =>
        obtain ⟨_, here'', listed'⟩ := at?_eq_some.1 place
        obtain rfl := Option.some.inj (here.symm.trans here'')
        obtain rfl := Option.some.inj ((getElem?_of_isPrefix before listed').symm.trans stands)
        exact List.mem_of_getElem? listed'

end

end Registry

namespace Document

def Keeps {α : Type} (x y : Result α) : Prop := ∀ a, x = .ok a → y = .ok a

namespace Keeps

variable {α β : Type} {x y : Result α}

theorem refl (x : Result α) : Keeps x x := fun _ read => read

theorem error {e : DocumentError} : Keeps (.error e) y := nofun

theorem bind {f g : α → Result β} (first : Keeps x y) (next : ∀ a, Keeps (f a) (g a)) :
    Keeps (x >>= f) (y >>= g) := by
  intro b read
  obtain ⟨a, here, then_⟩ := bind_eq_ok.1 read
  exact bind_eq_ok.2 ⟨a, first a here, next a b then_⟩

theorem map (f : α → β) (first : Keeps x y) : Keeps (x.map f) (y.map f) := by
  intro b read
  obtain ⟨a, here, eq⟩ := map_eq_ok.1 read
  exact map_eq_ok.2 ⟨a, first a here, eq⟩

theorem cons {xs ys : Result (List α)} (head : Keeps x y) (tail : Keeps xs ys) :
    Keeps (do let a ← x; let as ← xs; return a :: as) (do let a ← y; let as ← ys; return a :: as) :=
  head.bind fun _ => tail.bind fun _ => refl _

theorem mapM {γ : Type} {f g : γ → Result α} (each : ∀ c, Keeps (f c) (g c)) (list : List γ) :
    Keeps (list.mapM f) (list.mapM g) := by
  induction list with
  | nil => exact refl _
  | cons c rest ih =>
      rw [List.mapM_cons, List.mapM_cons]
      exact (each c).cons ih

end Keeps

variable {old new : Registry κ}

/-! ## Reading -/

mutual

theorem readNode_keeps (grows : old.Grows new) (document : Json) :
    Keeps (readNode old document) (readNode new document) := by
  match document with
  | .object [(code, payload)] =>
      cases resolves : old.resolve? code with
      | none =>
          rw [readNode, resolves]
          exact .error
      | some k =>
          rw [readNode_object payload resolves, readNode_object payload (grows.resolve? resolves)]
          exact readPayload_keeps grows k code payload
  | .object [] | .object (_ :: _ :: _) | .null | .bool _ | .number _ | .string _ | .array _ =>
      rw [readNode]
      · exact .error
      all_goals simp

theorem readPayload_keeps (grows : old.Grows new) (k : κ) (code : String) (payload : Json) :
    Keeps (readPayload old k code payload) (readPayload new k code payload) := by
  cases category : (describe k).category with
  | reference | declaration | shadow =>
      cases payload
      all_goals
        simp only [readPayload, category]
        exact .refl _
  | control flow =>
      cases payload with
      | object fields =>
          simp only [readPayload, category]
          refine (readInputsIn_keeps grows _ _ fields).bind fun inputs => ?_
          refine (Keeps.mapM (fun field => readListIn_keeps grows field _ fields) _).bind
            fun bodies => .refl _
      | null | bool | number | string | array =>
          simp only [readPayload, category]
          exact .refl _
  | statement | expression =>
      cases payload with
      | array items =>
          simp only [readPayload, category]
          exact (Keeps.refl _).bind fun _ => (readItems_keeps grows items).bind fun _ => .refl _
      | null | bool | number | string | object =>
          simp only [readPayload, category]
          exact .refl _

theorem readItems_keeps (grows : old.Grows new) (items : List Json) :
    Keeps (readItems old items) (readItems new items) := by
  match items with
  | [] =>
      rw [readItems, readItems]
      exact .refl _
  | .object fields :: rest =>
      rw [readItems_cons, readItems_cons]
      exact ((readNode_keeps grows (.object fields)).map Input.node).cons
        (readItems_keeps grows rest)
  | .null :: rest | .bool _ :: rest | .number _ :: rest | .string _ :: rest | .array _ :: rest =>
      rw [readItems_cons, readItems_cons]
      exact (Keeps.refl _).cons (readItems_keeps grows rest)

theorem readNodes_keeps (grows : old.Grows new) (items : List Json) :
    Keeps (readNodes old items) (readNodes new items) := by
  cases items with
  | nil =>
      rw [readNodes, readNodes]
      exact .refl _
  | cons item rest =>
      rw [readNodes, readNodes]
      exact (readNode_keeps grows item).cons (readNodes_keeps grows rest)

theorem readInputsIn_keeps (grows : old.Grows new) (k : Kind) (payload : Json)
    (fields : List (String × Json)) :
    Keeps (required inputField payload (readInputsIn old k fields))
      (required inputField payload (readInputsIn new k fields)) := by
  match fields with
  | [] =>
      rw [readInputsIn, readInputsIn]
      exact .refl _
  | (name, value) :: rest =>
      rw [readInputsIn, readInputsIn]
      by_cases this : name = inputField
      · rw [if_pos this, if_pos this]
        cases value with
        | array items =>
            simp only [readInputs, required]
            exact (Keeps.refl _).bind fun _ => readItems_keeps grows items
        | null | bool | number | string | object =>
            simp only [readInputs]
            exact .refl _
      · rw [if_neg this, if_neg this]
        exact readInputsIn_keeps grows k payload rest

theorem readListIn_keeps (grows : old.Grows new) (field : String) (payload : Json)
    (fields : List (String × Json)) :
    Keeps (required field payload (readListIn old field fields))
      (required field payload (readListIn new field fields)) := by
  match fields with
  | [] =>
      rw [readListIn, readListIn]
      exact .refl _
  | (name, value) :: rest =>
      rw [readListIn, readListIn]
      by_cases this : name = field
      · rw [if_pos this, if_pos this]
        cases value with
        | array items =>
            simp only [readList, required]
            exact readNodes_keeps grows items
        | null | bool | number | string | object =>
            simp only [readList]
            exact .refl _
      · rw [if_neg this, if_neg this]
        exact readListIn_keeps grows field payload rest

end

theorem ofDocument_keeps (grows : old.Grows new) (document : Json) :
    Keeps (ofDocument old document) (ofDocument new document) := by
  cases document with
  | array items =>
      simp only [ofDocument, readList]
      exact readNodes_keeps grows items
  | null | bool | number | string | object =>
      simp only [ofDocument, readList]
      exact .refl _

/-! ## Writing -/

section
variable [DecidableEq κ]

theorem code_keeps (grows : old.Grows new) (k : κ) : Keeps (code old k) (code new k) :=
  fun _ written => code_eq_ok.2 (grows.codeOf? (code_eq_ok.1 written))

mutual

theorem writeNode_keeps (grows : old.Grows new) (n : Node κ) :
    Keeps (writeNode old n) (writeNode new n) := by
  cases n with
  | block k inputs =>
      rw [writeNode, writeNode]
      exact (code_keeps grows k).bind fun _ =>
        (writeInputs_keeps grows _ inputs).bind fun _ => .refl _
  | control k inputs bodies =>
      rw [writeNode, writeNode]
      exact (writeInputs_keeps grows _ inputs).bind fun _ =>
        (writeBodies_keeps grows _ bodies).bind fun _ => (code_keeps grows k).bind fun _ => .refl _
  | reference | declaration | shadow =>
      rw [writeNode, writeNode]
      exact .refl _

theorem writeInput_keeps (grows : old.Grows new) (slot : Option SlotKind) (input : Input κ) :
    Keeps (writeInput old slot input) (writeInput new slot input) := by
  match input with
  | .literal value =>
      rw [writeInput, writeInput]
      exact .refl _
  | .node (.shadow k shadowed (some covered)) =>
      rw [writeInput, writeInput]
      exact writeInput_keeps grows slot covered
  | .node (.shadow k shadowed none) =>
      rw [writeInput, writeInput]
      exact .refl _
  | .node (.block k inputs) =>
      rw [writeInput_node old slot rfl, writeInput_node new slot rfl]
      exact writeNode_keeps grows (.block k inputs)
  | .node (.control k inputs bodies) =>
      rw [writeInput_node old slot rfl, writeInput_node new slot rfl]
      exact writeNode_keeps grows (.control k inputs bodies)
  | .node (.reference k name) =>
      rw [writeInput_node old slot rfl, writeInput_node new slot rfl]
      exact writeNode_keeps grows (.reference k name)
  | .node (.declaration k) =>
      rw [writeInput_node old slot rfl, writeInput_node new slot rfl]
      exact writeNode_keeps grows (.declaration k)

theorem writeInputs_keeps (grows : old.Grows new) (slots : List SlotKind)
    (inputs : List (Input κ)) :
    Keeps (writeInputs old slots inputs) (writeInputs new slots inputs) := by
  cases inputs with
  | nil =>
      rw [writeInputs, writeInputs]
      exact .refl _
  | cons input rest =>
      rw [writeInputs, writeInputs]
      exact (writeInput_keeps grows slots.head? input).cons
        (writeInputs_keeps grows slots.tail rest)

theorem writeList_keeps (grows : old.Grows new) (nodes : List (Node κ)) :
    Keeps (writeList old nodes) (writeList new nodes) := by
  cases nodes with
  | nil =>
      rw [writeList, writeList]
      exact .refl _
  | cons n rest =>
      rw [writeList, writeList]
      split
      · exact (writeNode_keeps grows n).cons (writeList_keeps grows rest)
      · exact writeList_keeps grows rest

theorem writeBodies_keeps (grows : old.Grows new) (fields : List String)
    (bodies : List (List (Node κ))) :
    Keeps (writeBodies old fields bodies) (writeBodies new fields bodies) := by
  match bodies, fields with
  | [], _ =>
      rw [writeBodies, writeBodies]
      exact .refl _
  | _ :: _, [] =>
      rw [writeBodies, writeBodies]
      exact .refl _
  | body :: rest, field :: fields =>
      rw [writeBodies, writeBodies]
      exact (writeList_keeps grows body).bind fun _ =>
        (writeBodies_keeps grows fields rest).bind fun _ => .refl _

end

theorem toDocument_keeps (grows : old.Grows new) (nodes : List (Node κ)) :
    Keeps (toDocument old nodes) (toDocument new nodes) :=
  (writeList_keeps grows nodes).bind fun _ => .refl _

/-- Whatever a registry could name, read and write before it grew means the same afterwards. -/
theorem documents_outlive_growth (old new : Registry κ) (grows : old.Grows new) :
    (∀ code k, old.resolve? code = some k → new.resolve? code = some k) ∧
    (∀ document nodes, ofDocument old document = .ok nodes →
      ofDocument new document = .ok nodes) ∧
    (∀ nodes document, toDocument old nodes = .ok document →
      toDocument new nodes = .ok document) :=
  ⟨fun _ _ => grows.resolve?, ofDocument_keeps grows, toDocument_keeps grows⟩

end

section
open Catalog

def earlier : Registry Block :=
  { registry with
    groups := [operations, { control with blocks := control.blocks.take 4 }, time, system, files,
      texts, lists] }

theorem grows_earlier : earlier.Grows registry where
  builtin := rfl
  groups g group here := by
    have bound : g < 7 := (List.getElem?_eq_some_iff.1 here).1
    interval_cases g <;> cases here <;> exact ⟨_, rfl, by decide⟩
  fresh g b k vacant added := by
    have all : ∀ g < 8, ∀ b < 13, ∀ k ∈ (registry.at? g b).toList, earlier.at? g b = none →
        ∀ group ∈ earlier.groups, k ∉ group.blocks := by decide +kernel
    have wide : ∀ group ∈ registry.groups, group.blocks.length ≤ 13 := by decide
    obtain ⟨group, here, listed⟩ := Registry.at?_eq_some.1 added
    have row : g < 8 := (List.getElem?_eq_some_iff.1 here).1
    have column : b < 13 := Nat.lt_of_lt_of_le (List.getElem?_eq_some_iff.1 listed).1
      (wide group (List.mem_of_getElem? here))
    rintro ⟨group, mem, inside⟩
    exact all g row b column k (Option.mem_toList.2 added) vacant group mem inside

theorem documents_outlive_growth_catalog :
    earlier.Grows registry ∧ earlier.resolve? "1.4" = none ∧ earlier.resolve? "7.0" = none ∧
    registry.resolve? "1.3" = some (.signal .stop) ∧
    ∃ nodes document,
      nodes = [.control (.builtin (.control .ifThen))
        [.node (.block (.operation .greater) [.literal (.integer 2), .literal (.integer 1)])]
        [[.block (.signal .stop) []]]] ∧
      toDocument registry nodes = .ok document ∧ ofDocument registry document = .ok nodes := by
  obtain ⟨codes, reads, writes⟩ := documents_outlive_growth earlier registry grows_earlier
  refine ⟨grows_earlier, by decide +kernel, by decide +kernel, codes "1.3" _ (by decide +kernel), _,
    _, rfl, writes _ _ rfl, reads _ _ rfl⟩

end

end Document

end BlockScript
