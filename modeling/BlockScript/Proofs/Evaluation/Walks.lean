import BlockScript.Proofs.Evaluation.Occurrences
import BlockScript.Proofs.Evaluation.Reaching
import Mathlib.Data.List.Nodup

/-!
# Going through a tree once

`Walks` says of what a run has noted and invoked that it is that of one node: everything is done at
an occurrence below the node and for the node there, nothing is done twice, and what lies in a
statement list comes with a test that chose the list.  The turns keep the entries apart.  Those of a
child lie behind the turn to it (`Walks.below`), and those of children in a row from one of them on
(`Span`), so that one more child can be put in front (`Span.cons`).

The `walks_` lemmas say so of each form of a node but the loop, given that its children walk.
-/

namespace BlockScript

variable {S κ α β : Type}

namespace Evaluation

inductive Matter where
  | start
  | test
  | invocation
deriving DecidableEq, Repr

def Deed.matter : Deed κ S → Matter
  | note (.start _) => .start
  | note (.test _ _) => .test
  | invocation _ => .invocation

def Entry.key (e : Entry κ S) : Occurrence × Matter := (e.occurrence, e.deed.matter)

def Chosen (log : List (Entry κ S)) (block : Occurrence) (index : Nat) : Prop :=
  ∃ flow holds, ⟨block, .note (.test flow holds)⟩ ∈ log ∧ flow.chosen? holds = some index

variable {log log' : List (Entry κ S)} {block : Occurrence} {index : Nat}

theorem Chosen.mono (chosen : Chosen log block index) (subset : log ⊆ log') :
    Chosen log' block index := by
  obtain ⟨flow, holds, mem, eq⟩ := chosen
  exact ⟨flow, holds, subset mem, eq⟩

theorem Chosen.below (turn : Turn) (chosen : Chosen log block index) :
    Chosen (log.map (Entry.below turn)) (turn :: block) index := by
  obtain ⟨flow, holds, mem, eq⟩ := chosen
  exact ⟨flow, holds, List.mem_map_of_mem mem, eq⟩

theorem Entry.key_ne {x y : Entry κ S} (apart : x.occurrence ≠ y.occurrence) : x.key ≠ y.key :=
  fun same => apart (congrArg Prod.fst same)

theorem Entry.key_ne_start {e : Entry κ S} (inner : e.occurrence ≠ []) : e.key ≠ ([], .start) :=
  fun same => inner (congrArg Prod.fst same)

variable [Vocabulary κ]

inductive Deed.OfNode : Deed κ S → Node κ → Prop where
  | start (n : Node κ) : OfNode (.note (.start n)) n
  | test {k : κ} {flow : Flow} (described : (describe k).category = .control flow) (holds : Bool)
      (inputs : List (Input κ)) (bodies : List (List (Node κ))) :
      OfNode (.note (.test flow holds)) (.control k inputs bodies)
  | invocation (x : Invocation κ S) (inputs : List (Input κ)) :
      OfNode (.invocation x) (.block x.kind inputs)

/-- Each entry is about a node that is found where it occurs, no two are about the same, and what
lies in a statement list has been chosen, unless the list belongs to the node in question. -/
structure Tracks (find : Occurrence → Option (Node κ)) (log : List (Entry κ S)) : Prop where
  found : ∀ e ∈ log, ∃ n, find e.occurrence = some n ∧ e.deed.OfNode n
  once : (log.map Entry.key).Nodup
  chosen : ∀ e ∈ log, ∀ block index position rest, block ≠ [] →
    e.occurrence = block ++ .body index position :: rest → Chosen log block index

structure Walks (n : Node κ) (log : List (Entry κ S)) : Prop extends Tracks n.occurring? log where
  own : ∀ e ∈ log, ∀ index position rest,
    e.occurrence = .body index position :: rest → Chosen log [] index

structure Span (find : Occurrence → Option (Node κ)) (turn : Nat → Turn) (first : Nat)
    (log : List (Entry κ S)) : Prop extends Tracks find log where
  within : ∀ e ∈ log, ∃ i rest, first ≤ i ∧ e.occurrence = turn i :: rest

variable {find : Occurrence → Option (Node κ)} {turn : Nat → Turn} {first : Nat} {n : Node κ}

namespace Tracks

theorem nil : Tracks (S := S) find [] := ⟨nofun, .nil, nofun⟩

theorem append (before : Tracks find log) (after : Tracks find log')
    (apart : ∀ x ∈ log, ∀ y ∈ log', x.key ≠ y.key) : Tracks find (log ++ log') where
  found := List.forall_mem_append.2 ⟨before.found, after.found⟩
  once := by
    rw [List.map_append, List.nodup_append]
    refine ⟨before.once, after.once, ?_⟩
    rintro _ left _ right
    obtain ⟨x, inLeft, rfl⟩ := List.mem_map.1 left
    obtain ⟨y, inRight, rfl⟩ := List.mem_map.1 right
    exact apart x inLeft y inRight
  chosen e mem block index position rest outer eq := by
    rcases List.mem_append.1 mem with mem | mem
    · exact (before.chosen e mem block index position rest outer eq).mono
        (List.subset_append_left _ _)
    · exact (after.chosen e mem block index position rest outer eq).mono
        (List.subset_append_right _ _)

theorem here {deed : Deed κ S} (of : deed.OfNode n) : Tracks n.occurring? [⟨[], deed⟩] where
  found e mem := by
    obtain rfl := List.mem_singleton.1 mem
    exact ⟨n, rfl, of⟩
  once := List.pairwise_singleton _ _
  chosen e mem block index position rest outer eq := by
    obtain rfl := List.mem_singleton.1 mem
    simp at eq

end Tracks

theorem Walks.below {turn : Turn} (walks : Walks n log)
    (finds : ∀ rest, find (turn :: rest) = n.occurring? rest) :
    Tracks find (log.map (Entry.below turn)) where
  found e mem := by
    obtain ⟨e, inner, rfl⟩ := List.mem_map.1 mem
    obtain ⟨m, found, of⟩ := walks.found e inner
    exact ⟨m, (finds _).trans found, of⟩
  once := by
    have keys : (log.map (Entry.below turn)).map Entry.key =
        (log.map Entry.key).map fun key => (turn :: key.1, key.2) := by
      rw [List.map_map, List.map_map]
      rfl
    rw [keys]
    refine List.Nodup.map (fun key key' same => ?_) walks.once
    obtain ⟨occurrences, matters⟩ := Prod.mk.inj same
    exact Prod.ext (List.cons.inj occurrences).2 matters
  chosen e mem block index position rest outer eq := by
    obtain ⟨e, inner, rfl⟩ := List.mem_map.1 mem
    cases block with
    | nil => exact absurd rfl outer
    | cons first block =>
        obtain ⟨rfl, inside⟩ := List.cons.inj eq
        cases block with
        | nil => exact (walks.own e inner index position rest inside).below turn
        | cons second block =>
            exact (walks.chosen e inner (second :: block) index position rest
              (List.cons_ne_nil second block) inside).below turn

namespace Span

theorem nil : Span (S := S) find turn first [] := ⟨.nil, nofun⟩

theorem cons (injective : Function.Injective turn) (walks : Walks n log)
    (finds : ∀ rest, find (turn first :: rest) = n.occurring? rest)
    (later : Span find turn (first + 1) log') :
    Span find turn first (log.map (Entry.below (turn first)) ++ log') where
  toTracks := by
    refine (walks.below finds).append later.toTracks fun x left y right => Entry.key_ne ?_
    obtain ⟨e, -, rfl⟩ := List.mem_map.1 left
    obtain ⟨i, rest, after, eq⟩ := later.within y right
    intro same
    obtain ⟨turns, -⟩ := List.cons.inj (same.trans eq)
    have := injective turns
    omega
  within e mem := by
    rcases List.mem_append.1 mem with mem | mem
    · obtain ⟨e, -, rfl⟩ := List.mem_map.1 mem
      exact ⟨first, _, Nat.le_refl _, rfl⟩
    · obtain ⟨i, rest, after, eq⟩ := later.within e mem
      exact ⟨i, rest, Nat.le_of_succ_le after, eq⟩

theorem occurrence_ne_nil (span : Span find turn first log) {e : Entry κ S} (mem : e ∈ log) :
    e.occurrence ≠ [] := by
  obtain ⟨i, rest, -, occurs⟩ := span.within e mem
  exact occurs ▸ List.cons_ne_nil _ _

theorem slot_ne_body (span : Span find .slot first log) {e : Entry κ S} (mem : e ∈ log)
    (index position : Nat) (rest : Occurrence) : e.occurrence ≠ .body index position :: rest := by
  obtain ⟨i, rest', -, occurs⟩ := span.within e mem
  rw [occurs]
  nofun

theorem of_succ (later : Span find turn (first + 1) log) : Span find turn first log where
  toTracks := later.toTracks
  within e mem := by
    obtain ⟨i, rest, after, eq⟩ := later.within e mem
    exact ⟨i, rest, Nat.le_of_succ_le after, eq⟩

end Span

/-! ## The entries of a node -/

theorem Walks.start (tracks : Tracks n.occurring? log)
    (fresh : ∀ e ∈ log, e.key ≠ ([], .start))
    (own : ∀ e ∈ log, ∀ index position rest,
      e.occurrence = .body index position :: rest → Chosen log [] index) :
    Walks n (⟨[], .note (.start n)⟩ :: log) where
  toTracks := by
    refine (Tracks.here (.start n)).append tracks fun x left y right same => ?_
    obtain rfl := List.mem_singleton.1 left
    exact fresh y right same.symm
  own e mem index position rest eq := by
    rcases List.mem_cons.1 mem with rfl | mem
    · cases eq
    · exact (own e mem index position rest eq).mono (List.subset_cons_self _ _)

theorem Walks.slots (span : Span n.occurring? .slot 0 log) :
    Walks n (⟨[], .note (.start n)⟩ :: log) :=
  .start span.toTracks (fun _ mem => Entry.key_ne_start (span.occurrence_ne_nil mem))
    fun _ mem index position rest eq => absurd eq (span.slot_ne_body mem index position rest)

theorem Walks.call (x : Invocation κ S) {inputs : List (Input κ)}
    (span : Span (Node.block x.kind inputs).occurring? .slot 0 log) :
    Walks (.block x.kind inputs) (⟨[], .note (.start (.block x.kind inputs))⟩ ::
      (log ++ [⟨[], .invocation x⟩])) := by
  refine .start (span.toTracks.append (.here (.invocation x inputs)) fun e mem y last => ?_) ?_ ?_
  · obtain rfl := List.mem_singleton.1 last
    exact Entry.key_ne (span.occurrence_ne_nil mem)
  · rw [List.forall_mem_append, List.forall_mem_singleton]
    exact ⟨fun e mem => Entry.key_ne_start (span.occurrence_ne_nil mem), nofun⟩
  · rw [List.forall_mem_append, List.forall_mem_singleton]
    exact ⟨fun e mem index position rest eq =>
      absurd eq (span.slot_ne_body mem index position rest), nofun⟩

theorem Walks.branch {k : κ} {flow : Flow} (described : (describe k).category = .control flow)
    {holds : Bool} {inputs : List (Input κ)} {bodies : List (List (Node κ))}
    (span : Span (Node.control k inputs bodies).occurring? .slot 0 log)
    (tracks : Tracks (Node.control k inputs bodies).occurring? log')
    (within : ∀ e ∈ log', ∃ index position rest, flow.chosen? holds = some index ∧
      e.occurrence = .body index position :: rest) :
    Walks (.control k inputs bodies) (⟨[], .note (.start (.control k inputs bodies))⟩ ::
      (log ++ ⟨[], .note (.test flow holds)⟩ :: log')) := by
  have inner (e : Entry κ S) (mem : e ∈ log') : e.occurrence ≠ [] := by
    obtain ⟨index, position, rest, -, occurs⟩ := within e mem
    exact occurs ▸ List.cons_ne_nil _ _
  have tested : Tracks (Node.control k inputs bodies).occurring?
      (⟨[], .note (.test flow holds)⟩ :: log') := by
    refine (Tracks.here (.test described holds inputs bodies)).append tracks
      fun x left y right => ?_
    obtain rfl := List.mem_singleton.1 left
    exact Entry.key_ne (inner y right).symm
  refine .start (span.toTracks.append tested fun x left y right => Entry.key_ne ?_) ?_ ?_
  · rcases List.mem_cons.1 right with rfl | right
    · exact span.occurrence_ne_nil left
    · obtain ⟨index, position, rest, -, occurs⟩ := within y right
      exact occurs ▸ span.slot_ne_body left index position rest
  · rw [List.forall_mem_append, List.forall_mem_cons]
    exact ⟨fun e mem => Entry.key_ne_start (span.occurrence_ne_nil mem), nofun,
      fun e mem => Entry.key_ne_start (inner e mem)⟩
  · rw [List.forall_mem_append, List.forall_mem_cons]
    refine ⟨fun e mem index position rest eq =>
      absurd eq (span.slot_ne_body mem index position rest), nofun,
      fun e mem index position rest eq => ?_⟩
    obtain ⟨index', position', rest', chosen, occurs⟩ := within e mem
    cases occurs.symm.trans eq
    exact ⟨flow, holds, by simp, chosen⟩

theorem Walks.covered {k : κ} {shadowed : Option (Node κ)} {m : Node κ} (walks : Walks m log) :
    Walks (.shadow k shadowed (some (.node m)))
      (⟨[], .note (.start (.shadow k shadowed (some (.node m))))⟩ ::
        log.map (Entry.below .covered)) := by
  refine .start (walks.below fun rest => rfl) (List.forall_mem_map.2 fun e _ => ?_)
    (List.forall_mem_map.2 fun e _ => nofun)
  exact Entry.key_ne_start (List.cons_ne_nil _ _)

end Evaluation

/-! ## The entries of a run -/

theorem TraceTask.flow_eq {flow : Flow} (branches : flow ≠ .whileLoop) (horizon : Nat)
    (condition : TraceTask κ Bool) (bodies : List (TraceTask κ Unit)) :
    TraceTask.flow horizon condition bodies flow = (TraceTask.told flow condition).bind fun holds =>
      match flow.chosen? holds with
      | some index => bodies.getD index (.done ())
      | none => .done () := by
  cases flow with
  | ifThen =>
      refine congrArg (Task.bind · (TraceTask.told .ifThen condition)) (funext fun holds => ?_)
      cases holds <;> rfl
  | ifElse =>
      refine congrArg (Task.bind · (TraceTask.told .ifElse condition)) (funext fun holds => ?_)
      cases holds <;> rfl
  | whileLoop => exact absurd rfl branches

namespace Node

open Evaluation

variable [Vocabulary κ] {answer : (action : Action) → S → Option (action.Answer × S)}
  {find : Occurrence → Option (Node κ)} {horizon : Nat}

theorem entries_traceInput_node (slot : SlotKind) (n : Node κ) (s : S) :
    entries answer (traceInput horizon slot (.node n)) s = entries answer (trace horizon n) s := by
  rw [traceInput]
  refine entries_bind_silent (fun output s => ?_) s
  cases Value.convertOutput slot output <;> rfl

theorem span_bind {turn : Nat → Turn} (injective : Function.Injective turn) {first : Nat}
    {n : Node κ} {w : TraceTask κ α} {f : α → TraceTask κ β} {s : S}
    (walks : Walks n (entries answer w s))
    (finds : ∀ rest, find (turn first :: rest) = n.occurring? rest)
    (later : ∀ a s, Span find turn (first + 1) (entries answer (f a) s)) :
    Span find turn first (entries answer ((w.below (turn first)).bind f) s) := by
  rcases entries_bind_cases answer (w.below (turn first)) f s with none | ⟨a, s', -, next⟩
  · rw [none, entries_below, ← List.append_nil (List.map _ _)]
    exact .cons injective walks finds .nil
  · rw [next, entries_below]
    exact .cons injective walks finds (later a s')

theorem entries_poll (s : S) :
    entries answer (TraceTask.here (EvalTask.poll : EvalTask κ Bool)) s = [] :=
  entries_request .poll s

theorem span_poll {turn : Nat → Turn} {first : Nat} {f : Bool → TraceTask κ α}
    (later : ∀ stop s, Span find turn first (entries answer (f stop) s)) (s : S) :
    Span find turn first (entries answer ((TraceTask.here EvalTask.poll).bind f) s) := by
  rcases entries_bind_cases answer (TraceTask.here EvalTask.poll) f s with
    none | ⟨stop, s', -, next⟩
  · rw [none, entries_poll]
    exact .nil
  · rw [next, entries_poll]
    exact later stop s'

theorem span_inputs {inputs : List (Input κ)}
    (each : ∀ n, .node n ∈ inputs → ∀ s, Walks n (entries answer (trace horizon n) s))
    (slots : List SlotKind) (first : Nat)
    (finds : ∀ i rest, find (.slot (first + i) :: rest) =
      (inputs[i]?.bind Input.asNode?).bind (·.occurring? rest)) (s : S) :
    Span find .slot first (entries answer (traceInputs horizon slots first inputs) s) := by
  induction inputs generalizing slots first s with
  | nil => exact .nil
  | cons input rest ih =>
      cases slots with
      | nil => exact .nil
      | cons slot slots =>
          have others (s : S) : Span find .slot (first + 1)
              (entries answer (traceInputs horizon slots (first + 1) rest) s) := by
            refine ih (fun n mem => each n (List.mem_cons_of_mem _ mem)) slots (first + 1) ?_ s
            intro i turns
            rw [Nat.add_right_comm]
            exact finds (i + 1) turns
          have later (value : Value) (s : S) : Span find .slot (first + 1)
              (entries answer ((traceInputs horizon slots (first + 1) rest).bind fun values =>
                .done (value :: values)) s) := by
            rw [entries_bind_silent fun _ _ => rfl]
            exact others s
          cases input with
          | literal value => exact (later (value.convert slot) s).of_succ
          | node n =>
              have walks := each n List.mem_cons_self s
              rw [← entries_traceInput_node slot] at walks
              exact span_bind (fun _ _ same => Turn.slot.inj same) walks (finds 0) later

theorem span_list {turn : Nat → Turn} (injective : Function.Injective turn) {nodes : List (Node κ)}
    (each : ∀ n ∈ nodes, ∀ s, Walks n (entries answer (trace horizon n) s)) (first : Nat)
    (finds : ∀ i rest, find (turn (first + i) :: rest) = nodes[i]?.bind (·.occurring? rest))
    (s : S) : Span find turn first (entries answer (traceList horizon turn first nodes) s) := by
  induction nodes generalizing first s with
  | nil => exact .nil
  | cons n rest ih =>
      obtain ⟨here, others⟩ := List.forall_mem_cons.1 each
      have later (s : S) : Span find turn (first + 1)
          (entries answer (traceList horizon turn (first + 1) rest) s) := by
        refine ih others (first + 1) (fun i turns => ?_) s
        rw [Nat.add_right_comm]
        exact finds (i + 1) turns
      rw [traceList, Task.bind_eq_bind]
      refine span_poll (fun stop s => ?_) s
      cases stop with
      | true => exact .nil
      | false => exact span_bind injective (here s) (finds 0) fun _ => later

theorem walks_block {k : κ} {inputs : List (Input κ)}
    (each : ∀ n, .node n ∈ inputs → ∀ s, Walks n (entries answer (trace horizon n) s)) (s : S) :
    Walks (.block k inputs) (entries answer (trace horizon (.block k inputs)) s) := by
  have span : Span (block k inputs).occurring? .slot 0
      (entries answer (traceInputs horizon (describe k).slots 0 inputs) s) :=
    span_inputs each _ 0 (fun i rest => by rw [Nat.zero_add]; rfl) s
  rw [trace, Task.bind_eq_bind, Task.bind_eq_bind, entries_note_bind]
  rcases entries_bind_cases answer (traceInputs horizon (describe k).slots 0 inputs)
    (fun args => TraceTask.here (EvalTask.invoke k args)) s with none | ⟨args, s', -, next⟩
  · rw [none]
    exact .slots span
  · have invoked : entries answer (TraceTask.here (EvalTask.invoke k args)) s' =
        [⟨[], .invocation ⟨k, args, s', (serve answer (.invoke k args) s').2⟩⟩] :=
      entries_request (.invoke k args) s'
    rw [next, invoked]
    exact .call ⟨k, args, s', _⟩ span

theorem trace_control {k : κ} {flow : Flow} (described : (describe k).category = .control flow)
    (branches : flow ≠ .whileLoop) (inputs : List (Input κ)) (bodies : List (List (Node κ))) :
    trace horizon (.control k inputs bodies) =
      (TraceTask.note (.start (.control k inputs bodies))).bind fun _ =>
        ((TraceTask.told flow
          (conditionHolds <$> traceInputs horizon (describe k).slots 0 inputs)).bind fun holds =>
            match flow.chosen? holds with
            | some index => (traceBodies horizon 0 bodies).getD index (.done ())
            | none => .done ()).bind fun _ => .done none := by
  rw [← TraceTask.flow_eq branches]
  simp only [trace, described]
  rfl

theorem getD_traceBodies (bodies : List (List (Node κ))) (first index : Nat) :
    (traceBodies horizon first bodies).getD index (.done ()) =
      traceList horizon (.body (first + index)) 0 (bodies.getD index []) := by
  induction bodies generalizing first index with
  | nil => rfl
  | cons body rest ih =>
      cases index with
      | zero => rfl
      | succ index =>
          rw [traceBodies, List.getD_cons_succ, List.getD_cons_succ, ih, Nat.add_right_comm]
          rfl

theorem span_body (k : κ) (inputs : List (Input κ)) {bodies : List (List (Node κ))}
    (lists : ∀ body ∈ bodies, ∀ n ∈ body, ∀ s, Walks n (entries answer (trace horizon n) s))
    (index : Nat) (s : S) :
    Span (control k inputs bodies).occurring? (.body index) 0
      (entries answer ((traceBodies horizon 0 bodies).getD index (.done ())) s) := by
  have turns (i : Nat) (rest : Occurrence) :
      (control k inputs bodies).occurring? (.body index (0 + i) :: rest) =
        (bodies.getD index [])[i]?.bind (·.occurring? rest) := by
    rw [Nat.zero_add, List.getD_eq_getElem?_getD]
    change (bodies[index]?.bind (·[i]?)).bind _ = _
    cases bodies[index]? <;> rfl
  have each : ∀ n ∈ bodies.getD index [], ∀ s, Walks n (entries answer (trace horizon n) s) := by
    rw [List.getD_eq_getElem?_getD]
    cases found : bodies[index]? with
    | none => nofun
    | some body => exact lists body (List.mem_of_getElem? found)
  rw [getD_traceBodies, Nat.zero_add]
  exact span_list (fun _ _ same => (Turn.body.inj same).2) each 0 turns s

theorem walks_control {k : κ} {flow : Flow} (described : (describe k).category = .control flow)
    (branches : flow ≠ .whileLoop) {inputs : List (Input κ)} {bodies : List (List (Node κ))}
    (each : ∀ n, .node n ∈ inputs → ∀ s, Walks n (entries answer (trace horizon n) s))
    (lists : ∀ body ∈ bodies, ∀ n ∈ body, ∀ s, Walks n (entries answer (trace horizon n) s))
    (s : S) : Walks (.control k inputs bodies)
      (entries answer (trace horizon (.control k inputs bodies)) s) := by
  have span : Span (control k inputs bodies).occurring? .slot 0
      (entries answer (traceInputs horizon (describe k).slots 0 inputs) s) :=
    span_inputs each _ 0 (fun i rest => by rw [Nat.zero_add]; rfl) s
  rw [trace_control described branches, entries_note_bind, entries_bind_silent fun _ _ => rfl]
  rcases entries_told_bind answer flow (traceInputs horizon (describe k).slots 0 inputs)
    conditionHolds _ s with none | ⟨args, s', next⟩
  · rw [none]
    exact .slots span
  · rw [next]
    cases chosen : flow.chosen? (conditionHolds args) with
    | none => exact .branch described span .nil nofun
    | some index =>
        have body := span_body k inputs lists index s'
        refine .branch described span body.toTracks fun e mem => ?_
        obtain ⟨position, rest, -, occurs⟩ := body.within e mem
        exact ⟨index, position, rest, chosen, occurs⟩

theorem walks_reference (k : κ) (name : String) (s : S) :
    Walks (.reference k name) (entries answer (trace horizon (.reference k name)) s) := by
  have silent : entries answer (TraceTask.here (EvalTask.lookup name : EvalTask κ _)) s = [] :=
    entries_request (.lookup name) s
  rw [trace, Task.bind_eq_bind, Task.bind_eq_bind, entries_note_bind,
    entries_bind_silent fun value _ => by cases value <;> rfl, silent]
  exact .slots .nil

theorem walks_shadow {k : κ} {shadowed : Option (Node κ)} {covered : Option (Input κ)}
    (each : ∀ n, covered = some (.node n) → ∀ s, Walks n (entries answer (trace horizon n) s))
    (s : S) : Walks (.shadow k shadowed covered)
      (entries answer (trace horizon (.shadow k shadowed covered)) s) := by
  rw [trace, Task.bind_eq_bind, entries_note_bind]
  rcases covered with _ | _ | m
  · exact .slots .nil
  · exact .slots .nil
  · rw [traceCovered, entries_below]
    exact (each m rfl s).covered

end Node

end BlockScript
