import BlockScript.Catalog.Standard
import BlockScript.Proofs.Evaluation.Horizons

/-!
# Unrolling loops

A loop comes to the same as a branch that holds its body followed by the loop again, and a branch to
the same as a choice with nothing on the other side.  The horizons differ: a loop that is unrolled
once goes round once more, so that each of the two is followed a little further than the other one
(`prolongs_unrolls`, `unrolls_prolongs`), and no horizon tells where either of them runs without end
(`sameRuns_of_prolongs`).  What holds of two lists holds of any two programs that differ by them in
one place, at whatever depth (`Node.ListRewrites.prolongs`).
-/

namespace BlockScript

variable {S κ : Type}

/-! ## Programs that differ in one place -/

mutual

inductive Node.ListRewrites (rule : List (Node κ) → List (Node κ) → Prop) :
    List (Node κ) → List (Node κ) → Prop where
  | here {part part' : List (Node κ)} (before after : List (Node κ)) (replaced : rule part part') :
      ListRewrites rule (before ++ part ++ after) (before ++ part' ++ after)
  | inside {n n' : Node κ} (before after : List (Node κ)) (replaced : n.Rewrites rule n') :
      ListRewrites rule (before ++ n :: after) (before ++ n' :: after)

inductive Node.Rewrites (rule : List (Node κ) → List (Node κ) → Prop) : Node κ → Node κ → Prop where
  | body {list list' : List (Node κ)} (k : κ) (inputs : List (Input κ))
      (before after : List (List (Node κ))) (replaced : ListRewrites rule list list') :
      Rewrites rule (.control k inputs (before ++ list :: after))
        (.control k inputs (before ++ list' :: after))
  | block {n n' : Node κ} (k : κ) (before after : List (Input κ)) (replaced : n.Rewrites rule n') :
      Rewrites rule (.block k (before ++ .node n :: after)) (.block k (before ++ .node n' :: after))
  | control {n n' : Node κ} (k : κ) (before after : List (Input κ)) (bodies : List (List (Node κ)))
      (replaced : n.Rewrites rule n') :
      Rewrites rule (.control k (before ++ .node n :: after) bodies)
        (.control k (before ++ .node n' :: after) bodies)
  | covered {n n' : Node κ} (k : κ) (shadowed : Option (Node κ)) (replaced : n.Rewrites rule n') :
      Rewrites rule (.shadow k shadowed (some (.node n))) (.shadow k shadowed (some (.node n')))

end

mutual

theorem Node.ListRewrites.flip {rule : List (Node κ) → List (Node κ) → Prop}
    {nodes nodes' : List (Node κ)} : ListRewrites rule nodes nodes' →
      ListRewrites (fun part part' => rule part' part) nodes' nodes
  | .here before after replaced => .here before after replaced
  | .inside before after replaced => .inside before after replaced.flip

theorem Node.Rewrites.flip {rule : List (Node κ) → List (Node κ) → Prop} {n n' : Node κ} :
    n.Rewrites rule n' → n'.Rewrites (fun part part' => rule part' part) n
  | .body k inputs before after replaced => .body k inputs before after replaced.flip
  | .block k before after replaced => .block k before after replaced.flip
  | .control k before after bodies replaced => .control k before after bodies replaced.flip
  | .covered k shadowed replaced => .covered k shadowed replaced.flip

end

variable [Vocabulary κ] {answer : (action : Action) → S → Option (action.Answer × S)}
  {horizon further : Nat}

namespace Node

open Evaluation

theorem prolongs_input_of_le (le : horizon ≤ further) (slot : SlotKind) (input : Input κ) :
    Prolongs answer (evaluateInput horizon slot input) (evaluateInput further slot input) := by
  cases input with
  | literal value => exact .refl _
  | node n => exact Prolongs.congruence.input (prolongs_evaluate le n) slot

theorem prolongs_inputs_of_le (le : horizon ≤ further) (slots : List SlotKind)
    (inputs : List (Input κ)) :
    Prolongs answer (evaluateInputs horizon slots inputs) (evaluateInputs further slots inputs) :=
  Prolongs.congruence.inputs
    (List.forall₂_same.2 fun input _ slot => prolongs_input_of_le le slot input) slots

theorem prolongs_append (polls : PollsOnlyLook answer) {nodes nodes' rest rest' : List (Node κ)}
    (first : Prolongs answer (evaluateList horizon nodes) (evaluateList further nodes'))
    (later : Prolongs answer (evaluateList horizon rest) (evaluateList further rest')) :
    Prolongs answer (evaluateList horizon (nodes ++ rest))
      (evaluateList further (nodes' ++ rest')) := by
  have joined := Prolongs.congruence.bind first fun _ => later
  refine (alike_append polls nodes rest).prolongs.trans (joined.trans ?_)
  exact Alike.prolongs fun s => (alike_append polls nodes' rest' s).symm

theorem prolongs_inputs_around (le : horizon ≤ further) {n n' : Node κ}
    (first : Prolongs answer (evaluate horizon n) (evaluate further n')) (slots : List SlotKind)
    (before after : List (Input κ)) :
    Prolongs answer (evaluateInputs horizon slots (before ++ .node n :: after))
      (evaluateInputs further slots (before ++ .node n' :: after)) := by
  have same (inputs : List (Input κ)) : List.Forall₂ (fun input input' => ∀ slot,
      Prolongs answer (evaluateInput horizon slot input) (evaluateInput further slot input'))
      inputs inputs :=
    List.forall₂_same.2 fun input _ slot => prolongs_input_of_le le slot input
  exact Prolongs.congruence.inputs (List.rel_append (same before)
    (.cons (Prolongs.congruence.input first) (same after))) slots

mutual

theorem ListRewrites.prolongs {rule : List (Node κ) → List (Node κ) → Prop}
    (polls : PollsOnlyLook answer) (le : horizon ≤ further)
    (rules : ∀ part part', rule part part' →
      Prolongs answer (evaluateList horizon part) (evaluateList further part'))
    {nodes nodes' : List (Node κ)} : ListRewrites rule nodes nodes' →
      Prolongs answer (evaluateList horizon nodes) (evaluateList further nodes')
  | .here before after replaced =>
      prolongs_append polls (prolongs_append polls (prolongs_list_of_le le before)
        (rules _ _ replaced)) (prolongs_list_of_le le after)
  | .inside before after replaced =>
      prolongs_append polls (prolongs_list_of_le le before)
        (Prolongs.congruence.list_cons (replaced.prolongs polls le rules)
          (prolongs_list_of_le le after))

theorem Rewrites.prolongs {rule : List (Node κ) → List (Node κ) → Prop}
    (polls : PollsOnlyLook answer) (le : horizon ≤ further)
    (rules : ∀ part part', rule part part' →
      Prolongs answer (evaluateList horizon part) (evaluateList further part'))
    {n n' : Node κ} : n.Rewrites rule n' →
      Prolongs answer (evaluate horizon n) (evaluate further n')
  | .body k inputs before after replaced => by
      have same (bodies : List (List (Node κ))) : List.Forall₂ (fun body body' =>
          Prolongs answer (evaluateList horizon body) (evaluateList further body')) bodies bodies :=
        List.forall₂_same.2 fun body _ => prolongs_list_of_le le body
      exact Prolongs.congruence.control (Prolongs.loop le) (prolongs_inputs_of_le le _ inputs)
        (List.rel_append (same before) (.cons (replaced.prolongs polls le rules) (same after)))
  | .block k before after replaced =>
      Prolongs.congruence.block (fun _ => .refl _)
        (prolongs_inputs_around le (replaced.prolongs polls le rules) _ before after)
  | .control k before after bodies replaced =>
      Prolongs.congruence.control (Prolongs.loop le)
        (prolongs_inputs_around le (replaced.prolongs polls le rules) _ before after)
        (List.forall₂_same.2 fun body _ => prolongs_list_of_le le body)
  | .covered k shadowed replaced => by
      simp only [evaluate, evaluateCovered]
      exact replaced.prolongs polls le rules

end

/-! ## Programs that run alike -/

structure SameRuns (answer : (action : Action) → S → Option (action.Answer × S))
    (roots roots' : List (Node κ)) (s : S) : Prop where
  ends : ∀ result, result.1 ≠ .unfinished →
    ((∃ horizon, Task.run answer (actions (execute horizon roots)) s = result) ↔
      ∃ horizon, Task.run answer (actions (execute horizon roots')) s = result)
  endless : Endless answer roots s ↔ Endless answer roots' s

theorem ends_of_prolongs {roots roots' : List (Node κ)} (gap : Nat)
    (prolongs : ∀ horizon,
      Prolongs answer (evaluateList horizon roots) (evaluateList (horizon + gap) roots'))
    {s : S} {horizon : Nat}
    (ended : (Task.run answer (actions (execute horizon roots)) s).1 ≠ .unfinished) :
    Task.run answer (actions (execute (horizon + gap) roots')) s =
      Task.run answer (actions (execute horizon roots)) s :=
  (Prolongs.congruence.execute (prolongs horizon) s).resolve_left ended

theorem sameRuns_of_prolongs {roots roots' : List (Node κ)} (gap : Nat)
    (forth : ∀ horizon,
      Prolongs answer (evaluateList horizon roots) (evaluateList (horizon + gap) roots'))
    (back : ∀ horizon,
      Prolongs answer (evaluateList horizon roots') (evaluateList (horizon + gap) roots)) (s : S) :
    SameRuns answer roots roots' s where
  ends result ended := by
    constructor
    · rintro ⟨horizon, rfl⟩
      exact ⟨_, ends_of_prolongs gap forth ended⟩
    · rintro ⟨horizon, rfl⟩
      exact ⟨_, ends_of_prolongs gap back ended⟩
  endless := by
    constructor
    · intro endless horizon
      by_contra ended
      exact ended (ends_of_prolongs gap back ended ▸ endless _)
    · intro endless horizon
      by_contra ended
      exact ended (ends_of_prolongs gap forth ended ▸ endless _)

end Node

/-! ## Loops and branches -/

/-- A loop and its first round, and a branch and a choice between it and nothing. -/
inductive Unrolls (loop branch choice : κ) : List (Node κ) → List (Node κ) → Prop where
  | round (condition : Input κ) (body : List (Node κ)) :
      Unrolls loop branch choice [.control loop [condition] [body]]
        [.control branch [condition] [body ++ [.control loop [condition] [body]]]]
  | otherwise (condition : Input κ) (body : List (Node κ)) :
      Unrolls loop branch choice [.control branch [condition] [body]]
        [.control choice [condition] [body, []]]

namespace Node

open Evaluation

def conditionTask (horizon : Nat) (condition : Input κ) : EvalTask κ Bool :=
  conditionHolds <$> evaluateInputs horizon [.boolean] [condition]

theorem evaluateList_control {k : κ} {flow : Flow}
    (described : describe k = (Builtin.control flow).kind) (horizon : Nat) (condition : Input κ)
    (bodies : List (List (Node κ))) : evaluateList horizon [.control k [condition] bodies] =
      EvalTask.poll.bind fun stop => if stop then .done () else EvalTask.flow horizon
        (conditionTask horizon condition) (evaluateBodies horizon bodies) flow := by
  have block : evaluate horizon (.control k [condition] bodies) =
      (EvalTask.flow horizon (conditionTask horizon condition) (evaluateBodies horizon bodies)
        flow).bind fun _ => .done none := by
    simp only [evaluate, described]
    cases flow <;> rfl
  have nothing (t : EvalTask κ Unit) :
      ((t.bind fun _ => Task.done (none : Option Value)).bind fun _ => Task.done ()) = t := by
    rw [Task.bind_bind]
    exact Task.bind_done t
  simp only [evaluateList, block, Task.bind_eq_bind, Task.pure_eq_done, nothing]

variable {loop branch choice : κ}

theorem prolongs_condition (le : horizon ≤ further) (condition : Input κ) :
    Prolongs answer (conditionTask horizon condition) (conditionTask further condition) :=
  Prolongs.congruence.map conditionHolds (prolongs_inputs_of_le le _ [condition])

section
variable {s : S} (condition : EvalTask κ Bool) (body : EvalTask κ Unit) (rounds : Nat)

theorem run_loop_stopped (polled : answer .stopRequested s = some (true, s)) :
    Task.run answer (actions (EvalTask.loop condition body (rounds + 1))) s = (.done (), s) :=
  run_poll polled _

theorem run_loop_going (polled : answer .stopRequested s = some (false, s)) :
    Task.run answer (actions (EvalTask.loop condition body (rounds + 1))) s =
      Task.run answer (actions (condition.bind fun holds =>
        if holds then body.bind fun _ => EvalTask.loop condition body rounds else .done ())) s :=
  run_poll polled _

end

theorem prolongs_branch {c c' : EvalTask κ Bool} {t u : EvalTask κ Unit}
    (condition : Prolongs answer c c') (body : Prolongs answer t u) :
    Prolongs answer (c.bind fun holds => if holds then t else .done ())
      (c'.bind fun holds => if holds then u else .done ()) := by
  refine Prolongs.congruence.bind condition fun holds => ?_
  cases holds with
  | true => exact body
  | false => exact .refl _

theorem prolongs_unlessStopped (polls : PollsOnlyLook answer) {t u : EvalTask κ Unit}
    (going : ∀ s, answer .stopRequested s = some (false, s) →
      (Task.run answer (actions t) s).1 = .unfinished ∨
        Task.run answer (actions u) s = Task.run answer (actions t) s) :
    Prolongs answer (EvalTask.poll.bind fun stop => if stop then .done () else t)
      (EvalTask.poll.bind fun stop => if stop then .done () else u) := by
  intro s
  obtain ⟨stop, polled⟩ := polls s
  rw [run_poll polled, run_poll polled]
  cases stop with
  | true => exact .inr rfl
  | false => exact going s polled

section
variable (loops : describe loop = (Builtin.control .whileLoop).kind) (polls : PollsOnlyLook answer)
  {rounds : Nat} (le : horizon ≤ further) (condition : Input κ) (body : List (Node κ))

include loops polls le

theorem prolongs_loop_list (bound : rounds ≤ further) : Prolongs answer
    (EvalTask.loop (conditionTask horizon condition) (evaluateList horizon body) rounds)
    (evaluateList further [.control loop [condition] [body]]) := by
  intro s
  obtain ⟨stop, polled⟩ := polls s
  rw [evaluateList_control loops, run_poll polled]
  cases stop with
  | false =>
      exact Prolongs.loop bound (prolongs_condition le condition) (prolongs_list_of_le le body) s
  | true =>
      cases rounds with
      | zero => exact .inl rfl
      | succ rounds => exact .inr (run_loop_stopped _ _ rounds polled).symm

theorem prolongs_list_loop (bound : horizon < rounds) : Prolongs answer
    (evaluateList horizon [.control loop [condition] [body]])
    (EvalTask.loop (conditionTask further condition) (evaluateList further body) rounds) := by
  intro s
  obtain ⟨stop, polled⟩ := polls s
  rw [evaluateList_control loops, run_poll polled]
  cases stop with
  | false =>
      exact Prolongs.loop (Nat.le_of_lt bound) (prolongs_condition le condition)
        (prolongs_list_of_le le body) s
  | true =>
      obtain ⟨rounds, rfl⟩ : ∃ n, rounds = n + 1 := ⟨rounds - 1, by omega⟩
      exact .inr (run_loop_stopped _ _ rounds polled)

theorem prolongs_round_list (bound : rounds ≤ further) : Prolongs answer
    ((evaluateList horizon body).bind fun _ =>
      EvalTask.loop (conditionTask horizon condition) (evaluateList horizon body) rounds)
    (evaluateList further (body ++ [.control loop [condition] [body]])) := by
  have parts := Prolongs.congruence.bind (prolongs_list_of_le le body) fun _ =>
    prolongs_loop_list loops polls le condition body bound
  exact parts.trans (Alike.prolongs fun s => (alike_append polls body _ s).symm)

theorem prolongs_list_round (bound : horizon < rounds) : Prolongs answer
    (evaluateList horizon (body ++ [.control loop [condition] [body]]))
    ((evaluateList further body).bind fun _ =>
      EvalTask.loop (conditionTask further condition) (evaluateList further body) rounds) :=
  (alike_append polls body _).prolongs.trans
    (Prolongs.congruence.bind (prolongs_list_of_le le body) fun _ =>
      prolongs_list_loop loops polls le condition body bound)

end

section
variable (loops : describe loop = (Builtin.control .whileLoop).kind)
  (branches : describe branch = (Builtin.control .ifThen).kind)
  (chooses : describe choice = (Builtin.control .ifElse).kind) (polls : PollsOnlyLook answer)
  {nodes nodes' : List (Node κ)}

include branches chooses in
theorem evaluateList_otherwise (horizon : Nat) (condition : Input κ) (body : List (Node κ)) :
    evaluateList horizon [.control branch [condition] [body]] =
      evaluateList horizon [.control choice [condition] [body, []]] := by
  rw [evaluateList_control branches, evaluateList_control chooses]
  rfl

include loops branches chooses polls

theorem prolongs_unrolls (unrolled : Unrolls loop branch choice nodes nodes') (horizon : Nat) :
    Prolongs answer (evaluateList horizon nodes) (evaluateList (horizon + 2) nodes') := by
  have le : horizon ≤ horizon + 2 := Nat.le_add_right _ _
  cases unrolled with
  | round condition body =>
      rw [evaluateList_control loops, evaluateList_control branches]
      refine prolongs_unlessStopped polls fun s polled => ?_
      cases horizon with
      | zero => exact .inl rfl
      | succ rounds =>
          have round := prolongs_round_list loops polls le condition body
            (show rounds ≤ rounds + 1 + 2 by omega)
          have first := prolongs_branch (prolongs_condition le condition) round s
          rwa [← run_loop_going _ _ _ polled] at first
  | otherwise condition body =>
      rw [← evaluateList_otherwise branches chooses]
      exact prolongs_list_of_le le _

theorem unrolls_prolongs (unrolled : Unrolls loop branch choice nodes nodes') (horizon : Nat) :
    Prolongs answer (evaluateList horizon nodes') (evaluateList (horizon + 2) nodes) := by
  have le : horizon ≤ horizon + 2 := Nat.le_add_right _ _
  cases unrolled with
  | round condition body =>
      rw [evaluateList_control loops, evaluateList_control branches]
      refine prolongs_unlessStopped polls fun s polled => ?_
      have round := prolongs_list_round loops polls le condition body (Nat.lt_succ_self horizon)
      have first := prolongs_branch (prolongs_condition le condition) round s
      rwa [← run_loop_going _ _ _ polled] at first
  | otherwise condition body =>
      rw [← evaluateList_otherwise branches chooses]
      exact prolongs_list_of_le le _

/-- A loop may be unrolled and a branch written as a choice, between any nodes of a list and
anywhere in a program: from every state the two programs come to the same ending and leave the same
state, or both run without end. -/
theorem execute_unrolled :
    (∀ condition body before after (s : S),
      SameRuns answer (before ++ [.control loop [condition] [body]] ++ after)
        (before ++ [.control branch [condition] [body ++ [.control loop [condition] [body]]]] ++
          after) s) ∧
    (∀ condition body before after (s : S),
      SameRuns answer (before ++ [.control branch [condition] [body]] ++ after)
        (before ++ [.control choice [condition] [body, []]] ++ after) s) ∧
    ∀ roots roots', ListRewrites (Unrolls loop branch choice) roots roots' →
      ∀ s : S, SameRuns answer roots roots' s := by
  have anywhere : ∀ roots roots', ListRewrites (Unrolls loop branch choice) roots roots' →
      ∀ s : S, SameRuns answer roots roots' s := by
    intro roots roots' rewritten
    have le (horizon : Nat) : horizon ≤ horizon + 2 := Nat.le_add_right _ _
    refine sameRuns_of_prolongs 2 (fun horizon => ?_) fun horizon => ?_
    · exact rewritten.prolongs polls (le horizon) fun _ _ unrolled =>
        prolongs_unrolls loops branches chooses polls unrolled horizon
    · exact rewritten.flip.prolongs polls (le horizon) fun _ _ unrolled =>
        unrolls_prolongs loops branches chooses polls unrolled horizon
  refine ⟨fun condition body before after => ?_, fun condition body before after => ?_, anywhere⟩
  · exact anywhere _ _ (.here before after (.round condition body))
  · exact anywhere _ _ (.here before after (.otherwise condition body))

end

section
open Catalog

def guarded : List (Node Block) :=
  [.control (.builtin (.control .ifThen)) [.literal (.boolean true)]
    [[.control (.builtin (.control .whileLoop)) [.node (.reference (.builtin .reference) "x")]
      [[.block .assign [.literal (.text "x"), .literal (.boolean false)]]]]]]

def guardedRound : List (Node Block) :=
  [.control (.builtin (.control .ifThen)) [.literal (.boolean true)]
    [[.control (.builtin (.control .ifThen)) [.node (.reference (.builtin .reference) "x")]
      [[.block .assign [.literal (.text "x"), .literal (.boolean false)],
        .control (.builtin (.control .whileLoop)) [.node (.reference (.builtin .reference) "x")]
          [[.block .assign [.literal (.text "x"), .literal (.boolean false)]]]]]]]]

theorem execute_unrolled_guarded : ∃ m',
    (∃ horizon, (Machine.bare (.ofList [("x", .boolean true)])).run
      (actions (execute horizon guardedRound)) = (.done .completed, m')) ∧
    m'.store.get? "x" = some (.boolean false) := by
  have described (flow : Flow) :
      describe (Block.builtin (.control flow)) = (Builtin.control flow).kind := rfl
  obtain ⟨-, -, anywhere⟩ := execute_unrolled (described .whileLoop) (described .ifThen)
    (described .ifElse) Machine.pollsOnlyLook
  have unrolled : ListRewrites (Unrolls (Block.builtin (.control .whileLoop))
      (.builtin (.control .ifThen)) (.builtin (.control .ifElse))) guarded guardedRound :=
    .inside [] [] (.body _ _ [] [] (.here [] [] (Unrolls.round _ _)))
  have same := anywhere _ _ unrolled (Machine.bare (.ofList [("x", .boolean true)]))
  refine ⟨_, (same.ends (.done .completed, _) ?_).1 ⟨2, rfl⟩, rfl⟩
  rintro ⟨⟩

end

end Node

end BlockScript
