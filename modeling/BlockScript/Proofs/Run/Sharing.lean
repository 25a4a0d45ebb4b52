import BlockScript.Proofs.Run.History

/-!
# Programs that share their variables

A runtime is any number of programs in one environment, and in a move one of them does what it can
do in a session of its own.  To that program the moves of the others are changes of its environment:
`Path.view` projects what happened to a runtime to a session of each of its programs, so that
`Path.recorded` says of every worker where its log leads.  The variables are changed by actions
only (`Move.get?_of_untouched`).
-/

namespace BlockScript

variable {κ : Type}

structure Runtime (κ : Type) where
  environment : Environment
  programs : List (Program κ)

def Action.target? : Action → Option String
  | get name | replace name _ | define name _ => some name
  | _ => none

theorem Machine.get?_of_answer {m m' : Machine} {action : Action} {answer : action.Answer}
    {name : String} (other : action.target? ≠ some name)
    (answers : m.answer action = some (answer, m')) : m'.store.get? name = m.store.get? name := by
  cases action with
  | replace changed value =>
      obtain ⟨-, rfl⟩ := Prod.mk.inj (Option.some.inj answers)
      have different : name ≠ changed := fun same => other (congrArg some same.symm)
      exact (Table.get?_replace m.store changed name value).trans (if_neg fun h => different h.1)
  | define changed value =>
      obtain ⟨-, rfl⟩ := Prod.mk.inj (Option.some.inj answers)
      have different : name ≠ changed := fun same => other (congrArg some same.symm)
      exact (Table.get?_set m.store changed name value).trans (if_neg different)
  | sleep duration =>
      simp only [Machine.answer] at answers
      split at answers
      · obtain ⟨-, rfl⟩ := Prod.mk.inj (Option.some.inj answers)
        rfl
      · split at answers
        · cases answers
        · obtain ⟨-, rfl⟩ := Prod.mk.inj (Option.some.inj answers)
          rfl
  | _ =>
      obtain ⟨-, rfl⟩ := Prod.mk.inj (Option.some.inj answers)
      rfl

theorem Environment.store_reportResult (e : Environment) (result : Except EvalError Outcome) :
    (e.reportResult result).store = e.store := by
  rcases result with error | outcome
  · cases error <;> rfl
  · rfl

namespace Runtime

inductive Event (κ : Type) where
  | of (program : Nat) (event : Session.Event κ)
  | changed

def Event.target? : Event κ → Option String
  | of _ (.performed _ action _) => action.target?
  | _ => none

def Event.Touches (name : String) (event : Event κ) : Prop :=
  event.target? = some name

instance (name : String) : DecidablePred (Event.Touches name : Event κ → Prop) := fun event =>
  inferInstanceAs (Decidable (event.target? = some name))

def Event.view (i : Nat) : Event κ → Session.Event κ
  | of program event => if program = i then event else .changed
  | changed => .changed

def view (i : Nat) (history : List (Event κ)) : List (Session.Event κ) :=
  history.map (Event.view i)

def log (i j : Nat) (history : List (Event κ)) : List (Task.Exchange Action.signature) :=
  Session.log j (view i history)

def runs (i : Nat) (history : List (Event κ)) : List (List (Node κ)) :=
  Session.runs (view i history)

def ofRoots (roots : List (List (Node κ))) (environment : Environment) : Runtime κ :=
  ⟨environment, roots.map .ofRoots⟩

theorem view_snoc (i : Nat) (history : List (Event κ)) (event : Event κ) :
    view i (history ++ [event]) = view i history ++ [event.view i] := by
  simp [view]

theorem log_snoc (i j : Nat) (history : List (Event κ)) (event : Event κ) :
    log i j (history ++ [event]) =
      log i j history ++ ((event.view i).exchange? j).toList := by
  rw [log, view_snoc, Session.log_snoc, log]

theorem Event.touches_of_exchange {event : Event κ} {i j : Nat}
    {x : Task.Exchange Action.signature} {name : String}
    (performed : (event.view i).exchange? j = some x) (touches : x.1.target? = some name) :
    event.Touches name := by
  cases event with
  | changed => cases performed
  | of k event =>
      rw [Event.view] at performed
      split at performed
      · cases event with
        | performed l action answer =>
            rw [Session.Event.exchange?] at performed
            split at performed
            · obtain rfl := Option.some.inj performed
              exact touches
            · cases performed
        | _ => cases performed
      · cases performed

variable [Vocabulary κ] {horizon : Nat}

inductive Move (horizon : Nat) : Runtime κ → Event κ → Runtime κ → Prop where
  | own {r : Runtime κ} {i : Nat} {p : Program κ} {event : Session.Event κ} {s : Session κ}
      (here : r.programs[i]? = some p) (acts : event ≠ .changed)
      (move : Session.Move horizon ⟨p, r.environment⟩ event s) :
      Move horizon r (.of i event) ⟨s.environment, r.programs.set i s.program⟩
  | change (r : Runtime κ) (surroundings : Surroundings) :
      Move horizon r .changed { r with environment := { r.environment with surroundings } }

inductive Path (horizon : Nat) : Runtime κ → List (Event κ) → Runtime κ → Prop where
  | nil (r : Runtime κ) : Path horizon r [] r
  | snoc {r r' r'' : Runtime κ} {history : List (Event κ)} {event : Event κ}
      (path : Path horizon r history r') (move : Move horizon r' event r'') :
      Path horizon r (history ++ [event]) r''

theorem Path.of_nil {r r' : Runtime κ} (path : Path horizon r [] r') : r' = r := by
  generalize all : [] = events at path
  cases path with
  | nil => rfl
  | snoc => simp at all

theorem Path.last {r r'' : Runtime κ} {history : List (Event κ)} {event : Event κ}
    (path : Path horizon r (history ++ [event]) r'') :
    ∃ r', Path horizon r history r' ∧ Move horizon r' event r'' := by
  generalize all : history ++ [event] = events at path
  cases path with
  | nil => simp at all
  | snoc path move =>
      obtain ⟨rfl, same⟩ := List.append_inj' all rfl
      obtain rfl := List.singleton_inj.1 same
      exact ⟨_, path, move⟩

theorem Path.start {r₀ r : Runtime κ} {history : List (Event κ)} (path : Path horizon r₀ history r)
    (i : Nat) {p p' : Program κ} (here : r.programs[i]? = some p)
    (starts : p.start horizon = (true, p')) :
    Path horizon r₀ (history ++ [.of i (.started p.roots)])
      ⟨r.environment, r.programs.set i p'⟩ := by
  have acts : Session.Event.started p.roots ≠ .changed := nofun
  exact path.snoc (.own here acts (.start starts))

theorem Path.work {r₀ r : Runtime κ} {history : List (Event κ)} (path : Path horizon r₀ history r)
    (i j : Nat) {p p' : Program κ} {event : Session.Event κ} {e : Environment}
    (here : r.programs[i]? = some p)
    (seen : Session.workerEvent? ⟨p, r.environment⟩ j = some event)
    (steps : p.step j r.environment = some (p', e)) :
    Path horizon r₀ (history ++ [.of i event]) ⟨e, r.programs.set i p'⟩ := by
  have acts : event ≠ .changed := by
    rintro rfl
    cases Session.advances_iff.2 ⟨seen, steps⟩
  exact path.snoc (.own here acts (.work j seen steps))

/-! ## One program among others -/

theorem Move.view {r r' : Runtime κ} {event : Event κ} (move : Move horizon r event r') {i : Nat}
    {p' : Program κ} (here : r'.programs[i]? = some p') : ∃ p, r.programs[i]? = some p ∧
      Session.Move horizon ⟨p, r.environment⟩ (event.view i) ⟨p', r'.environment⟩ := by
  cases move with
  | @own k p event s found acts move =>
      rw [List.getElem?_set] at here
      by_cases same : k = i
      · subst same
        have bound := (List.getElem?_eq_some_iff.1 found).1
        simp only [if_true, bound] at here
        obtain rfl := Option.some.inj here
        refine ⟨p, found, ?_⟩
        rwa [Event.view, if_pos rfl]
      · rw [if_neg same] at here
        refine ⟨p', here, ?_⟩
        rw [Event.view, if_neg same]
        exact .change _ s.environment
  | change surroundings => exact ⟨p', here, .change _ _⟩

theorem Path.view {r r' : Runtime κ} {history : List (Event κ)} (path : Path horizon r history r')
    {i : Nat} {p' : Program κ} (here : r'.programs[i]? = some p') : ∃ p, r.programs[i]? = some p ∧
      Session.Path horizon ⟨p, r.environment⟩ (view i history) ⟨p', r'.environment⟩ := by
  induction path generalizing p' with
  | nil => exact ⟨p', here, .nil _⟩
  | snoc _ move ih =>
      obtain ⟨p, found, last⟩ := move.view here
      obtain ⟨p₀, start, before⟩ := ih found
      rw [view_snoc]
      exact ⟨p₀, start, .snoc before last⟩

theorem Path.recorded {roots : List (List (Node κ))} {e : Environment} {history : List (Event κ)}
    {r : Runtime κ} (path : Path horizon (.ofRoots roots e) history r) {i : Nat} {p : Program κ}
    (here : r.programs[i]? = some p) : Session.Recorded horizon (Runtime.view i history) p := by
  obtain ⟨p₀, start, own⟩ := path.view here
  rw [ofRoots, List.getElem?_map] at start
  obtain ⟨body, -, rfl⟩ := Option.map_eq_some_iff.1 start
  have session : Session.Path horizon (.ofRoots body e) (Runtime.view i history)
      ⟨p, r.environment⟩ := own
  exact session.recorded

/-! ## Variables -/

/-- What a worker does to the variables when it performs an action. -/
theorem Move.performed {r r' : Runtime κ} {i j : Nat} {action : Action} {answer : action.Answer}
    (move : Move horizon r (.of i (.performed j action answer)) r') :
    ∃ p resume m, r.programs[i]? = some p ∧
      p.workers[j]? = some (.executing (.ask action resume)) ∧
      (p.machine r.environment).answer action = some (answer, m) ∧
      r'.environment.store = m.store := by
  cases move with
  | @own _ p _ s here acts move =>
      cases move with
      | work index seen steps =>
          have advances := Session.advances_iff.2 ⟨seen, steps⟩
          cases advances with
          | @performs action resume answer m found answers =>
              exact ⟨p, resume, m, here, found, answers, rfl⟩

theorem Move.get?_of_untouched {r r' : Runtime κ} {event : Event κ} {name : String}
    (move : Move horizon r event r') (untouched : ¬ event.Touches name) :
    r'.environment.store.get? name = r.environment.store.get? name := by
  cases move with
  | change surroundings => rfl
  | own here acts move =>
      cases move with
      | work index seen steps =>
          have advances := Session.advances_iff.2 ⟨seen, steps⟩
          cases advances with
          | performs found answers => exact Machine.get?_of_answer untouched answers
          | returns found ends => rw [Environment.store_reportResult]
          | releases found => rfl
          | exits found => rfl
      | change environment => exact absurd rfl acts
      | _ => rfl

end Runtime

end BlockScript
