import BlockScript.Task

/-!
# Contracts of tasks

A contract says which requests a task may make, which answers it may count on, and with which
errors it may fail.  `Task.Obeys` follows a task through all answers that the contract allows, and
`obeys_bind` takes a sequence apart, so that a contract is proved one request at a time.

* `Leads` relates a task to what some answers leave of it, and `Obeys.of_leads` says that a contract
  still binds what is left.
* `Follows` also keeps the log of requests and answers; `Obeys.follows` says what a contract makes
  of a log whose answers it allows, and `Follows.of_bind` where in a sequence a log leads.
* `Obeys.interpret` carries a contract over to the tasks that requests expand to.
-/

namespace BlockScript

structure Contract (σ : Signature) (ε : Type) where
  asks : σ.Request → Prop
  answers : (request : σ.Request) → σ.Answer request → Prop
  fails : ε → Prop

/-- The contract that allows everything; a task that keeps it promises only its result. -/
def Contract.free {σ : Signature} {ε : Type} : Contract σ ε where
  asks _ := True
  answers _ _ := True
  fails _ := True

namespace Task

variable {σ τ : Signature} {ε α β : Type}

inductive Leads : Task σ ε α → Task σ ε α → Prop where
  | refl (t : Task σ ε α) : Leads t t
  | answered (request : σ.Request) {resume : σ.Answer request → Task σ ε α}
      (answer : σ.Answer request) {t : Task σ ε α} (rest : Leads (resume answer) t) :
      Leads (ask request resume) t

abbrev Exchange (σ : Signature) := (request : σ.Request) × σ.Answer request

inductive Follows : Task σ ε α → List (Exchange σ) → Task σ ε α → Prop where
  | nil (t : Task σ ε α) : Follows t [] t
  | cons {request : σ.Request} {resume : σ.Answer request → Task σ ε α}
      {answer : σ.Answer request} {log : List (Exchange σ)} {t : Task σ ε α}
      (rest : Follows (resume answer) log t) :
      Follows (ask request resume) (⟨request, answer⟩ :: log) t

/-- The task keeps the contract, and a result that it ends with has the property. -/
def Obeys (c : Contract σ ε) : Task σ ε α → (α → Prop) → Prop
  | done a, post => post a
  | fail e, _ => c.fails e
  | crash, _ => True
  | unfinished, _ => True
  | ask request resume, post =>
    c.asks request ∧ ∀ answer, c.answers request answer → Obeys c (resume answer) post

variable {c : Contract σ ε} {d : Contract τ ε} {post post' : α → Prop}

@[simp] theorem obeys_done (a : α) : (done a : Task σ ε α).Obeys c post ↔ post a := Iff.rfl

@[simp] theorem obeys_fail (e : ε) : (fail e : Task σ ε α).Obeys c post ↔ c.fails e := Iff.rfl

@[simp] theorem obeys_crash : (crash : Task σ ε α).Obeys c post := trivial

@[simp] theorem obeys_unfinished : (unfinished : Task σ ε α).Obeys c post := trivial

@[simp] theorem obeys_ask (request : σ.Request) (resume : σ.Answer request → Task σ ε α) :
    (ask request resume).Obeys c post ↔
      c.asks request ∧ ∀ answer, c.answers request answer → (resume answer).Obeys c post := Iff.rfl

@[simp] theorem obeys_bind (t : Task σ ε α) (f : α → Task σ ε β) (post : β → Prop) :
    (t.bind f).Obeys c post ↔ t.Obeys c fun a => (f a).Obeys c post := by
  induction t with
  | ask request resume ih => simp [bind, ih]
  | _ => rfl

theorem Obeys.mono {t : Task σ ε α} {c' : Contract σ ε} (h : t.Obeys c post)
    (asks : ∀ request, c.asks request → c'.asks request)
    (answers : ∀ request answer, c'.answers request answer → c.answers request answer)
    (fails : ∀ e, c.fails e → c'.fails e) (result : ∀ a, post a → post' a) :
    t.Obeys c' post' := by
  induction t with
  | done a => exact result a h
  | fail e => exact fails e h
  | crash => trivial
  | unfinished => trivial
  | ask request resume ih =>
      exact ⟨asks request h.1, fun a allowed => ih a (h.2 a (answers request a allowed))⟩

theorem Obeys.imp {t : Task σ ε α} (h : t.Obeys c post) (result : ∀ a, post a → post' a) :
    t.Obeys c post' :=
  h.mono (fun _ => id) (fun _ _ => id) (fun _ => id) result

theorem obeys_of_permissive (asks : ∀ request, c.asks request) (fails : ∀ e, c.fails e)
    (result : ∀ a, post a) (t : Task σ ε α) : t.Obeys c post := by
  induction t with
  | done a => exact result a
  | fail e => exact fails e
  | crash => trivial
  | unfinished => trivial
  | ask request resume ih => exact ⟨asks request, fun a _ => ih a⟩

theorem obeys_free_bind {t : Task σ ε α} {f : α → Task σ ε β} {post : β → Prop}
    (h : ∀ a, (f a).Obeys .free post) : (t.bind f).Obeys .free post :=
  (obeys_bind t f post).2 (obeys_of_permissive (fun _ => trivial) (fun _ => trivial) h t)

theorem Obeys.map {t : Task σ ε α} {f : α → β} {post : β → Prop}
    (h : t.Obeys c fun a => post (f a)) : (f <$> t).Obeys c post := by
  change (t.bind fun a => done (f a)).Obeys c post
  simpa using h

theorem obeys_ofExcept (x : Except ε α) :
    (ofExcept x : Task σ ε α).Obeys c post ↔
      (∀ a, x = .ok a → post a) ∧ ∀ e, x = .error e → c.fails e := by
  cases x <;> simp [ofExcept]

theorem Obeys.interpret {t : Task σ ε α} {handle : (r : σ.Request) → Task τ ε (σ.Answer r)}
    (h : t.Obeys c post) (fails : ∀ e, c.fails e → d.fails e)
    (handled : ∀ request, c.asks request → (handle request).Obeys d (c.answers request)) :
    (t.interpret handle).Obeys d post := by
  induction t with
  | done a => exact h
  | fail e => exact fails e h
  | crash => trivial
  | unfinished => trivial
  | ask request resume ih =>
      rw [Task.interpret, obeys_bind]
      exact (handled request h.1).imp fun a allowed => ih a (h.2 a allowed)

theorem Obeys.of_leads {t t' : Task σ ε α} (h : t.Obeys c post) (leads : t.Leads t')
    (open_ : ∀ request answer, c.answers request answer) : t'.Obeys c post := by
  induction leads with
  | refl t => exact h
  | answered request answer rest ih => exact ih (h.2 answer (open_ request answer))

/-! ## Logs -/

theorem Follows.append {t t' t'' : Task σ ε α} {log log' : List (Exchange σ)}
    (first : t.Follows log t') (second : t'.Follows log' t'') : t.Follows (log ++ log') t'' := by
  induction first with
  | nil t => exact second
  | cons _ ih => exact .cons (ih second)

theorem Follows.split {t t' : Task σ ε α} {log log' : List (Exchange σ)}
    (follows : t.Follows (log ++ log') t') : ∃ u, t.Follows log u ∧ u.Follows log' t' := by
  induction log generalizing t with
  | nil => exact ⟨t, .nil t, follows⟩
  | cons x rest ih =>
      cases follows with
      | cons follows =>
          obtain ⟨u, first, second⟩ := ih follows
          exact ⟨u, .cons first, second⟩

theorem Follows.unique {t u u' : Task σ ε α} {log : List (Exchange σ)} (first : t.Follows log u)
    (second : t.Follows log u') : u = u' := by
  induction first with
  | nil t =>
      cases second
      rfl
  | cons _ ih =>
      cases second with
      | cons rest => exact ih rest

/-- A sequence is still in its first part, or has ended it and is in its second. -/
theorem Follows.of_bind {t : Task σ ε α} {f : α → Task σ ε β} {log : List (Exchange σ)}
    {u : Task σ ε β} (follows : (t.bind f).Follows log u) :
    (∃ t', t.Follows log t' ∧ u = t'.bind f) ∨
    ∃ a first second, log = first ++ second ∧ t.Follows first (done a) ∧
      (f a).Follows second u := by
  induction t generalizing log with
  | done a => exact .inr ⟨a, [], log, rfl, .nil _, follows⟩
  | ask request resume ih =>
      cases follows with
      | nil => exact .inl ⟨_, .nil _, rfl⟩
      | cons follows =>
          rcases ih _ follows with ⟨t', start, rfl⟩ | ⟨a, first, second, rfl, start, rest⟩
          · exact .inl ⟨t', .cons start, rfl⟩
          · exact .inr ⟨a, _ :: first, second, rfl, .cons start, rest⟩
  | fail | crash | unfinished =>
      cases follows
      exact .inl ⟨_, .nil _, rfl⟩

theorem Obeys.follows {t t' : Task σ ε α} {log : List (Exchange σ)} (h : t.Obeys c post)
    (follows : t.Follows log t') (answers : ∀ x ∈ log, c.answers x.1 x.2) :
    t'.Obeys c post ∧ ∀ x ∈ log, c.asks x.1 := by
  induction follows with
  | nil t => exact ⟨h, nofun⟩
  | cons _ ih =>
      obtain ⟨first, later⟩ := List.forall_mem_cons.1 answers
      obtain ⟨rest, asked⟩ := ih (h.2 _ first) later
      exact ⟨rest, List.forall_mem_cons.2 ⟨h.1, asked⟩⟩

end Task

end BlockScript
