import BlockScript.Proofs.Json.Scalars

/-!
# JSON values in text

A value is `Orderly` if its containers nest no deeper than a limit and its objects list their fields
in ascending order.  `orderly_of_readValue` says that reading gives nothing else, and
`Spells.readValue_write` that such a value, if its numbers are exact, is read back from its text,
however blanks are put there; `parse?_compact` is the case of a text without blanks, and
`parseFields?_pretty` that of an indented text that holds an object.  The limit only decides whether
a text is read, not as what (`extends_readValue`): a text that nests deeper is not read as something
else instead (`parse?_compact_of_deep`).
-/

namespace BlockScript.Json

/-! ## Containers -/

def spellEntries {α : Type} (write : α → List Char) (lead trail : List Char) :
    List α → List Char
  | [] => []
  | [a] => lead ++ (write a ++ trail)
  | a :: rest => lead ++ (write a ++ ',' :: spellEntries write lead trail rest)

def Blank (cs : List Char) : Prop := ∀ c ∈ cs, isSpace c = true

def Starts (text : List Char) : Prop := ∃ c rest, text = c :: rest ∧ isSpace c = false

theorem skipSpace_append {blank text : List Char} (h : Blank blank) (starts : Starts text) :
    skipSpace (blank ++ text) = text := by
  obtain ⟨c, rest, rfl, other⟩ := starts
  rw [skipSpace, List.dropWhile_append_of_pos h, List.dropWhile_cons_of_neg (by simp [other])]

theorem stops_append {blank text : List Char} (h : Blank blank) (stops : Stops text) :
    Stops (blank ++ text) := by
  rcases blank with _ | ⟨c, blank⟩
  · exact stops
  · intro d mem
    obtain rfl := Option.mem_some_iff.1 mem
    have space := h c List.mem_cons_self
    simp only [isSpace, Bool.or_eq_true, decide_eq_true_eq] at space
    rcases space with ((rfl | rfl) | rfl) | rfl <;> decide

theorem Starts.append {text : List Char} (starts : Starts text) (rest : List Char) :
    Starts (text ++ rest) := by
  obtain ⟨c, cs, rfl, other⟩ := starts
  exact ⟨c, cs ++ rest, rfl, other⟩

section
variable {α : Type} {entry : Reader α} {close : Char} {write : α → List Char}
  {lead trail : List Char}

structure Inverts (entry : Reader α) (write : α → List Char) (close : Char) (a : α) : Prop where
  starts : Starts (write a)
  opens : (write a).head? ≠ some close
  reads : ∀ rest, Stops rest → entry (write a ++ rest) = some (a, rest)

theorem readEntries_spell (hl : Blank lead) (ht : Blank trail) (closes : isSpace close = false)
    (comma : close ≠ ',') (stops : ∀ rest, Stops (close :: rest)) {as : List α}
    (each : ∀ a ∈ as, Inverts entry write close a) (some : as ≠ []) {fuel : Nat}
    (enough : as.length ≤ fuel) (rest : List Char) :
    readEntries entry close fuel (spellEntries write lead trail as ++ close :: rest) =
      .some (as, rest) := by
  induction as generalizing fuel with
  | nil => exact absurd rfl some
  | cons a as ih =>
      obtain ⟨first, others⟩ := List.forall_mem_cons.1 each
      obtain ⟨fuel, rfl⟩ : ∃ n, fuel = n + 1 := ⟨fuel - 1, by simp at enough; omega⟩
      cases as with
      | nil =>
          have after : Stops (trail ++ close :: rest) := stops_append ht (stops rest)
          have closing : Starts (close :: rest) := ⟨close, rest, rfl, closes⟩
          simp only [spellEntries, readEntries, List.append_assoc]
          rw [skipSpace_append hl (first.starts.append _), first.reads _ after, Option.bind_some,
            skipSpace_append ht closing]
          exact if_pos rfl
      | cons b as =>
          have read := ih others (List.cons_ne_nil b as) (Nat.le_of_succ_le_succ enough)
          -- what follows the first entry is a comma, which no number goes on into
          have after (text : List Char) : Stops (',' :: text) := by
            intro c mem
            obtain rfl := Option.mem_some_iff.1 mem
            exact ⟨rfl, by decide, by decide, by decide⟩
          simp only [spellEntries, readEntries, List.append_assoc, List.cons_append]
          rw [skipSpace_append hl (first.starts.append _), first.reads _ (after _),
            Option.bind_some]
          have here (text : List Char) : skipSpace (',' :: text) = ',' :: text := rfl
          simp only [here, if_neg comma.symm, if_true]
          rw [read]
          rfl

theorem length_le_spellEntries (write : α → List Char) (lead trail : List Char) (as : List α) :
    as.length ≤ (spellEntries write lead trail as).length + 1 := by
  induction as with
  | nil => simp
  | cons a as ih =>
      cases as with
      | nil => simp
      | cons b as =>
          simp only [spellEntries, List.length_append, List.length_cons] at ih ⊢
          omega

theorem exists_spellEntries_cons (write : α → List Char) (lead trail : List Char) (a : α)
    (as : List α) :
    ∃ tail, spellEntries write lead trail (a :: as) = lead ++ (write a ++ tail) := by
  cases as with
  | nil => exact ⟨_, rfl⟩
  | cons b as => exact ⟨_, rfl⟩

theorem readSequence_spell (hl : Blank lead) (ht : Blank trail) (closes : isSpace close = false)
    (comma : close ≠ ',') (stops : ∀ rest, Stops (close :: rest)) {as : List α}
    (each : ∀ a ∈ as, Inverts entry write close a) (rest : List Char) :
    readSequence entry close (spellEntries write lead trail as ++ close :: rest) =
      some (as, rest) := by
  cases as with
  | nil =>
      have here : skipSpace (close :: rest) = close :: rest :=
        skipSpace_append (show Blank [] from nofun) ⟨close, rest, rfl, closes⟩
      rw [spellEntries, List.nil_append, readSequence, here]
      exact if_pos rfl
  | cons a as =>
      have enough : (a :: as).length ≤
          (spellEntries write lead trail (a :: as) ++ close :: rest).length := by
        have bound := length_le_spellEntries write lead trail (a :: as)
        simp only [List.length_append, List.length_cons] at bound ⊢
        omega
      have read := readEntries_spell hl ht closes comma stops each (List.cons_ne_nil a as) enough
        rest
      have first := each a List.mem_cons_self
      obtain ⟨c, cs, starts, space⟩ := first.starts
      have other : c ≠ close := fun eq => first.opens (by rw [starts, eq, List.head?_cons])
      obtain ⟨tail, cons⟩ := exists_spellEntries_cons write lead trail a as
      have here : skipSpace (spellEntries write lead trail (a :: as) ++ close :: rest) =
          c :: (cs ++ (tail ++ close :: rest)) := by
        rw [cons, List.append_assoc, List.append_assoc, skipSpace_append hl (first.starts.append _),
          starts, List.cons_append]
      rw [readSequence, here]
      exact (if_neg other).trans read

end

/-! ## Values -/

inductive Holds (n : Number) : Json → Prop where
  | here : Holds n (.number n)
  | item {items : List Json} {item : Json} (member : item ∈ items) (holds : Holds n item) :
      Holds n (.array items)
  | field {fields : List (String × Json)} {field : String × Json} (member : field ∈ fields)
      (holds : Holds n field.2) : Holds n (.object fields)

@[simp] theorem not_holds_null {n : Number} : ¬ null.Holds n := nofun

@[simp] theorem not_holds_string {n : Number} {s : String} : ¬ (string s).Holds n := nofun

@[simp] theorem holds_number {n m : Number} : (number m).Holds n ↔ m = n := by
  constructor
  · rintro ⟨⟩
    rfl
  · rintro rfl
    exact .here

@[simp] theorem holds_array {n : Number} {items : List Json} :
    (array items).Holds n ↔ ∃ item ∈ items, item.Holds n := by
  constructor
  · rintro (_ | ⟨member, holds⟩)
    exact ⟨_, member, holds⟩
  · rintro ⟨item, member, holds⟩
    exact .item member holds

@[simp] theorem holds_object {n : Number} {fields : List (String × Json)} :
    (object fields).Holds n ↔ ∃ field ∈ fields, field.2.Holds n := by
  constructor
  · rintro (_ | _ | ⟨member, holds⟩)
    exact ⟨_, member, holds⟩
  · rintro ⟨field, member, holds⟩
    exact .field member holds

/-- Containers nest at most `depth` deep, and the fields of objects are in ascending order. -/
inductive Orderly : Nat → Json → Prop where
  | null (depth : Nat) : Orderly depth .null
  | bool (depth : Nat) (b : Bool) : Orderly depth (.bool b)
  | number (depth : Nat) (n : Number) : Orderly depth (.number n)
  | string (depth : Nat) (s : String) : Orderly depth (.string s)
  | array {depth : Nat} {items : List Json} (each : ∀ item ∈ items, Orderly depth item) :
      Orderly (depth + 1) (.array items)
  | object {depth : Nat} {fields : List (String × Json)} (ascending : Ascending fields)
      (each : ∀ field ∈ fields, Orderly depth field.2) : Orderly (depth + 1) (.object fields)

theorem readValue_of_ne (depth : Nat) {c : Char} (cs : List Char) (array : c ≠ '[')
    (object : c ≠ '\x7b') : readValue depth (c :: cs) = readScalar (c :: cs) := by
  cases depth <;> simp [readValue, array, object]

theorem ne_of_head {c d : Char} (head : c = '-' ∨ isDigit c = true)
    (member : d ∈ [' ', '\t', '\n', '\r', '"', '[', ']', '\x7b', '\x7d', 'n', 't', 'f']) :
    c ≠ d := by
  rintro rfl
  have none := List.all_eq_true.1 (show List.all
    [' ', '\t', '\n', '\r', '"', '[', ']', '\x7b', '\x7d', 'n', 't', 'f']
    (fun c => !(c = '-' || isDigit c)) = true by decide) c member
  rw [Bool.not_eq_true', Bool.or_eq_false_iff, decide_eq_false_iff_not] at none
  rcases head with minus | digit
  · exact none.1 minus
  · exact Bool.eq_false_iff.1 none.2 digit

theorem readScalar_number {n : Number} (exact : n.Exact) {rest : List Char} (stops : Stops rest) :
    readScalar (n.render.toList ++ rest) = some (.number n, rest) := by
  obtain ⟨c, cs, eq, head⟩ := head_of_readNumber exact
  have read := readNumber_append stops exact
  rw [eq, List.cons_append] at read ⊢
  simp [readScalar, ne_of_head head, read]

theorem stops_bracket (rest : List Char) : Stops (']' :: rest) := by
  intro c mem
  obtain rfl := Option.mem_some_iff.1 mem
  decide

theorem stops_brace (rest : List Char) : Stops ('\x7d' :: rest) := by
  intro c mem
  obtain rfl := Option.mem_some_iff.1 mem
  decide

def spellField (gap : List Char) (write : Json → List Char) (field : String × Json) : List Char :=
  renderString field.1 ++ ':' :: (gap ++ write field.2)

/-- A way to write values at every level of nesting that differs from others in blanks only. -/
structure Spells (write : Nat → Json → List Char) (lead trail : Nat → List Char)
    (gap : List Char) : Prop where
  blank_lead : ∀ level, Blank (lead level)
  blank_trail : ∀ level, Blank (trail level)
  blank_gap : Blank gap
  null : ∀ level, write level .null = render .null
  bool : ∀ level b, write level (.bool b) = render (.bool b)
  number : ∀ level n, write level (.number n) = render (.number n)
  string : ∀ level s, write level (.string s) = render (.string s)
  array : ∀ level items, write level (.array items) = '[' ::
    (spellEntries (write (level + 1)) (lead level) (trail level) items ++ [']'])
  object : ∀ level fields, write level (.object fields) = '\x7b' ::
    (spellEntries (spellField gap (write (level + 1))) (lead level) (trail level) fields ++
      ['\x7d'])

namespace Spells

variable {write : Nat → Json → List Char} {lead trail : Nat → List Char} {gap : List Char}

theorem exists_cons (spells : Spells write lead trail gap) (level : Nat) (j : Json)
    (exact : ∀ n, j.Holds n → n.Exact) :
    ∃ c rest, write level j = c :: rest ∧ isSpace c = false ∧ c ≠ ']' := by
  cases j with
  | null => exact ⟨'n', _, spells.null level, by decide, by decide⟩
  | bool b =>
      cases b with
      | false => exact ⟨'f', _, spells.bool level false, by decide, by decide⟩
      | true => exact ⟨'t', _, spells.bool level true, by decide, by decide⟩
  | number n =>
      obtain ⟨c, rest, eq, head⟩ := head_of_readNumber (exact n .here)
      have space : isSpace c = false := by
        simp [isSpace, ne_of_head head]
      exact ⟨c, rest, (spells.number level n).trans eq, space, ne_of_head head (by decide)⟩
  | string s => exact ⟨'"', _, spells.string level s, by decide, by decide⟩
  | array items => exact ⟨'[', _, spells.array level items, by decide, by decide⟩
  | object fields => exact ⟨'\x7b', _, spells.object level fields, by decide, by decide⟩

theorem inverts_value (spells : Spells write lead trail gap) {depth level : Nat} {j : Json}
    (exact : ∀ n, j.Holds n → n.Exact)
    (reads : ∀ rest, Stops rest → readValue depth (write level j ++ rest) = some (j, rest)) :
    Inverts (readValue depth) (write level) ']' j := by
  obtain ⟨c, rest, eq, space, other⟩ := spells.exists_cons level j exact
  refine ⟨⟨c, rest, eq, space⟩, ?_, reads⟩
  rw [eq, List.head?_cons]
  exact fun same => other (Option.some.inj same)

theorem inverts_field (spells : Spells write lead trail gap) {depth level : Nat}
    {field : String × Json} (exact : ∀ n, field.2.Holds n → n.Exact)
    (reads : ∀ rest, Stops rest →
      readValue depth (write level field.2 ++ rest) = some (field.2, rest)) :
    Inverts (readField (readValue depth)) (spellField gap (write level)) '\x7d' field := by
  refine ⟨⟨'"', _, rfl, by decide⟩, ?_, fun rest stops => ?_⟩
  · exact fun same => absurd (Option.some.inj same) (by decide)
  · obtain ⟨c, cs, eq, space, -⟩ := spells.exists_cons level field.2 exact
    have value : skipSpace (gap ++ (write level field.2 ++ rest)) = write level field.2 ++ rest :=
      skipSpace_append spells.blank_gap ⟨c, cs ++ rest, by rw [eq]; rfl, space⟩
    have colon (text : List Char) : skipSpace (':' :: text) = ':' :: text := rfl
    simp only [readField, spellField, List.append_assoc, List.cons_append]
    rw [readString_renderString, Option.bind_some]
    simp only [colon, value, reads rest stops, Option.map_some]

theorem readSequence_fields (spells : Spells write lead trail gap) {depth : Nat} (level : Nat)
    {fields : List (String × Json)} (exact : ∀ field ∈ fields, ∀ n, field.2.Holds n → n.Exact)
    (reads : ∀ field ∈ fields, ∀ rest, Stops rest →
      readValue depth (write (level + 1) field.2 ++ rest) = some (field.2, rest))
    (rest : List Char) :
    readSequence (readField (readValue depth)) '\x7d'
      (spellEntries (spellField gap (write (level + 1))) (lead level) (trail level) fields ++
        '\x7d' :: rest) = some (fields, rest) :=
  readSequence_spell (spells.blank_lead level) (spells.blank_trail level) (by decide) (by decide)
    stops_brace (fun field mem => spells.inverts_field (exact field mem) (reads field mem)) rest

theorem readValue_write (spells : Spells write lead trail gap) {depth : Nat} {j : Json}
    (orderly : j.Orderly depth) (exact : ∀ n, j.Holds n → n.Exact) (level : Nat)
    (rest : List Char) (stops : Stops rest) :
    readValue depth (write level j ++ rest) = some (j, rest) := by
  induction orderly generalizing level rest with
  | null depth =>
      rw [spells.null]
      exact (readValue_of_ne depth _ (by decide) (by decide)).trans rfl
  | bool depth b =>
      rw [spells.bool]
      cases b with
      | false => exact (readValue_of_ne depth _ (by decide) (by decide)).trans rfl
      | true => exact (readValue_of_ne depth _ (by decide) (by decide)).trans rfl
  | number depth n =>
      obtain ⟨c, cs, eq, head⟩ := head_of_readNumber (exact n .here)
      have scalar := readScalar_number (exact n .here) stops
      rw [spells.number, render]
      rw [eq, List.cons_append] at scalar ⊢
      rw [readValue_of_ne depth _ (ne_of_head head (by decide)) (ne_of_head head (by decide)),
        scalar]
  | string depth s =>
      have scalar : readScalar (renderString s ++ rest) =
          (readString (renderString s ++ rest)).map (Prod.map .string id) := rfl
      rw [readString_renderString, Option.map_some] at scalar
      rw [spells.string, render]
      exact (readValue_of_ne depth _ (by decide) (by decide)).trans scalar
  | @array depth items each ih =>
      have inside (item : Json) (mem : item ∈ items) (n : Number) (holds : item.Holds n) :
          n.Exact := exact n (.item mem holds)
      have read := readSequence_spell (spells.blank_lead level) (spells.blank_trail level)
        (by decide) (by decide) stops_bracket (fun item mem =>
          spells.inverts_value (inside item mem) (ih item mem (inside item mem) (level + 1))) rest
      rw [spells.array, List.cons_append, List.append_assoc, List.singleton_append, readValue,
        read, Option.map_some]
  | @object depth fields ascending each ih =>
      have inside (field : String × Json) (mem : field ∈ fields) (n : Number)
          (holds : field.2.Holds n) : n.Exact := exact n (.field mem holds)
      have read := spells.readSequence_fields level inside
        (fun field mem => ih field mem (inside field mem) (level + 1)) rest
      rw [spells.object, List.cons_append, List.append_assoc, List.singleton_append, readValue,
        read, Option.map_some]
      simp only [sortEntries_of_ascending ascending]

end Spells

/-! ## Both layouts -/

theorem prettyItems_eq (depth : Nat) (items : List Json) (some : items ≠ []) :
    prettyItems depth items ++ newLine depth =
      spellEntries (renderPretty (depth + 1)) (newLine (depth + 1)) (newLine depth) items := by
  induction items with
  | nil => exact absurd rfl some
  | cons item items ih =>
      cases items with
      | nil => simp [prettyItems, spellEntries]
      | cons next items =>
          have rest := ih (List.cons_ne_nil next items)
          simp [prettyItems, spellEntries, ← rest]

theorem prettyFields_eq (depth : Nat) (fields : List (String × Json)) (some : fields ≠ []) :
    prettyFields depth fields ++ newLine depth =
      spellEntries (spellField [' '] (renderPretty (depth + 1))) (newLine (depth + 1))
        (newLine depth) fields := by
  induction fields with
  | nil => exact absurd rfl some
  | cons field fields ih =>
      obtain ⟨key, value⟩ := field
      cases fields with
      | nil => simp [prettyFields, spellEntries, spellField]
      | cons next fields =>
          have rest := ih (List.cons_ne_nil next fields)
          simp [prettyFields, spellEntries, spellField, ← rest]

theorem renderItems_eq (items : List Json) : renderItems items = spellEntries render [] [] items := by
  induction items with
  | nil => rw [renderItems, spellEntries]
  | cons item items ih =>
      cases items with
      | nil => simp [renderItems, spellEntries]
      | cons next items => simp [renderItems, spellEntries, ← ih]

theorem renderFields_eq (fields : List (String × Json)) :
    renderFields fields = spellEntries (spellField [] render) [] [] fields := by
  induction fields with
  | nil => rw [renderFields, spellEntries]
  | cons field fields ih =>
      obtain ⟨key, value⟩ := field
      cases fields with
      | nil => simp [renderFields, spellEntries, spellField]
      | cons next fields => simp [renderFields, spellEntries, spellField, ← ih]

theorem blank_newLine (depth : Nat) : Blank (newLine depth) := by
  intro c mem
  rcases List.mem_cons.1 mem with rfl | mem
  · rfl
  · rw [List.eq_of_mem_replicate mem]
    rfl

theorem spells_renderPretty :
    Spells renderPretty (fun level => newLine (level + 1)) newLine [' '] where
  blank_lead level := blank_newLine (level + 1)
  blank_trail := blank_newLine
  blank_gap := List.forall_mem_singleton.2 rfl
  null _ := rfl
  bool _ _ := rfl
  number _ _ := rfl
  string _ _ := rfl
  array level items := by
    cases items with
    | nil => rfl
    | cons item items =>
        rw [← prettyItems_eq level _ (List.cons_ne_nil item items)]
        simp [renderPretty]
  object level fields := by
    cases fields with
    | nil => rfl
    | cons field fields =>
        rw [← prettyFields_eq level _ (List.cons_ne_nil field fields)]
        simp [renderPretty]

theorem spells_render : Spells (fun _ => render) (fun _ => []) (fun _ => []) [] where
  blank_lead _ := nofun
  blank_trail _ := nofun
  blank_gap := nofun
  null _ := rfl
  bool _ _ := rfl
  number _ _ := rfl
  string _ _ := rfl
  array _ items := by simp [render, renderItems_eq]
  object _ fields := by simp [render, renderFields_eq]

theorem parseFields?_pretty {fields : List (String × Json)}
    (orderly : ∀ field ∈ fields, field.2.Orderly (depthLimit - 1))
    (exact : ∀ n, (object fields).Holds n → n.Exact) :
    parseFields? (object fields).pretty = some fields := by
  have inside (field : String × Json) (mem : field ∈ fields) (n : Number)
      (holds : field.2.Holds n) : n.Exact := exact n (.field mem holds)
  have read := spells_renderPretty.readSequence_fields 0 inside (fun field mem =>
    spells_renderPretty.readValue_write (orderly field mem) (inside field mem) 1) []
  have start (text : List Char) : skipSpace ('\x7b' :: text) = '\x7b' :: text := rfl
  rw [parseFields?, readWhole, pretty, String.toList_ofList, spells_renderPretty.object, start]
  simp only [read]
  rfl

theorem skipSpace_render {j : Json} (exact : ∀ n, j.Holds n → n.Exact) :
    skipSpace j.render = j.render := by
  obtain ⟨c, rest, eq, space, -⟩ := spells_render.exists_cons 0 j exact
  exact skipSpace_append (show Blank [] from nofun) ⟨c, rest, eq, space⟩

theorem stops_nil : Stops [] := nofun

theorem parse?_compact {j : Json} (orderly : j.Orderly depthLimit)
    (exact : ∀ n, j.Holds n → n.Exact) : parse? j.compact = some j := by
  have read := spells_render.readValue_write orderly exact 0 [] stops_nil
  rw [List.append_nil] at read
  rw [parse?, readWhole, compact, String.toList_ofList, skipSpace_render exact, read]
  rfl

/-! ## What reading gives -/

section
variable {α : Type} {entry : Reader α} {close : Char}

theorem forall_of_readEntries {p : α → Prop}
    (each : ∀ cs a rest, entry cs = some (a, rest) → p a) {fuel : Nat} {cs rest : List Char}
    {as : List α} (read : readEntries entry close fuel cs = some (as, rest)) : ∀ a ∈ as, p a := by
  induction fuel generalizing cs as rest with
  | zero => cases read
  | succ fuel ih =>
      obtain ⟨⟨first, after⟩, here, more⟩ := Option.bind_eq_some_iff.1 read
      have head := each _ first after here
      dsimp only at more
      split at more
      · split at more
        · obtain ⟨rfl, -⟩ := Prod.mk.inj (Option.some.inj more)
          exact List.forall_mem_singleton.2 head
        split at more
        · obtain ⟨⟨others, last⟩, next, same⟩ := Option.map_eq_some_iff.1 more
          obtain ⟨rfl, -⟩ := Prod.mk.inj same
          exact List.forall_mem_cons.2 ⟨head, ih next⟩
        · cases more
      · cases more

theorem forall_of_readSequence {p : α → Prop}
    (each : ∀ cs a rest, entry cs = some (a, rest) → p a) {cs rest : List Char}
    {as : List α} (read : readSequence entry close cs = some (as, rest)) : ∀ a ∈ as, p a := by
  unfold readSequence at read
  split at read
  · split at read
    · obtain ⟨rfl, -⟩ := Prod.mk.inj (Option.some.inj read)
      nofun
    · exact forall_of_readEntries each read
  · cases read

end

theorem orderly_of_readScalar (depth : Nat) {cs rest : List Char} {j : Json}
    (read : readScalar cs = some (j, rest)) : j.Orderly depth := by
  have word {word : String} {json : Json} (orderly : json.Orderly depth)
      (read : readWord word json cs = some (j, rest)) : j.Orderly depth := by
    unfold readWord at read
    split at read
    · obtain ⟨rfl, -⟩ := Prod.mk.inj (Option.some.inj read)
      exact orderly
    · cases read
  unfold readScalar at read
  split at read
  · exact word (.null depth) read
  · exact word (.bool depth _) read
  · exact word (.bool depth _) read
  · obtain ⟨⟨s, after⟩, -, same⟩ := Option.map_eq_some_iff.1 read
    obtain ⟨rfl, -⟩ := Prod.mk.inj same
    exact .string depth s
  · obtain ⟨⟨n, after⟩, -, same⟩ := Option.map_eq_some_iff.1 read
    obtain ⟨rfl, -⟩ := Prod.mk.inj same
    exact .number depth n

theorem orderly_of_readField {depth : Nat}
    (value : ∀ cs j rest, readValue depth cs = some (j, rest) → j.Orderly depth)
    (cs : List Char) (field : String × Json) (rest : List Char)
    (read : readField (readValue depth) cs = some (field, rest)) : field.2.Orderly depth := by
  obtain ⟨⟨key, after⟩, -, more⟩ := Option.bind_eq_some_iff.1 read
  dsimp only at more
  split at more
  · obtain ⟨⟨j, last⟩, here, same⟩ := Option.map_eq_some_iff.1 more
    obtain ⟨rfl, -⟩ := Prod.mk.inj same
    exact value _ j last here
  · cases more

theorem orderly_of_readValue (depth : Nat) (cs : List Char) (j : Json) (rest : List Char)
    (read : readValue depth cs = some (j, rest)) : j.Orderly depth := by
  induction depth generalizing cs j rest with
  | zero =>
      rcases cs with _ | ⟨c, cs⟩
      · exact orderly_of_readScalar 0 read
      by_cases array : c = '['
      · subst array
        cases read
      by_cases object : c = '\x7b'
      · subst object
        cases read
      · rw [readValue_of_ne 0 cs array object] at read
        exact orderly_of_readScalar 0 read
  | succ depth ih =>
      rcases cs with _ | ⟨c, cs⟩
      · exact orderly_of_readScalar _ read
      by_cases array : c = '['
      · subst array
        obtain ⟨⟨items, after⟩, here, same⟩ := Option.map_eq_some_iff.1 read
        obtain ⟨rfl, -⟩ := Prod.mk.inj same
        exact .array (forall_of_readSequence ih here)
      by_cases object : c = '\x7b'
      · subst object
        obtain ⟨⟨fields, after⟩, here, same⟩ := Option.map_eq_some_iff.1 read
        obtain ⟨rfl, -⟩ := Prod.mk.inj same
        exact .object (ascending_sortEntries fields) fun field mem =>
          forall_of_readSequence (orderly_of_readField ih) here field (mem_of_mem_sortEntries mem)
      · rw [readValue_of_ne _ cs array object] at read
        exact orderly_of_readScalar _ read

theorem orderly_of_parseFields? {text : String} {fields : List (String × Json)}
    (read : parseFields? text = some fields) :
    ∀ field ∈ fields, field.2.Orderly (depthLimit - 1) := by
  unfold parseFields? readWhole at read
  split at read
  · next value rest here =>
    split at read
    · obtain rfl := Option.some.inj read
      dsimp only at here
      split at here
      · exact forall_of_readSequence (orderly_of_readField (orderly_of_readValue _)) here
      · cases here
    · cases read
  · cases read

/-! ## Deeper reading -/

def Extends {α : Type} (entry entry' : Reader α) : Prop :=
  ∀ cs result, entry cs = some result → entry' cs = some result

section
variable {α : Type} {entry entry' : Reader α} {close : Char}

theorem Extends.readEntries (ext : Extends entry entry') (fuel : Nat) :
    Extends (readEntries entry close fuel) (readEntries entry' close fuel) := by
  induction fuel with
  | zero => nofun
  | succ fuel ih =>
      intro cs result read
      obtain ⟨⟨first, after⟩, here, more⟩ := Option.bind_eq_some_iff.1 read
      refine Option.bind_eq_some_iff.2 ⟨_, ext _ _ here, ?_⟩
      dsimp only at more ⊢
      split at more
      · split at more
        · next closed => exact (if_pos closed).trans more
        split at more
        · next open' comma =>
          obtain ⟨_, next, same⟩ := Option.map_eq_some_iff.1 more
          rw [if_neg open', if_pos comma, ih _ _ next, Option.map_some, same]
        · cases more
      · cases more

theorem Extends.readSequence (ext : Extends entry entry') :
    Extends (readSequence entry close) (readSequence entry' close) := by
  intro cs result read
  unfold Json.readSequence at read ⊢
  split at read
  · split at read
    · next closed => exact (if_pos closed).trans read
    · next open' => exact (if_neg open').trans (ext.readEntries _ _ _ read)
  · cases read

theorem Extends.readField {value value' : Reader Json} (ext : Extends value value') :
    Extends (readField value) (readField value') := by
  intro cs result read
  obtain ⟨⟨key, after⟩, here, more⟩ := Option.bind_eq_some_iff.1 read
  refine Option.bind_eq_some_iff.2 ⟨_, here, ?_⟩
  dsimp only at more ⊢
  split at more
  · obtain ⟨_, found, same⟩ := Option.map_eq_some_iff.1 more
    rw [ext _ _ found, Option.map_some, same]
  · cases more

end

theorem extends_readValue_succ (depth : Nat) :
    Extends (readValue depth) (readValue (depth + 1)) := by
  induction depth with
  | zero =>
      intro cs result read
      rcases cs with _ | ⟨c, cs⟩
      · exact read
      by_cases array : c = '['
      · subst array
        cases read
      by_cases object : c = '\x7b'
      · subst object
        cases read
      · rwa [readValue_of_ne _ cs array object] at read ⊢
  | succ depth ih =>
      intro cs result read
      rcases cs with _ | ⟨c, cs⟩
      · exact read
      by_cases array : c = '['
      · subst array
        obtain ⟨_, here, same⟩ := Option.map_eq_some_iff.1 read
        exact Option.map_eq_some_iff.2 ⟨_, ih.readSequence _ _ here, same⟩
      by_cases object : c = '\x7b'
      · subst object
        obtain ⟨_, here, same⟩ := Option.map_eq_some_iff.1 read
        exact Option.map_eq_some_iff.2 ⟨_, ih.readField.readSequence _ _ here, same⟩
      · rwa [readValue_of_ne _ cs array object] at read ⊢

/-- A higher limit changes nothing about the text that is read below a lower one. -/
theorem extends_readValue {depth depth' : Nat} (le : depth ≤ depth') :
    Extends (readValue depth) (readValue depth') := by
  induction le with
  | refl => exact fun _ _ read => read
  | step _ ih => exact fun cs result read => extends_readValue_succ _ cs result (ih cs result read)

theorem Orderly.mono {depth depth' : Nat} {j : Json} (orderly : j.Orderly depth)
    (le : depth ≤ depth') : j.Orderly depth' := by
  induction orderly generalizing depth' with
  | null => exact .null depth'
  | bool _ b => exact .bool depth' b
  | number _ n => exact .number depth' n
  | string _ s => exact .string depth' s
  | array each ih =>
      obtain ⟨n, rfl⟩ : ∃ n, depth' = n + 1 := ⟨depth' - 1, by omega⟩
      exact .array fun item mem => ih item mem (Nat.le_of_succ_le_succ le)
  | object ascending each ih =>
      obtain ⟨n, rfl⟩ : ∃ n, depth' = n + 1 := ⟨depth' - 1, by omega⟩
      exact .object ascending fun field mem => ih field mem (Nat.le_of_succ_le_succ le)

/-- However deep an object nests, its text is read as nothing else. -/
theorem eq_of_parseFields?_pretty {depth : Nat} {fields read : List (String × Json)}
    (orderly : ∀ field ∈ fields, field.2.Orderly depth)
    (exact : ∀ n, (object fields).Holds n → n.Exact)
    (reads : parseFields? (object fields).pretty = some read) : read = fields := by
  have inside (field : String × Json) (mem : field ∈ fields) (n : Number)
      (holds : field.2.Holds n) : n.Exact := exact n (.field mem holds)
  have deep := spells_renderPretty.readSequence_fields 0 inside (fun field mem =>
    spells_renderPretty.readValue_write
      ((orderly field mem).mono (Nat.le_max_left depth (depthLimit - 1))) (inside field mem) 1) []
  have start (text : List Char) : skipSpace ('\x7b' :: text) = '\x7b' :: text := rfl
  rw [parseFields?, readWhole, pretty, String.toList_ofList, spells_renderPretty.object,
    start] at reads
  split at reads
  · next value rest here =>
    -- the limit of `deep` is high enough for both, so the two readings are one
    have deeper := (extends_readValue (Nat.le_max_right depth _)).readField.readSequence _ _ here
    obtain ⟨rfl, rfl⟩ := Prod.mk.inj (Option.some.inj (deeper.symm.trans deep))
    exact (Option.some.inj reads).symm
  · cases reads

/-- The text of a value that nests deeper than reading allows is not read at all. -/
theorem parse?_compact_of_deep {depth : Nat} {j : Json} (orderly : j.Orderly depth)
    (deep : ¬ j.Orderly depthLimit) (exact : ∀ n, j.Holds n → n.Exact) :
    parse? j.compact = none := by
  have whole := spells_render.readValue_write (orderly.mono (Nat.le_max_left depth depthLimit))
    exact 0 [] stops_nil
  rw [List.append_nil] at whole
  rw [parse?, readWhole, compact, String.toList_ofList, skipSpace_render exact]
  split
  · next value rest here =>
    have deeper := extends_readValue (Nat.le_max_right depth depthLimit) _ _ here
    obtain ⟨rfl, -⟩ := Prod.mk.inj (Option.some.inj (deeper.symm.trans whole))
    exact absurd (orderly_of_readValue depthLimit _ _ _ here) deep
  · rfl

end BlockScript.Json
