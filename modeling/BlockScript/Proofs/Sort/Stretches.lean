import BlockScript.Proofs.Sort.Insertion
import BlockScript.Sort.Stretch
import Mathlib.Data.List.Chain

/-!
# Sorting by stretches

A stretch is `Fine` if it is in order when it is marked so, and can be put in order otherwise.  If
the cuts leave only fine stretches, so do the joints between them, and the list is sorted in the
end; the depths of the joints do not matter for that.
-/

namespace BlockScript.Sort

variable {α : Type} {lt : α → α → Bool}

/-! ## Chains -/

theorem sorted_of_isChain {items : List α} (consistent : Consistent lt items)
    (chain : items.IsChain fun a b => lt b a = false) : Sorted lt items := by
  induction chain with
  | nil => exact .nil
  | singleton a => exact sorted_of_length_le_one (Nat.le_refl 1)
  | @cons_cons a b rest link chain ih =>
      have sorted := ih (consistent.mono fun _ => List.mem_cons_of_mem a)
      exact sorted_cons.2 ⟨fun c => consistent.le_of_mem List.mem_cons_self
        (fun _ => List.mem_cons_of_mem a) sorted link, sorted⟩

theorem le_chainLength (linked : α → α → Bool) (count : Nat) (last : α) (items : List α) :
    count ≤ chainLength linked count last items := by
  induction items generalizing count last with
  | nil => exact Nat.le_refl count
  | cons item rest ih =>
      rw [chainLength]
      split
      · exact Nat.le_of_succ_le (ih (count + 1) item)
      · exact Nat.le_refl count

theorem isChain_take_chainLength (linked : α → α → Bool) (count : Nat) (last : α)
    (items : List α) :
    (last :: items.take (chainLength linked count last items - count)).IsChain
      fun a b => linked a b = true := by
  induction items generalizing count last with
  | nil =>
      rw [List.take_nil]
      exact .singleton last
  | cons item rest ih =>
      rw [chainLength]
      split
      next link =>
        have more := le_chainLength linked (count + 1) item rest
        rw [show chainLength linked (count + 1) item rest - count =
          chainLength linked (count + 1) item rest - (count + 1) + 1 by omega, List.take_succ_cons]
        exact List.isChain_cons_cons.2 ⟨link, ih (count + 1) item⟩
      · rw [Nat.sub_self]
        exact .singleton last

theorem initialChain_cons_cons (lt : α → α → Bool) (a b : α) (rest : List α) :
    ∃ count, 2 ≤ count ∧
      ((a :: b :: rest).take count).IsChain (fun last item => lt item last = lt b a) ∧
      initialChain lt (a :: b :: rest) =
        if lt b a then ((a :: b :: rest).take count).reverse else (a :: b :: rest).take count := by
  refine ⟨_, le_chainLength (fun last item => lt item last == lt b a) 2 b rest, ?_, rfl⟩
  have most := le_chainLength (fun last item => lt item last == lt b a) 2 b rest
  have chain := isChain_take_chainLength (fun last item => lt item last == lt b a) 2 b rest
  obtain ⟨more, isMore⟩ := Nat.exists_eq_add_of_le most
  rw [isMore, Nat.add_sub_cancel_left] at chain
  rw [isMore, Nat.add_comm]
  simp only [beq_iff_eq] at chain
  exact List.isChain_cons_cons.2 ⟨rfl, chain⟩

theorem perm_initialChain (lt : α → α → Bool) (items : List α) :
    (initialChain lt items).Perm (items.take (initialChain lt items).length) := by
  rcases items with _ | ⟨a, _ | ⟨b, rest⟩⟩
  · exact .refl _
  · exact .refl _
  · obtain ⟨count, -, -, isChain⟩ := initialChain_cons_cons lt a b rest
    have perm : (initialChain lt (a :: b :: rest)).Perm ((a :: b :: rest).take count) := by
      rw [isChain]
      split
      · exact List.reverse_perm _
      · exact .refl _
    rwa [perm.length_eq, List.length_take, ← List.take_eq_take_min]

theorem sorted_initialChain {items : List α} (consistent : Consistent lt items) :
    Sorted lt (initialChain lt items) := by
  rcases items with _ | ⟨a, _ | ⟨b, rest⟩⟩
  · exact .nil
  · exact sorted_of_length_le_one (Nat.le_refl 1)
  · obtain ⟨count, -, chain, isChain⟩ := initialChain_cons_cons lt a b rest
    have within : Consistent lt ((a :: b :: rest).take count) :=
      consistent.mono fun _ => List.mem_of_mem_take
    rw [isChain]
    split
    next descends =>
      rw [descends] at chain
      have turned := chain.imp_of_mem_imp fun _ _ ha hb link => within.asymm hb ha link
      exact (sorted_of_isChain within.flip turned).of_reverse
    next ascends =>
      rw [Bool.not_eq_true] at ascends
      exact sorted_of_isChain within (ascends ▸ chain)

/-! ## Cutting -/

structure Stretch.Fine (lt : α → α → Bool) (sort : List α → Option (List α))
    (stretch : Stretch α) : Prop where
  sorted : stretch.sorted = true → Sorted lt stretch.items
  sortable : stretch.sorted = false → Sorts lt sort

theorem fine_of_sorted {sort : List α → Option (List α)} {items : List α}
    (sorted : Sorted lt items) : Stretch.Fine lt sort ⟨items, true⟩ where
  sorted _ := sorted
  sortable unsorted := by cases unsorted

theorem fine_of_sorts {sort : List α → Option (List α)} (sorts : Sorts lt sort) (items : List α) :
    Stretch.Fine lt sort ⟨items, false⟩ where
  sorted sorted := by cases sorted
  sortable _ := sorts

def CutsFront (cut : List α → Option (Stretch α)) : Prop :=
  ∀ items first, cut items = some first → first.items.Perm (items.take first.items.length)

def CutsFine (lt : α → α → Bool) (sort : List α → Option (List α))
    (cut : List α → Option (Stretch α)) : Prop :=
  ∀ items, Consistent lt items → items ≠ [] →
    ∃ first, cut items = some first ∧ first.items ≠ [] ∧ first.Fine lt sort

def firstStretch (lt : α → α → Bool) (least : Nat) (cut : List α → Option (Stretch α))
    (items : List α) : Option (Stretch α) :=
  if least ≤ (initialChain lt items).length then some ⟨initialChain lt items, true⟩ else cut items

section
variable {sort : List α → Option (List α)} {cut : List α → Option (Stretch α)}
  {least limit : Nat} {items : List α}

theorem stretches_nil : stretches lt least cut limit [] = some [] := by
  cases limit <;> rfl

theorem stretches_succ (more : items ≠ []) :
    stretches lt least cut (limit + 1) items =
      (firstStretch lt least cut items).bind fun first =>
        (stretches lt least cut limit (items.drop first.items.length)).bind fun others =>
          some (first :: others) := by
  rw [stretches.eq_3 lt least cut items limit more, firstStretch]
  split <;> rfl

theorem perm_firstStretch (front : CutsFront cut) {first : Stretch α}
    (done : firstStretch lt least cut items = some first) :
    first.items.Perm (items.take first.items.length) := by
  rw [firstStretch] at done
  split at done
  · obtain rfl := Option.some.inj done
    exact perm_initialChain lt items
  · exact front items first done

theorem exists_firstStretch (fine : CutsFine lt sort cut) (positive : 0 < least)
    (consistent : Consistent lt items) (more : items ≠ []) :
    ∃ first, firstStretch lt least cut items = some first ∧ first.items ≠ [] ∧
      first.Fine lt sort := by
  rw [firstStretch]
  split
  next long =>
    exact ⟨_, rfl, List.ne_nil_of_length_pos (positive.trans_le long),
      fine_of_sorted (sorted_initialChain consistent)⟩
  next => exact fine items consistent more

theorem perm_stretches (front : CutsFront cut) {parts : List (Stretch α)}
    (done : stretches lt least cut limit items = some parts) :
    (parts.flatMap (·.items)).Perm items := by
  induction limit generalizing items parts with
  | zero =>
      rcases items with _ | ⟨a, rest⟩ <;>
      · obtain rfl := Option.some.inj done
        simp
  | succ limit ih =>
      by_cases more : items = []
      · subst more
        obtain rfl := Option.some.inj done
        exact .nil
      · rw [stretches_succ more] at done
        obtain ⟨first, isFirst, done⟩ := Option.bind_eq_some_iff.1 done
        obtain ⟨others, isOthers, done⟩ := Option.bind_eq_some_iff.1 done
        obtain rfl := Option.some.inj done
        have perm := (perm_firstStretch front isFirst).append (ih isOthers)
        rwa [List.take_append_drop] at perm

theorem exists_stretches (fine : CutsFine lt sort cut) (positive : 0 < least)
    (enough : items.length ≤ limit) (consistent : Consistent lt items) :
    ∃ parts, stretches lt least cut limit items = some parts ∧
      ∀ part ∈ parts, part.Fine lt sort := by
  -- Every stretch takes an item, so the limit is not reached while there are items left.
  induction limit generalizing items with
  | zero =>
      obtain rfl := List.length_eq_zero_iff.1 (Nat.le_zero.1 enough)
      exact ⟨[], stretches_nil, List.forall_mem_nil _⟩
  | succ limit ih =>
      by_cases more : items = []
      · subst more
        exact ⟨[], stretches_nil, List.forall_mem_nil _⟩
      · obtain ⟨first, isFirst, taken, fineFirst⟩ :=
          exists_firstStretch fine positive consistent more
        have some_taken := List.length_pos_iff.2 taken
        have fewer : (items.drop first.items.length).length ≤ limit := by
          rw [List.length_drop]
          omega
        obtain ⟨others, isOthers, fineOthers⟩ :=
          ih fewer (consistent.mono fun _ => List.mem_of_mem_drop)
        refine ⟨first :: others, ?_, List.forall_mem_cons.2 ⟨fineFirst, fineOthers⟩⟩
        rw [stretches_succ more, isFirst, Option.bind_some, isOthers, Option.bind_some]

end

/-! ## Joining -/

section
variable {sort : List α → Option (List α)} {most : Nat}

theorem Stretch.perm_finish (permutes : Permutes sort) {stretch : Stretch α} {items : List α}
    (done : stretch.finish sort = some items) : items.Perm stretch.items := by
  rw [Stretch.finish] at done
  split at done
  · obtain rfl := Option.some.inj done
    exact .refl _
  · exact permutes _ _ done

theorem Stretch.Fine.exists_finish {stretch : Stretch α} (fine : stretch.Fine lt sort)
    (consistent : Consistent lt stretch.items) :
    ∃ items, stretch.finish sort = some items ∧ Sorted lt items := by
  rw [Stretch.finish]
  split
  next sorted => exact ⟨_, rfl, fine.sorted sorted⟩
  next unsorted => exact fine.sortable (Bool.not_eq_true _ ▸ unsorted) _ consistent

theorem perm_join (permutes : Permutes sort) {left right whole : Stretch α}
    (done : join lt sort most left right = some whole) :
    whole.items.Perm (left.items ++ right.items) := by
  rw [join] at done
  split at done
  · obtain ⟨first, isFirst, done⟩ := Option.bind_eq_some_iff.1 done
    obtain ⟨second, isSecond, done⟩ := Option.bind_eq_some_iff.1 done
    obtain rfl := Option.some.inj done
    exact (perm_merge lt first second).trans
      ((Stretch.perm_finish permutes isFirst).append (Stretch.perm_finish permutes isSecond))
  · obtain rfl := Option.some.inj done
    exact .refl _

theorem exists_join (permutes : Permutes sort) (most : Nat) {left right : Stretch α}
    (consistent : Consistent lt (left.items ++ right.items)) (fineLeft : left.Fine lt sort)
    (fineRight : right.Fine lt sort) :
    ∃ whole, join lt sort most left right = some whole ∧ whole.Fine lt sort := by
  rw [join]
  split
  next merged =>
    obtain ⟨first, isFirst, sortedFirst⟩ := fineLeft.exists_finish (consistent.mono (by grind))
    obtain ⟨second, isSecond, sortedSecond⟩ :=
      fineRight.exists_finish (consistent.mono (by grind))
    have perm := (Stretch.perm_finish permutes isFirst).append
      (Stretch.perm_finish permutes isSecond)
    refine ⟨⟨merge lt first second, true⟩, ?_, fine_of_sorted ?_⟩
    · rw [isFirst, isSecond]
      rfl
    · exact sorted_merge (consistent.perm perm) sortedFirst sortedSecond
  next appended =>
    simp only [Bool.or_eq_true, not_or, Bool.not_eq_true] at appended
    exact ⟨_, rfl, fine_of_sorts (fineLeft.sortable appended.1.1) _⟩

theorem perm_joinDeeper (permutes : Permutes sort) {depth : Nat}
    {pending remaining : List (Stretch α × Nat)} {stretch joined : Stretch α}
    (done : joinDeeper (join lt sort most) depth pending stretch = some (remaining, joined)) :
    (joined.items ++ remaining.flatMap (·.1.items)).Perm
      (stretch.items ++ pending.flatMap (·.1.items)) := by
  induction pending generalizing stretch with
  | nil =>
      obtain ⟨rfl, rfl⟩ := Prod.mk.inj (Option.some.inj done)
      exact .refl _
  | cons last pending ih =>
      obtain ⟨left, leftDepth⟩ := last
      rw [joinDeeper] at done
      split at done
      · obtain ⟨whole, isWhole, done⟩ := Option.bind_eq_some_iff.1 done
        have perm := (perm_join permutes isWhole).trans List.perm_append_comm
        rw [List.flatMap_cons, ← List.append_assoc]
        exact (ih done).trans (perm.append_right _)
      · obtain ⟨rfl, rfl⟩ := Prod.mk.inj (Option.some.inj done)
        exact .refl _

theorem joinDeeper_zero {join : Stretch α → Stretch α → Option (Stretch α)}
    {pending remaining : List (Stretch α × Nat)} {stretch joined : Stretch α}
    (done : joinDeeper join 0 pending stretch = some (remaining, joined)) : remaining = [] := by
  induction pending generalizing stretch with
  | nil => exact (Prod.mk.inj (Option.some.inj done)).1.symm
  | cons last pending ih =>
      rw [joinDeeper, if_pos (Nat.zero_le _)] at done
      obtain ⟨whole, -, done⟩ := Option.bind_eq_some_iff.1 done
      exact ih done

theorem exists_joinDeeper (permutes : Permutes sort) (depth : Nat)
    {pending : List (Stretch α × Nat)} {stretch : Stretch α}
    (consistent : Consistent lt (stretch.items ++ pending.flatMap (·.1.items)))
    (finePending : ∀ part ∈ pending, part.1.Fine lt sort) (fine : stretch.Fine lt sort) :
    ∃ remaining joined,
      joinDeeper (join lt sort most) depth pending stretch = some (remaining, joined) ∧
        (∀ part ∈ remaining, part.1.Fine lt sort) ∧ joined.Fine lt sort := by
  induction pending generalizing stretch with
  | nil => exact ⟨[], stretch, rfl, List.forall_mem_nil _, fine⟩
  | cons last pending ih =>
      obtain ⟨left, leftDepth⟩ := last
      obtain ⟨fineLeft, fineOthers⟩ := List.forall_mem_cons.1 finePending
      rw [joinDeeper]
      split
      · obtain ⟨whole, isWhole, fineWhole⟩ := exists_join permutes most
          (consistent.mono (by grind)) fineLeft fine
        have perm := perm_join permutes isWhole
        rw [isWhole]
        exact ih (consistent.mono fun a mem => by have := perm.mem_iff (a := a); grind) fineOthers
          fineWhole
      · exact ⟨_, _, rfl, finePending, fine⟩

theorem joinAll_nil (join : Stretch α → Stretch α → Option (Stretch α)) (total place : Nat)
    (pending : List (Stretch α × Nat)) (stretch : Stretch α) :
    joinAll join total place pending stretch [] =
      (joinDeeper join 0 pending stretch).bind fun joined => some joined.2 := rfl

theorem joinAll_cons (join : Stretch α → Stretch α → Option (Stretch α)) (total place : Nat)
    (pending : List (Stretch α × Nat)) (stretch next : Stretch α) (rest : List (Stretch α)) :
    ∃ depth, joinAll join total place pending stretch (next :: rest) =
      (joinDeeper join depth pending stretch).bind fun joined =>
        joinAll join total (place + next.items.length) ((joined.2, depth) :: joined.1) next rest :=
  ⟨_, rfl⟩

theorem perm_joinAll (permutes : Permutes sort) {total place : Nat}
    {pending : List (Stretch α × Nat)} {stretch whole : Stretch α} {rest : List (Stretch α)}
    (done : joinAll (join lt sort most) total place pending stretch rest = some whole) :
    whole.items.Perm
      (stretch.items ++ pending.flatMap (·.1.items) ++ rest.flatMap (·.items)) := by
  induction rest generalizing place pending stretch with
  | nil =>
      rw [joinAll_nil] at done
      obtain ⟨⟨remaining, joined⟩, isJoined, done⟩ := Option.bind_eq_some_iff.1 done
      obtain rfl := Option.some.inj done
      obtain rfl := joinDeeper_zero isJoined
      simpa using perm_joinDeeper permutes isJoined
  | cons next rest ih =>
      obtain ⟨depth, step⟩ := joinAll_cons (join lt sort most) total place pending stretch next rest
      rw [step] at done
      obtain ⟨⟨remaining, joined⟩, isJoined, done⟩ := Option.bind_eq_some_iff.1 done
      have perm := (perm_joinDeeper permutes isJoined).append_left next.items
      rw [List.flatMap_cons, ← List.append_assoc]
      refine (ih done).trans (.append_right _ ?_)
      exact perm.trans List.perm_append_comm

theorem exists_joinAll (permutes : Permutes sort) (most total place : Nat)
    {pending : List (Stretch α × Nat)} {stretch : Stretch α} {rest : List (Stretch α)}
    (consistent : Consistent lt
      (stretch.items ++ pending.flatMap (·.1.items) ++ rest.flatMap (·.items)))
    (finePending : ∀ part ∈ pending, part.1.Fine lt sort) (fine : stretch.Fine lt sort)
    (fineRest : ∀ part ∈ rest, part.Fine lt sort) :
    ∃ whole, joinAll (join lt sort most) total place pending stretch rest = some whole ∧
      whole.Fine lt sort := by
  induction rest generalizing place pending stretch with
  | nil =>
      obtain ⟨remaining, joined, isJoined, -, fineJoined⟩ :=
        exists_joinDeeper permutes 0 (consistent.mono (by grind)) finePending fine
      exact ⟨joined, by rw [joinAll_nil, isJoined, Option.bind_some], fineJoined⟩
  | cons next rest ih =>
      obtain ⟨depth, step⟩ := joinAll_cons (join lt sort most) total place pending stretch next rest
      obtain ⟨fineNext, fineOthers⟩ := List.forall_mem_cons.1 fineRest
      obtain ⟨remaining, joined, isJoined, fineRemaining, fineJoined⟩ :=
        exists_joinDeeper permutes depth (consistent.mono (by grind)) finePending fine
      have perm := perm_joinDeeper permutes isJoined
      rw [step, isJoined, Option.bind_some]
      refine ih _ (consistent.mono fun a mem => ?_)
        (List.forall_mem_cons.2 ⟨fineJoined, fineRemaining⟩) fineNext fineOthers
      have := perm.mem_iff (a := a)
      grind

end

/-! ## The whole list -/

theorem aboutSqrt_pos {n : Nat} (large : 2 ≤ n) : 0 < aboutSqrt n := by
  have atLeast : 1 ≤ n.log2 := (Nat.le_log2 (by omega)).2 large
  have power : 2 ^ 1 ≤ 2 ^ ((1 + n.log2) / 2) := Nat.pow_le_pow_right Nat.two_pos (by omega)
  exact Nat.div_pos (Nat.le_add_right_of_le power) Nat.two_pos

theorem worthwhile_pos {length : Nat} (positive : 0 < length) : 0 < worthwhile length := by
  rw [worthwhile]
  split
  · omega
  · exact aboutSqrt_pos (by omega)

section
variable {sort : List α → Option (List α)} {cut : List α → Option (Stretch α)}

theorem sortStretches_permutes (front : CutsFront cut) (permutes : Permutes sort) :
    Permutes (sortStretches lt cut sort) := by
  intro items sorted done
  rw [sortStretches] at done
  obtain ⟨parts, isParts, done⟩ := Option.bind_eq_some_iff.1 done
  have perm := perm_stretches front isParts
  rcases parts with _ | ⟨first, rest⟩
  · obtain rfl := Option.some.inj done
    exact perm
  · obtain ⟨whole, isWhole, done⟩ := Option.bind_eq_some_iff.1 done
    have joined := perm_joinAll permutes isWhole
    rw [List.flatMap_nil, List.append_nil] at joined
    exact (Stretch.perm_finish permutes done).trans (joined.trans perm)

theorem sortStretches_sorts (front : CutsFront cut) (fine : CutsFine lt sort cut)
    (permutes : Permutes sort) : Sorts lt (sortStretches lt cut sort) := by
  intro items consistent
  by_cases more : items = []
  · subst more
    exact ⟨[], rfl, .nil⟩
  · obtain ⟨parts, isParts, fineParts⟩ := exists_stretches fine
      (worthwhile_pos (List.length_pos_iff.2 more)) (Nat.le_refl items.length) consistent
    have perm := perm_stretches front isParts
    rw [sortStretches, isParts]
    rcases parts with _ | ⟨first, rest⟩
    · exact ⟨[], rfl, .nil⟩
    · have within : Consistent lt
          (first.items ++ List.flatMap (·.1.items) ([] : List (Stretch α × Nat)) ++
            rest.flatMap (·.items)) := by
        rw [List.flatMap_nil, List.append_nil]
        exact consistent.perm perm
      obtain ⟨fineFirst, fineRest⟩ := List.forall_mem_cons.1 fineParts
      obtain ⟨whole, isWhole, fineWhole⟩ := exists_joinAll permutes (unsortedLimit items.length)
        items.length first.items.length within (List.forall_mem_nil _) fineFirst fineRest
      have joined := perm_joinAll permutes isWhole
      obtain ⟨sorted, isSorted, inOrder⟩ := fineWhole.exists_finish (within.perm joined)
      refine ⟨sorted, ?_, inOrder⟩
      simp only [bind, Option.bind_some, isWhole, isSorted]

end

/-! ## Every stretch at once -/

theorem cutsFront_eager (lt : α → α → Bool) :
    CutsFront fun rest => do return ⟨← sortHalves lt (rest.take shortLimit), true⟩ := by
  intro items first done
  obtain ⟨sorted, isSorted, done⟩ := Option.bind_eq_some_iff.1 done
  obtain rfl := Option.some.inj done
  have perm := sortHalves_permutes lt _ _ isSorted
  rwa [perm.length_eq, List.length_take, ← List.take_eq_take_min]

theorem cutsFine_eager (lt : α → α → Bool) (sort : List α → Option (List α)) :
    CutsFine lt sort fun rest => do return ⟨← sortHalves lt (rest.take shortLimit), true⟩ := by
  intro items consistent more
  obtain ⟨sorted, isSorted, inOrder⟩ := sortHalves_sorts lt (items.take shortLimit)
    (consistent.mono fun _ => List.mem_of_mem_take)
  refine ⟨⟨sorted, true⟩, by simp [isSorted], ?_, fine_of_sorted inOrder⟩
  have count := (sortHalves_permutes lt _ _ isSorted).length_eq
  rw [List.length_take, shortLimit] at count
  have := List.length_pos_iff.2 more
  exact List.ne_nil_of_length_pos (show 0 < sorted.length by omega)

theorem some_permutes : Permutes (some : List α → Option (List α)) := fun _ _ done =>
  Option.some.inj done ▸ .refl _

theorem sortEagerly_permutes (lt : α → α → Bool) : Permutes (sortEagerly lt) :=
  sortStretches_permutes (cutsFront_eager lt) some_permutes

theorem sortEagerly_sorts (lt : α → α → Bool) : Sorts lt (sortEagerly lt) :=
  sortStretches_sorts (cutsFront_eager lt) (cutsFine_eager lt _) some_permutes

end BlockScript.Sort
