import BlockScript.Sort.Merge
import Mathlib.Data.List.Count

/-!
# Merging

A comparison is `Consistent` on a list when "not greater" is a total preorder of its items; nothing
is asked of other items.  Merged from one end (`sorted_merge`) or from both (`exists_mergeEnds`),
two sorted lists on which the comparison is consistent give a sorted one.  The ends meet because an
item that both of them claimed would leave one on the other side that neither of them took, and the
two would have compared these differently.  Whatever the comparison, no item is lost and none
doubled (`perm_merge`, `perm_of_mergeEnds`).
-/

namespace BlockScript.Sort

variable {α : Type} {lt : α → α → Bool}

/-- Among the items of a list, "not greater" is a total preorder. -/
structure Consistent (lt : α → α → Bool) (items : List α) : Prop where
  asymm {a b : α} (ha : a ∈ items) (hb : b ∈ items) : lt a b = true → lt b a = false
  trans {a b c : α} (ha : a ∈ items) (hb : b ∈ items) (hc : c ∈ items) :
    lt b a = false → lt c b = false → lt c a = false

def Sorted (lt : α → α → Bool) (items : List α) : Prop := items.Pairwise fun a b => lt b a = false

namespace Consistent

variable {items others : List α}

theorem mono (consistent : Consistent lt items) (sub : ∀ a ∈ others, a ∈ items) :
    Consistent lt others where
  asymm ha hb := consistent.asymm (sub _ ha) (sub _ hb)
  trans ha hb hc := consistent.trans (sub _ ha) (sub _ hb) (sub _ hc)

theorem perm (consistent : Consistent lt items) (same : others.Perm items) : Consistent lt others :=
  consistent.mono fun _ => same.mem_iff.1

theorem flip (consistent : Consistent lt items) : Consistent (fun a b => lt b a) items where
  asymm ha hb := consistent.asymm hb ha
  trans ha hb hc first second := consistent.trans hc hb ha second first

theorem irrefl (consistent : Consistent lt items) {a : α} (ha : a ∈ items) : lt a a = false := by
  cases less : lt a a with
  | false => rfl
  | true => exact less.symm.trans (consistent.asymm ha ha less)

theorem lt_of_lt_of_le (consistent : Consistent lt items) {a b c : α} (ha : a ∈ items)
    (hb : b ∈ items) (hc : c ∈ items) (less : lt a b = true) (le : lt c b = false) :
    lt a c = true := by
  cases other : lt a c with
  | true => rfl
  | false => cases less.symm.trans (consistent.trans hb hc ha le other)

end Consistent

theorem Sorted.reverse {items : List α} (sorted : Sorted lt items) :
    Sorted (fun a b => lt b a) items.reverse :=
  List.pairwise_reverse.2 sorted

theorem Sorted.of_reverse {items : List α} (sorted : Sorted (fun a b => lt b a) items) :
    Sorted lt items.reverse :=
  List.pairwise_reverse.2 sorted

theorem sorted_append {left right : List α} : Sorted lt (left ++ right) ↔
    Sorted lt left ∧ Sorted lt right ∧ ∀ a ∈ left, ∀ b ∈ right, lt b a = false :=
  List.pairwise_append

theorem sorted_cons {a : α} {rest : List α} :
    Sorted lt (a :: rest) ↔ (∀ b ∈ rest, lt b a = false) ∧ Sorted lt rest :=
  List.pairwise_cons

theorem sorted_of_length_le_one {items : List α} (short : items.length ≤ 1) : Sorted lt items := by
  rcases items with _ | ⟨a, _ | ⟨b, rest⟩⟩
  · exact .nil
  · exact List.pairwise_singleton _ a
  · rw [List.length_cons, List.length_cons] at short
    omega

theorem Consistent.lt_of_mem {items rest : List α} {a b c : α} (consistent : Consistent lt items)
    (hb : b ∈ items) (sub : ∀ c ∈ a :: rest, c ∈ items) (sorted : Sorted lt (a :: rest))
    (less : lt b a = true) (mem : c ∈ a :: rest) : lt b c = true := by
  rcases List.mem_cons.1 mem with rfl | later
  · exact less
  · exact consistent.lt_of_lt_of_le hb (sub _ List.mem_cons_self) (sub _ mem) less
      ((sorted_cons.1 sorted).1 _ later)

theorem Consistent.le_of_mem {items rest : List α} {a b c : α} (consistent : Consistent lt items)
    (ha : a ∈ items) (sub : ∀ c ∈ b :: rest, c ∈ items) (sorted : Sorted lt (b :: rest))
    (le : lt b a = false) (mem : c ∈ b :: rest) : lt c a = false := by
  rcases List.mem_cons.1 mem with rfl | later
  · exact le
  · exact consistent.trans ha (sub _ List.mem_cons_self) (sub _ mem) le
      ((sorted_cons.1 sorted).1 _ later)

/-! ## From one end -/

theorem merge_cons_cons (a b : α) (left right : List α) :
    (a :: left).merge (b :: right) (fun a b => !lt b a) =
      if lt b a then b :: (a :: left).merge right fun a b => !lt b a
      else a :: left.merge (b :: right) fun a b => !lt b a := by
  rw [List.cons_merge_cons]
  cases lt b a <;> rfl

theorem sorted_merge_front {left right : List α} (consistent : Consistent lt (left ++ right))
    (sortedLeft : Sorted lt left) (sortedRight : Sorted lt right) :
    Sorted lt (left.merge right fun a b => !lt b a) := by
  induction left generalizing right with
  | nil => simpa using sortedRight
  | cons a left ihLeft =>
      induction right with
      | nil => simpa using sortedLeft
      | cons b right ihRight =>
          have memA : a ∈ a :: left ++ b :: right := by simp
          have memB : b ∈ a :: left ++ b :: right := by simp
          have subA : ∀ c ∈ a :: left, c ∈ a :: left ++ b :: right := by grind
          have subB : ∀ c ∈ b :: right, c ∈ a :: left ++ b :: right := by grind
          rw [merge_cons_cons]
          cases less : lt b a with
          | true =>
              have sorted := ihRight (consistent.mono (by grind)) (sorted_cons.1 sortedRight).2
              refine sorted_cons.2 ⟨fun c mem => ?_, sorted⟩
              rcases List.mem_append.1 ((List.merge_perm_append _).mem_iff.1 mem) with mem | mem
              · exact consistent.asymm memB (subA c mem)
                  (consistent.lt_of_mem memB subA sortedLeft less mem)
              · exact (sorted_cons.1 sortedRight).1 c mem
          | false =>
              have sorted := ihLeft (consistent.mono (by grind)) (sorted_cons.1 sortedLeft).2
                sortedRight
              refine sorted_cons.2 ⟨fun c mem => ?_, sorted⟩
              rcases List.mem_append.1 ((List.merge_perm_append _).mem_iff.1 mem) with mem | mem
              · exact (sorted_cons.1 sortedLeft).1 c mem
              · exact consistent.le_of_mem memA subB sortedRight less mem

theorem perm_merge (lt : α → α → Bool) (left right : List α) :
    (merge lt left right).Perm (left ++ right) := by
  rw [merge]
  split
  · exact List.merge_perm_append _
  · have joined : (right.reverse.merge left.reverse fun b a => !lt b a).Perm
        (left ++ right).reverse := by
      rw [List.reverse_append]
      exact List.merge_perm_append _
    exact (List.reverse_perm _).trans (joined.trans (List.reverse_perm _))

theorem sorted_merge {left right : List α} (consistent : Consistent lt (left ++ right))
    (sortedLeft : Sorted lt left) (sortedRight : Sorted lt right) :
    Sorted lt (merge lt left right) := by
  rw [merge]
  split
  · exact sorted_merge_front consistent sortedLeft sortedRight
  · have turned : Consistent (fun a b => lt b a) (right.reverse ++ left.reverse) :=
      consistent.flip.mono (by grind)
    exact (sorted_merge_front turned sortedRight.reverse sortedLeft.reverse).of_reverse

/-! ## From both ends -/

/-- A merge has taken some items from the front of each list and left the others. -/
structure Takes (left right : List α) (result : List α × List α × List α)
    (fromLeft fromRight : List α) : Prop where
  left : left = fromLeft ++ result.2.1
  right : right = fromRight ++ result.2.2
  perm : result.1.Perm (fromLeft ++ fromRight)

/-- The items taken come in order and before those that are left; on equal terms the left list goes
first. -/
structure TakesLeast (lt : α → α → Bool) (result : List α × List α × List α)
    (fromLeft fromRight : List α) : Prop where
  sorted : Sorted lt result.1
  leftFirst : ∀ a ∈ fromLeft, ∀ b ∈ result.2.2, lt b a = false
  rightLess : ∀ b ∈ fromRight, ∀ a ∈ result.2.1, lt b a = true

theorem mergeFront_cons_cons (lt : α → α → Bool) (count : Nat) (a b : α) (left right : List α) :
    mergeFront lt (count + 1) (a :: left) (b :: right) =
      if lt b a then
        (b :: (mergeFront lt count (a :: left) right).1, (mergeFront lt count (a :: left) right).2)
      else
        (a :: (mergeFront lt count left (b :: right)).1,
          (mergeFront lt count left (b :: right)).2) := by
  rw [mergeFront]

theorem length_mergeFront (lt : α → α → Bool) {count : Nat} {left right : List α}
    (leftLong : count ≤ left.length) (rightLong : count ≤ right.length) :
    (mergeFront lt count left right).1.length = count := by
  induction count generalizing left right with
  | zero => rfl
  | succ count ih =>
      obtain ⟨a, left, rfl⟩ := List.exists_cons_of_length_pos (Nat.zero_lt_of_lt leftLong)
      obtain ⟨b, right, rfl⟩ := List.exists_cons_of_length_pos (Nat.zero_lt_of_lt rightLong)
      rw [List.length_cons] at leftLong rightLong
      rw [mergeFront_cons_cons]
      split
      · rw [List.length_cons, ih (by rw [List.length_cons]; omega) (by omega)]
      · rw [List.length_cons, ih (by omega) (by rw [List.length_cons]; omega)]

theorem takes_nothing (left right : List α) : Takes left right ([], left, right) [] [] :=
  ⟨rfl, rfl, .nil⟩

theorem takesLeast_nothing (left right : List α) : TakesLeast lt ([], left, right) [] [] :=
  ⟨.nil, List.forall_mem_nil _, List.forall_mem_nil _⟩

theorem exists_takes (lt : α → α → Bool) (count : Nat) (left right : List α) :
    ∃ fromLeft fromRight, Takes left right (mergeFront lt count left right) fromLeft fromRight ∧
      (Consistent lt (left ++ right) → Sorted lt left → Sorted lt right →
        TakesLeast lt (mergeFront lt count left right) fromLeft fromRight) := by
  -- On the count: the item that is taken first precedes whatever the rest of the merge takes.
  induction count generalizing left right with
  | zero => exact ⟨[], [], takes_nothing _ _, fun _ _ _ => takesLeast_nothing _ _⟩
  | succ count ih =>
      rcases left with _ | ⟨a, left⟩
      · exact ⟨[], [], takes_nothing _ _, fun _ _ _ => takesLeast_nothing _ _⟩
      rcases right with _ | ⟨b, right⟩
      · exact ⟨[], [], takes_nothing _ _, fun _ _ _ => takesLeast_nothing _ _⟩
      have memA : a ∈ a :: left ++ b :: right := by simp
      have memB : b ∈ a :: left ++ b :: right := by simp
      have subA : ∀ c ∈ a :: left, c ∈ a :: left ++ b :: right := by grind
      have subB : ∀ c ∈ b :: right, c ∈ a :: left ++ b :: right := by grind
      rw [mergeFront_cons_cons]
      cases less : lt b a with
      | true =>
          obtain ⟨fromLeft, fromRight, takes, least⟩ := ih (a :: left) right
          refine ⟨fromLeft, b :: fromRight, ⟨takes.left, ?_, ?_⟩, ?_⟩
          · exact congrArg (b :: ·) takes.right
          · exact (takes.perm.cons b).trans List.perm_middle.symm
          · intro consistent sortedLeft sortedRight
            have rest := least (consistent.mono (by grind)) sortedLeft (sorted_cons.1 sortedRight).2
            have above : ∀ c ∈ a :: left, lt b c = true := fun c mem =>
              consistent.lt_of_mem memB subA sortedLeft less mem
            refine ⟨sorted_cons.2 ⟨fun c mem => ?_, rest.sorted⟩, rest.leftFirst, ?_⟩
            · rcases List.mem_append.1 (takes.perm.mem_iff.1 mem) with mem | mem
              · have mem : c ∈ a :: left := takes.left ▸ List.mem_append_left _ mem
                exact consistent.asymm memB (subA c mem) (above c mem)
              · exact (sorted_cons.1 sortedRight).1 c (takes.right ▸ List.mem_append_left _ mem)
            · refine List.forall_mem_cons.2 ⟨fun c mem => ?_, rest.rightLess⟩
              exact above c (takes.left ▸ List.mem_append_right _ mem)
      | false =>
          obtain ⟨fromLeft, fromRight, takes, least⟩ := ih left (b :: right)
          refine ⟨a :: fromLeft, fromRight, ⟨?_, takes.right, takes.perm.cons a⟩, ?_⟩
          · exact congrArg (a :: ·) takes.left
          · intro consistent sortedLeft sortedRight
            have rest := least (consistent.mono (by grind)) (sorted_cons.1 sortedLeft).2 sortedRight
            have above : ∀ c ∈ b :: right, lt c a = false := fun c mem =>
              consistent.le_of_mem memA subB sortedRight less mem
            refine ⟨sorted_cons.2 ⟨fun c mem => ?_, rest.sorted⟩, ?_, rest.rightLess⟩
            · rcases List.mem_append.1 (takes.perm.mem_iff.1 mem) with mem | mem
              · exact (sorted_cons.1 sortedLeft).1 c (takes.left ▸ List.mem_append_left _ mem)
              · exact above c (takes.right ▸ List.mem_append_left _ mem)
            · refine List.forall_mem_cons.2 ⟨fun c mem => ?_, rest.leftFirst⟩
              exact above c (takes.right ▸ List.mem_append_right _ mem)

theorem TakesLeast.before {left right fromLeft fromRight : List α}
    {result : List α × List α × List α} (least : TakesLeast lt result fromLeft fromRight)
    (takes : Takes left right result fromLeft fromRight)
    (consistent : Consistent lt (left ++ right)) (sortedLeft : Sorted lt left)
    (sortedRight : Sorted lt right) :
    ∀ a ∈ result.1, ∀ b, b ∈ result.2.1 ∨ b ∈ result.2.2 → lt b a = false := by
  obtain ⟨rfl, rfl, perm⟩ := takes
  intro a mem b later
  rcases List.mem_append.1 (perm.mem_iff.1 mem) with mem | mem
  · rcases later with later | later
    · exact (sorted_append.1 sortedLeft).2.2 a mem b later
    · exact least.leftFirst a mem b later
  · rcases later with later | later
    · exact consistent.asymm (by grind) (by grind) (least.rightLess a mem b later)
    · exact (sorted_append.1 sortedRight).2.2 a mem b later

theorem eq_take_append {front rest kept back : List α} (same : front ++ rest = kept ++ back)
    (long : back.length ≤ rest.length) : rest = rest.take (rest.length - back.length) ++ back := by
  obtain ⟨middle, rfl⟩ : back <:+ rest :=
    List.suffix_of_suffix_length_le ⟨kept, same.symm⟩ ⟨front, rfl⟩ long
  rw [List.length_append, Nat.add_sub_cancel, List.take_left]

theorem exists_mem_both {front rest kept back : List α} (same : front ++ rest = kept ++ back)
    (short : rest.length < back.length) : ∃ a ∈ front, a ∈ back := by
  rcases List.append_eq_append_iff.1 same with ⟨middle, -, rfl⟩ | ⟨middle, rfl, rfl⟩
  · rw [List.length_append] at short
    omega
  · rw [List.length_append] at short
    obtain ⟨a, middle, rfl⟩ := List.exists_cons_of_length_pos (l := middle) (by omega)
    exact ⟨a, by simp, by simp⟩

theorem length_taken {items taken kept : List α} (same : items.reverse = taken ++ kept) :
    items.length - kept.length = taken.length := by
  have := congrArg List.length same
  simp only [List.length_reverse, List.length_append] at this
  omega

section
variable {left right frontLeft frontRight backLeft backRight : List α}
  {front back : List α × List α × List α}

theorem ends_agree (taken : Takes left right front frontLeft frontRight)
    (takenBack : Takes right.reverse left.reverse back backRight backLeft) :
    frontLeft ++ front.2.1 = back.2.2.reverse ++ backLeft.reverse ∧
      frontRight ++ front.2.2 = back.2.1.reverse ++ backRight.reverse := by
  constructor
  · rw [← taken.left, ← List.reverse_append, ← takenBack.right, List.reverse_reverse]
  · rw [← taken.right, ← List.reverse_append, ← takenBack.left, List.reverse_reverse]

/-- If the two ends claim no item both, they and what lies between them make up the merge. -/
theorem exists_middle (taken : Takes left right front frontLeft frontRight)
    (takenBack : Takes right.reverse left.reverse back backRight backLeft)
    (isFront : mergeFront lt left.length left right = front)
    (isBack : mergeFront (fun a b => lt b a) left.length right.reverse left.reverse = back)
    (meet : backLeft.length ≤ front.2.1.length ∧ backRight.length ≤ front.2.2.length) :
    ∃ middleLeft middleRight, front.2.1 = middleLeft ++ backLeft.reverse ∧
      front.2.2 = middleRight ++ backRight.reverse ∧
      mergeEnds lt left right =
        some (front.1 ++ (middleLeft ++ middleRight) ++ back.1.reverse) := by
  obtain ⟨sameLeft, sameRight⟩ := ends_agree taken takenBack
  have splitLeft := eq_take_append sameLeft (by simpa using meet.1)
  have splitRight := eq_take_append sameRight (by simpa using meet.2)
  rw [List.length_reverse] at splitLeft splitRight
  refine ⟨_, _, splitLeft, splitRight, ?_⟩
  simp only [mergeEnds, isFront, isBack, length_taken takenBack.right, length_taken takenBack.left]
  exact if_pos meet

theorem mergeEnds_eq_none (takenBack : Takes right.reverse left.reverse back backRight backLeft)
    (isFront : mergeFront lt left.length left right = front)
    (isBack : mergeFront (fun a b => lt b a) left.length right.reverse left.reverse = back)
    (apart : ¬ (backLeft.length ≤ front.2.1.length ∧ backRight.length ≤ front.2.2.length)) :
    mergeEnds lt left right = none := by
  simp only [mergeEnds, isFront, isBack, length_taken takenBack.right, length_taken takenBack.left]
  exact if_neg apart

theorem ends_meet (taken : Takes left right front frontLeft frontRight)
    (takenBack : Takes right.reverse left.reverse back backRight backLeft)
    (least : TakesLeast lt front frontLeft frontRight)
    (greatest : TakesLeast (fun a b => lt b a) back backRight backLeft)
    (frontCount : front.1.length = left.length) (backCount : back.1.length = left.length)
    (long : left.length ≤ right.length) :
    backLeft.length ≤ front.2.1.length ∧ backRight.length ≤ front.2.2.length := by
  obtain ⟨sameLeft, sameRight⟩ := ends_agree taken takenBack
  have countFront := taken.perm.length_eq
  have countBack := takenBack.perm.length_eq
  have countLeft := congrArg List.length taken.left
  have countRight := congrArg List.length taken.right
  rw [List.length_append] at countFront countBack countLeft countRight
  -- Each end takes as many items as the left list has.  So if both claim an item of one list, they
  -- take too few of the other one, and an item of that is left over by both.
  by_contra apart
  rcases not_and_or.1 apart with claimed | claimed
  · obtain ⟨a, inFront, inBack⟩ := exists_mem_both sameLeft (by rw [List.length_reverse]; omega)
    obtain ⟨b, keptBack, keptFront⟩ :=
      exists_mem_both sameRight.symm (by rw [List.length_reverse]; omega)
    have more := greatest.rightLess a (List.mem_reverse.1 inBack) b (List.mem_reverse.1 keptBack)
    cases more.symm.trans (least.leftFirst a inFront b keptFront)
  · obtain ⟨b, inFront, inBack⟩ := exists_mem_both sameRight (by rw [List.length_reverse]; omega)
    obtain ⟨a, keptBack, keptFront⟩ :=
      exists_mem_both sameLeft.symm (by rw [List.length_reverse]; omega)
    have notMore :=
      greatest.leftFirst b (List.mem_reverse.1 inBack) a (List.mem_reverse.1 keptBack)
    cases (least.rightLess b inFront a keptFront).symm.trans notMore

end

theorem perm_of_mergeEnds {left right merged : List α}
    (done : mergeEnds lt left right = some merged) : merged.Perm (left ++ right) := by
  obtain ⟨frontLeft, frontRight, taken, -⟩ := exists_takes lt left.length left right
  obtain ⟨backRight, backLeft, takenBack, -⟩ :=
    exists_takes (fun a b => lt b a) left.length right.reverse left.reverse
  by_cases meet : backLeft.length ≤ (mergeFront lt left.length left right).2.1.length ∧
      backRight.length ≤ (mergeFront lt left.length left right).2.2.length
  · obtain ⟨middleLeft, middleRight, keptLeft, keptRight, whole⟩ :=
      exists_middle taken takenBack rfl rfl meet
    obtain rfl := Option.some.inj (whole.symm.trans done)
    -- What one end takes of a list and what it leaves make up that list, so each item counts once.
    classical
    refine List.perm_iff_count.2 fun a => ?_
    have countLeft := congrArg (List.count a)
      (taken.left.trans (congrArg (frontLeft ++ ·) keptLeft))
    have countRight := congrArg (List.count a)
      (taken.right.trans (congrArg (frontRight ++ ·) keptRight))
    have countFront := taken.perm.count_eq a
    have countBack := takenBack.perm.count_eq a
    simp only [List.count_append, List.count_reverse] at *
    omega
  · cases done.symm.trans (mergeEnds_eq_none takenBack rfl rfl meet)

/-- Two sorted lists of about the same length can be merged from both ends. -/
theorem exists_mergeEnds {left right : List α} (consistent : Consistent lt (left ++ right))
    (sortedLeft : Sorted lt left) (sortedRight : Sorted lt right)
    (long : left.length ≤ right.length) (near : right.length ≤ left.length + 1) :
    ∃ merged, mergeEnds lt left right = some merged ∧ Sorted lt merged := by
  have turned : Consistent (fun a b => lt b a) (right.reverse ++ left.reverse) :=
    consistent.flip.mono (by grind)
  obtain ⟨frontLeft, frontRight, taken, least⟩ := exists_takes lt left.length left right
  obtain ⟨backRight, backLeft, takenBack, greatest⟩ :=
    exists_takes (fun a b => lt b a) left.length right.reverse left.reverse
  have frontCount := length_mergeFront lt (Nat.le_refl left.length) long
  have backCount :
      (mergeFront (fun a b => lt b a) left.length right.reverse left.reverse).1.length =
        left.length :=
    length_mergeFront _ (by rwa [List.length_reverse]) (List.length_reverse ▸ Nat.le_refl _)
  generalize isFront : mergeFront lt left.length left right = front at *
  generalize isBack :
    mergeFront (fun a b => lt b a) left.length right.reverse left.reverse = back at *
  replace least := least consistent sortedLeft sortedRight
  replace greatest := greatest turned sortedRight.reverse sortedLeft.reverse
  have before := least.before taken consistent sortedLeft sortedRight
  have behind := greatest.before takenBack turned sortedRight.reverse sortedLeft.reverse
  obtain ⟨middleLeft, middleRight, keptLeft, keptRight, whole⟩ :=
    exists_middle taken takenBack isFront isBack
      (ends_meet taken takenBack least greatest frontCount backCount long)
  have few : (middleLeft ++ middleRight).length ≤ 1 := by
    have := (perm_of_mergeEnds whole).length_eq
    simp only [List.length_append, List.length_reverse] at this ⊢
    omega
  obtain ⟨sameLeft, sameRight⟩ := ends_agree taken takenBack
  rw [keptLeft, ← List.append_assoc, List.append_cancel_right_eq] at sameLeft
  rw [keptRight, ← List.append_assoc, List.append_cancel_right_eq] at sameRight
  have notBehind : ∀ a ∈ middleLeft ++ middleRight, a ∈ back.2.1 ∨ a ∈ back.2.2 := by
    intro a mem
    rcases List.mem_append.1 mem with mem | mem
    · exact .inr (List.mem_reverse.1 (sameLeft ▸ List.mem_append_right _ mem))
    · exact .inl (List.mem_reverse.1 (sameRight ▸ List.mem_append_right _ mem))
  have sortedMiddle : Sorted lt (middleLeft ++ middleRight) := sorted_of_length_le_one few
  refine ⟨_, whole, sorted_append.2
    ⟨sorted_append.2 ⟨least.sorted, sortedMiddle, ?_⟩, greatest.sorted.of_reverse, ?_⟩⟩
  · intro a inFront b inMiddle
    refine before a inFront b ?_
    rcases List.mem_append.1 inMiddle with mem | mem
    · exact .inl (keptLeft ▸ List.mem_append_left _ mem)
    · exact .inr (keptRight ▸ List.mem_append_left _ mem)
  · intro a mem b inBack
    rw [List.mem_reverse] at inBack
    rcases List.mem_append.1 mem with inFront | inMiddle
    · refine before a inFront b ?_
      rcases List.mem_append.1 (takenBack.perm.mem_iff.1 inBack) with mem | mem
      · exact .inr (keptRight ▸ List.mem_append_right _ (List.mem_reverse.2 mem))
      · exact .inl (keptLeft ▸ List.mem_append_right _ (List.mem_reverse.2 mem))
    · exact behind b inBack a (notBehind a inMiddle)

end BlockScript.Sort
