import BlockScript.Proofs.Sort.Merging
import BlockScript.Sort.Short

/-!
# Sorting short lists

What a way of sorting is measured by: it `Permutes` if it loses no item and doubles none, whatever
the comparison, and it `Sorts` if it puts every list on which the comparison is consistent in order.
Insertion does both, and so does merging two halves that were sorted by insertion.
-/

namespace BlockScript.Sort

variable {α : Type} {lt : α → α → Bool}

def Permutes (sort : List α → Option (List α)) : Prop :=
  ∀ items sorted, sort items = some sorted → sorted.Perm items

def Sorts (lt : α → α → Bool) (sort : List α → Option (List α)) : Prop :=
  ∀ items, Consistent lt items → ∃ sorted, sort items = some sorted ∧ Sorted lt sorted

/-! ## Insertion -/

theorem perm_insertDescending (lt : α → α → Bool) (item : α) (items : List α) :
    (insertDescending lt item items).Perm (item :: items) := by
  induction items with
  | nil => exact .refl _
  | cons other rest ih =>
      rw [insertDescending]
      split
      · exact (ih.cons other).trans (.swap item other rest)
      · exact .refl _

theorem sorted_insertDescending {item : α} {items : List α}
    (consistent : Consistent lt (item :: items)) (sorted : Sorted (fun a b => lt b a) items) :
    Sorted (fun a b => lt b a) (insertDescending lt item items) := by
  induction items with
  | nil => exact sorted_of_length_le_one (Nat.le_refl 1)
  | cons other rest ih =>
      have memItem : item ∈ item :: other :: rest := by simp
      have memOther : other ∈ item :: other :: rest := by simp
      obtain ⟨above, sortedRest⟩ := sorted_cons.1 sorted
      rw [insertDescending]
      split
      next less =>
        refine sorted_cons.2 ⟨fun c mem => ?_, ih (consistent.mono (by grind)) sortedRest⟩
        rcases List.mem_cons.1 ((perm_insertDescending lt item rest).mem_iff.1 mem) with rfl | mem
        · exact consistent.asymm memItem memOther less
        · exact above c mem
      next notLess =>
        refine sorted_cons.2 ⟨List.forall_mem_cons.2 ⟨?_, fun c mem => ?_⟩, sorted⟩
        · exact Bool.not_eq_true _ ▸ notLess
        · exact consistent.trans (by simp [mem]) memOther memItem (above c mem)
            (Bool.not_eq_true _ ▸ notLess)

theorem perm_foldl_insertDescending (lt : α → α → Bool) (items found : List α) :
    (items.foldl (fun found item => insertDescending lt item found) found).Perm
      (items ++ found) := by
  induction items generalizing found with
  | nil => exact .refl _
  | cons item items ih =>
      exact (ih _).trans (((perm_insertDescending lt item found).append_left items).trans
        List.perm_middle)

theorem sorted_foldl_insertDescending {items found : List α}
    (consistent : Consistent lt (found ++ items)) (sorted : Sorted (fun a b => lt b a) found) :
    Sorted (fun a b => lt b a)
      (items.foldl (fun found item => insertDescending lt item found) found) := by
  induction items generalizing found with
  | nil => exact sorted
  | cons item items ih =>
      have same : (found ++ item :: items).Perm (item :: found ++ items) := List.perm_middle
      refine ih ((consistent.perm same.symm).perm ?_) ?_
      · exact (perm_insertDescending lt item found).append_right items
      · exact sorted_insertDescending (consistent.mono (by grind)) sorted

theorem perm_insertAll (lt : α → α → Bool) (sorted items : List α) :
    (insertAll lt sorted items).Perm (sorted ++ items) := by
  have inserted := perm_foldl_insertDescending lt items sorted.reverse
  exact (List.reverse_perm _).trans (inserted.trans
    (((List.reverse_perm sorted).append_left items).trans List.perm_append_comm))

theorem sorted_insertAll {sorted items : List α} (consistent : Consistent lt (sorted ++ items))
    (start : Sorted lt sorted) : Sorted lt (insertAll lt sorted items) :=
  Sorted.of_reverse (sorted_foldl_insertDescending (consistent.mono (by grind)) start.reverse)

theorem exists_ordered_pair (lt : α → α → Bool) (p q : α) :
    ∃ a b, (if lt q p then (q, p) else (p, q)) = (a, b) ∧ [a, b].Perm [p, q] ∧
      (Consistent lt [p, q] → lt b a = false) := by
  split
  next less =>
    exact ⟨q, p, rfl, .swap p q [], fun consistent => consistent.asymm (by simp) (by simp) less⟩
  next notLess => exact ⟨p, q, rfl, .refl _, fun _ => Bool.not_eq_true _ ▸ notLess⟩

/-- With both pairs ordered, the least and the greatest item of all are found, and the two in
between are ordered last. -/
theorem exists_ends {p q r s a b c d : α} (isFirst : (if lt q p then (q, p) else (p, q)) = (a, b))
    (isSecond : (if lt s r then (s, r) else (r, s)) = (c, d)) :
    ∃ least x y greatest,
      sortFour lt p q r s = (if lt y x then [least, y, x, greatest] else [least, x, y, greatest]) ∧
      [least, x, y, greatest].Perm [a, b, c, d] ∧
      (Consistent lt [a, b, c, d] → lt b a = false → lt d c = false →
        (∀ z ∈ [x, y, greatest], lt z least = false) ∧ ∀ z ∈ [x, y], lt greatest z = false) := by
  simp only [sortFour, isFirst, isSecond]
  clear isFirst isSecond
  cases cLess : lt c a <;> cases dLess : lt d b <;>
    refine ⟨_, _, _, _, rfl, by classical grind, fun consistent first second => ?_⟩
  all_goals
    have trans := @consistent.trans
    have asymm := @consistent.asymm
    constructor <;> grind

theorem sortFour_sorts (lt : α → α → Bool) (p q r s : α) :
    (sortFour lt p q r s).Perm [p, q, r, s] ∧
      (Consistent lt [p, q, r, s] → Sorted lt (sortFour lt p q r s)) := by
  obtain ⟨a, b, isFirst, permFirst, first⟩ := exists_ordered_pair lt p q
  obtain ⟨c, d, isSecond, permSecond, second⟩ := exists_ordered_pair lt r s
  obtain ⟨least, x, y, greatest, whole, permEnds, ends⟩ := exists_ends isFirst isSecond
  have permPairs : [a, b, c, d].Perm [p, q, r, s] := permFirst.append permSecond
  have ordered (consistent : Consistent lt [p, q, r, s]) :=
    ends (consistent.perm permPairs) (first (consistent.mono (by simp)))
      (second (consistent.mono (by simp)))
  have sub : ∀ z ∈ [least, x, y, greatest], z ∈ [p, q, r, s] := fun z =>
    (permEnds.trans permPairs).mem_iff.1
  rw [whole]
  split
  next less =>
    have swapped : [least, y, x, greatest].Perm [least, x, y, greatest] :=
      .cons least (.swap x y _)
    refine ⟨swapped.trans (permEnds.trans permPairs), fun consistent => ?_⟩
    have := consistent.asymm (sub y (by simp)) (sub x (by simp)) less
    obtain ⟨above, below⟩ := ordered consistent
    simp_all [Sorted]
  next notLess =>
    refine ⟨permEnds.trans permPairs, fun consistent => ?_⟩
    simpa [Sorted, notLess, and_assoc] using ordered consistent

/-! ## By halves -/

theorem sortFromFour_sorts (lt : α → α → Bool) (items : List α) :
    (sortFromFour lt items).Perm items ∧
      (Consistent lt items → Sorted lt (sortFromFour lt items)) := by
  rw [sortFromFour.eq_def]
  split
  next p q r s rest =>
    obtain ⟨perm, sorted⟩ := sortFour_sorts lt p q r s
    have perm : (sortFour lt p q r s ++ rest).Perm (p :: q :: r :: s :: rest) :=
      perm.append_right rest
    refine ⟨(perm_insertAll lt _ rest).trans perm, fun consistent => ?_⟩
    exact sorted_insertAll (consistent.perm perm) (sorted (consistent.mono (by grind)))
  next => exact ⟨perm_insertAll lt [] items, fun consistent => sorted_insertAll consistent .nil⟩

theorem sortHalf_sorts (lt : α → α → Bool) (limit : Nat) (items : List α) :
    ((if limit < 8 then insertAll lt [] else sortFromFour lt) items).Perm items ∧
      (Consistent lt items →
        Sorted lt ((if limit < 8 then insertAll lt [] else sortFromFour lt) items)) := by
  split
  · exact ⟨perm_insertAll lt [] items, fun consistent => sorted_insertAll consistent .nil⟩
  · exact sortFromFour_sorts lt items

theorem sortHalves_permutes (lt : α → α → Bool) : Permutes (sortHalves lt) := by
  intro items sorted done
  have halves := (perm_of_mergeEnds done).trans
    ((sortHalf_sorts lt _ _).1.append (sortHalf_sorts lt _ _).1)
  rwa [List.take_append_drop] at halves

theorem sortHalves_sorts (lt : α → α → Bool) : Sorts lt (sortHalves lt) := by
  intro items consistent
  obtain ⟨permLeft, left⟩ := sortHalf_sorts lt items.length (items.take (items.length / 2))
  obtain ⟨permRight, right⟩ := sortHalf_sorts lt items.length (items.drop (items.length / 2))
  have countLeft := permLeft.length_eq
  have countRight := permRight.length_eq
  rw [List.length_take] at countLeft
  rw [List.length_drop] at countRight
  have perm := permLeft.append permRight
  rw [List.take_append_drop] at perm
  exact exists_mergeEnds (consistent.perm perm)
    (left (consistent.mono fun _ => List.mem_of_mem_take))
    (right (consistent.mono fun _ => List.mem_of_mem_drop)) (by omega) (by omega)

end BlockScript.Sort
