import BlockScript.Proofs.Sort.Stretches
import BlockScript.Sort.Stable
import Mathlib.Tactic.SplitIfs

/-!
# Sorting by partition

What carries the division is its bound: no item is less than the pivot that it is, so items that do
not exceed a new pivot which is not greater are all equal to it.  Below the limits of the recursion
everything is left to the stretches, and `stable` puts the ways of sorting together.
-/

namespace BlockScript.Sort

variable {α : Type} {lt : α → α → Bool}

/-! ## The pivot -/

theorem median_lt (lt : α → α → Bool) (items : Array α) {a b c bound : Nat} (first : a < bound)
    (second : b < bound) (third : c < bound) : median lt items a b c < bound := by
  unfold median
  extract_lets less
  split_ifs
  · exact second
  · exact third
  · exact first

theorem medianOfSections_lt (lt : α → α → Bool) (items : Array α) {a b c width bound : Nat}
    (wide : 0 < width) (first : a + width ≤ bound) (second : b + width ≤ bound)
    (third : c + width ≤ bound) : medianOfSections lt items a b c width < bound := by
  induction width using Nat.strong_induction_on generalizing a b c with
  | _ width ih =>
      rw [medianOfSections]
      split
      next large =>
        have inner (start : Nat) (inside : start + width ≤ bound) :
            medianOfSections lt items start (start + width / 8 * 4) (start + width / 8 * 7)
              (width / 8) < bound :=
          ih (width / 8) (by omega) (by omega) (by omega) (by omega) (by omega)
        exact median_lt lt items (inner a first) (inner b second) (inner c third)
      next => exact median_lt lt items (by omega) (by omega) (by omega)

theorem pivotPlace_lt (lt : α → α → Bool) {items : Array α} (large : 8 ≤ items.size) :
    pivotPlace lt items < items.size :=
  medianOfSections_lt lt items (by omega) (by omega) (by omega) (by omega)

/-! ## The division -/

def chosen (p : α → Bool) (before after : List α) : List α := before.filter p ++ after.filter p

def remaining (p : α → Bool) (before : List α) (pivot : α) (after : List α) : List α :=
  before.filter (!p ·) ++ pivot :: after.filter (!p ·)

section
variable {p : α → Bool} {before after : List α} {pivot a : α}

theorem perm_chosen_remaining (p : α → Bool) (before : List α) (pivot : α) (after : List α) :
    (chosen p before after ++ remaining p before pivot after).Perm (before ++ pivot :: after) := by
  classical
  refine List.perm_iff_count.2 fun a => ?_
  have first := (List.filter_append_perm p before).count_eq a
  have second := (List.filter_append_perm p after).count_eq a
  simp only [chosen, remaining, List.count_append, List.count_cons] at first second ⊢
  omega

theorem of_mem_chosen (mem : a ∈ chosen p before after) :
    a ∈ before ++ pivot :: after ∧ p a = true := by
  rw [chosen, ← List.filter_append, List.mem_filter] at mem
  exact ⟨by grind, mem.2⟩

theorem of_mem_remaining (stays : p pivot = false) (mem : a ∈ remaining p before pivot after) :
    a ∈ before ++ pivot :: after ∧ p a = false := by
  rw [remaining] at mem
  grind

end

section
variable {limit : Nat} {bound : Option α} {items : List α}

theorem sortByPivots_short (short : items.length ≤ shortLimit) :
    sortByPivots lt limit bound items = sortHalves lt items := by
  cases limit <;> exact if_pos short

/-- A long list is divided at its pivot: by what is less than the pivot, or, if nothing is, by what
the pivot is less than. -/
theorem exists_pivot (lt : α → α → Bool) (limit : Nat) (bound : Option α)
    (long : shortLimit < items.length) :
    ∃ before pivot after, items = before ++ pivot :: after ∧
      sortByPivots lt (limit + 1) bound items =
        if bound.any (!lt · pivot) || (chosen (lt · pivot) before after).isEmpty then
          (sortByPivots lt limit none (chosen (lt pivot ·) before after)).bind fun greater =>
            some (remaining (lt pivot ·) before pivot after ++ greater)
        else
          (sortByPivots lt limit (some pivot) (remaining (lt · pivot) before pivot after)).bind
            fun others => (sortByPivots lt limit bound (chosen (lt · pivot) before after)).bind
              fun lesser => some (lesser ++ others) := by
  have place : pivotPlace lt items.toArray < items.length := by
    rw [shortLimit] at long
    rw [← List.size_toArray] at long ⊢
    exact pivotPlace_lt lt (by omega)
  obtain ⟨pivot, after, isAfter⟩ := List.exists_cons_of_length_pos
    (l := items.drop (pivotPlace lt items.toArray)) (by rw [List.length_drop]; omega)
  refine ⟨items.take (pivotPlace lt items.toArray), pivot, after, ?_, ?_⟩
  · rw [← isAfter, List.take_append_drop]
  · rw [sortByPivots, if_neg (Nat.not_le.2 long)]
    simp only [isAfter, List.partition_eq_filter_filter]
    rfl

end

theorem sortByPivots_permutes (lt : α → α → Bool) (limit : Nat) (bound : Option α) :
    Permutes (sortByPivots lt limit bound) := by
  induction limit generalizing bound with
  | zero =>
      intro items sorted done
      rw [sortByPivots] at done
      split at done
      · exact sortHalves_permutes lt items sorted done
      · exact sortEagerly_permutes lt items sorted done
  | succ limit ih =>
      intro items sorted done
      by_cases short : items.length ≤ shortLimit
      · rw [sortByPivots_short short] at done
        exact sortHalves_permutes lt items sorted done
      obtain ⟨before, pivot, after, rfl, divides⟩ :=
        exists_pivot lt limit bound (Nat.lt_of_not_le short)
      rw [divides] at done
      split at done
      · obtain ⟨greater, isGreater, done⟩ := Option.bind_eq_some_iff.1 done
        obtain rfl := Option.some.inj done
        exact (List.perm_append_comm.trans ((ih none _ _ isGreater).append_right _)).trans
          (perm_chosen_remaining (lt pivot ·) before pivot after)
      · obtain ⟨others, isOthers, done⟩ := Option.bind_eq_some_iff.1 done
        obtain ⟨lesser, isLesser, done⟩ := Option.bind_eq_some_iff.1 done
        obtain rfl := Option.some.inj done
        exact ((ih bound _ _ isLesser).append (ih _ _ _ isOthers)).trans
          (perm_chosen_remaining (lt · pivot) before pivot after)

structure Bounded (lt : α → α → Bool) (bound : Option α) (items : List α) : Prop where
  consistent : Consistent lt (bound.toList ++ items)
  least : ∀ b ∈ bound, ∀ a ∈ items, lt a b = false

namespace Bounded

variable {bound : Option α} {items : List α}

theorem items_consistent (bounded : Bounded lt bound items) : Consistent lt items :=
  bounded.consistent.mono fun _ => List.mem_append_right _

theorem mono {others : List α} (bounded : Bounded lt bound items)
    (sub : ∀ a ∈ others, a ∈ items) : Bounded lt bound others where
  consistent := bounded.consistent.mono (by grind)
  least b mem a other := bounded.least b mem a (sub a other)

theorem none (consistent : Consistent lt items) : Bounded lt none items where
  consistent := consistent
  least b mem := absurd mem (Option.not_mem_none b)

theorem pivot_least {pivot : α} (bounded : Bounded lt bound items) (inside : pivot ∈ items)
    (reached : bound.any (!lt · pivot) = true) : ∀ a ∈ items, lt a pivot = false := by
  intro a mem
  cases bound with
  | none => cases reached
  | some b =>
      have le : lt b pivot = false := by simpa using reached
      exact bounded.consistent.trans (by simp [inside]) (by simp) (by simp [mem]) le
        (bounded.least b rfl a mem)

end Bounded

section
variable {before after : List α} {pivot : α} (consistent : Consistent lt (before ++ pivot :: after))
include consistent

theorem sorted_remaining_append {greater : List α}
    (least : ∀ a ∈ before ++ pivot :: after, lt a pivot = false)
    (same : greater.Perm (chosen (lt pivot ·) before after)) (sorted : Sorted lt greater) :
    Sorted lt (remaining (lt pivot ·) before pivot after ++ greater) := by
  have inside : pivot ∈ before ++ pivot :: after := by simp
  have stays := consistent.irrefl inside
  have first : ∀ a ∈ remaining (lt pivot ·) before pivot after,
      ∀ c ∈ before ++ pivot :: after, lt c a = false := fun a mem c other =>
    consistent.trans (of_mem_remaining stays mem).1 inside other (of_mem_remaining stays mem).2
      (least c other)
  refine sorted_append.2 ⟨?_, sorted, fun a mem c other => ?_⟩
  · exact List.pairwise_of_forall_mem_list fun a mem c other =>
      first a mem c (of_mem_remaining stays other).1
  · exact first a mem c (of_mem_chosen (same.mem_iff.1 other)).1

theorem sorted_lesser_append {lesser others : List α}
    (sameLesser : lesser.Perm (chosen (lt · pivot) before after))
    (sameOthers : others.Perm (remaining (lt · pivot) before pivot after))
    (sortedLesser : Sorted lt lesser) (sortedOthers : Sorted lt others) :
    Sorted lt (lesser ++ others) := by
  have inside : pivot ∈ before ++ pivot :: after := by simp
  refine sorted_append.2 ⟨sortedLesser, sortedOthers, fun a mem c other => ?_⟩
  obtain ⟨within, less⟩ : a ∈ before ++ pivot :: after ∧ lt a pivot = true :=
    of_mem_chosen (sameLesser.mem_iff.1 mem)
  obtain ⟨also, notLess⟩ :=
    of_mem_remaining (p := (lt · pivot)) (consistent.irrefl inside) (sameOthers.mem_iff.1 other)
  exact consistent.trans within inside also (consistent.asymm within inside less) notLess

end

theorem sortByPivots_sorts (lt : α → α → Bool) (limit : Nat) {bound : Option α} {items : List α}
    (bounded : Bounded lt bound items) :
    ∃ sorted, sortByPivots lt limit bound items = some sorted ∧ Sorted lt sorted := by
  induction limit generalizing bound items with
  | zero =>
      rw [sortByPivots]
      split
      · exact sortHalves_sorts lt items bounded.items_consistent
      · exact sortEagerly_sorts lt items bounded.items_consistent
  | succ limit ih =>
      have consistent := bounded.items_consistent
      by_cases short : items.length ≤ shortLimit
      · rw [sortByPivots_short short]
        exact sortHalves_sorts lt items consistent
      obtain ⟨before, pivot, after, rfl, divides⟩ :=
        exists_pivot lt limit bound (Nat.lt_of_not_le short)
      have inside : pivot ∈ before ++ pivot :: after := by simp
      have stays := consistent.irrefl inside
      rw [divides]
      split
      next ends =>
        -- Either way the pivot is a least item, so only the greater ones are left to be sorted.
        have least : ∀ a ∈ before ++ pivot :: after, lt a pivot = false := by
          rcases Bool.or_eq_true_iff.1 ends with reached | none
          · exact bounded.pivot_least inside reached
          · rw [List.isEmpty_iff, chosen, ← List.filter_append, List.filter_eq_nil_iff] at none
            grind
        have unbounded : Bounded lt none (chosen (lt pivot ·) before after) :=
          .none (consistent.mono fun a mem => (of_mem_chosen mem).1)
        obtain ⟨greater, isGreater, sorted⟩ := ih unbounded
        refine ⟨_, by rw [isGreater, Option.bind_some], ?_⟩
        exact sorted_remaining_append consistent least
          (sortByPivots_permutes lt limit none _ _ isGreater) sorted
      next =>
        -- The pivot bounds the others from below, and the bound holds of the lesser ones as before.
        have kept : ∀ a ∈ remaining (lt · pivot) before pivot after,
            a ∈ before ++ pivot :: after ∧ lt a pivot = false :=
          fun a => of_mem_remaining (p := (lt · pivot)) stays
        have boundedOthers : Bounded lt (some pivot) (remaining (lt · pivot) before pivot after) :=
          { consistent := consistent.mono
              (List.forall_mem_cons.2 ⟨inside, fun a mem => (kept a mem).1⟩)
            least := fun b isPivot a mem => Option.some.inj isPivot ▸ (kept a mem).2 }
        have boundedLesser : Bounded lt bound (chosen (lt · pivot) before after) :=
          bounded.mono fun a mem => (of_mem_chosen mem).1
        obtain ⟨others, isOthers, sortedOthers⟩ := ih boundedOthers
        obtain ⟨lesser, isLesser, sortedLesser⟩ := ih boundedLesser
        refine ⟨_, by rw [isOthers, Option.bind_some, isLesser, Option.bind_some], ?_⟩
        exact sorted_lesser_append consistent (sortByPivots_permutes lt limit _ _ _ isLesser)
          (sortByPivots_permutes lt limit _ _ _ isOthers) sortedLesser sortedOthers

theorem sortByPartition_permutes (lt : α → α → Bool) : Permutes (sortByPartition lt) :=
  fun items => sortByPivots_permutes lt (2 * items.length.log2) none items

theorem sortByPartition_sorts (lt : α → α → Bool) : Sorts lt (sortByPartition lt) := by
  intro items consistent
  exact sortByPivots_sorts lt (2 * items.length.log2) (.none consistent)

/-! ## Stable sorting -/

theorem cutsFront_take (least : Nat) :
    CutsFront fun rest : List α => some ⟨rest.take least, false⟩ := by
  intro items first done
  obtain rfl := Option.some.inj done
  rw [List.length_take, ← List.take_eq_take_min]

theorem cutsFine_take {sort : List α → Option (List α)} (sorts : Sorts lt sort) {least : Nat}
    (positive : 0 < least) : CutsFine lt sort fun rest => some ⟨rest.take least, false⟩ := by
  intro items consistent more
  refine ⟨_, rfl, fun none => ?_, fine_of_sorts sorts _⟩
  rcases List.take_eq_nil_iff.1 none with rfl | none
  · exact absurd positive (Nat.lt_irrefl 0)
  · exact more none

/-- Whatever the comparison, the items of the outcome are those of the list. -/
theorem stable_permutes (lt : α → α → Bool) : Permutes (stable lt) := by
  intro items sorted done
  rw [stable] at done
  split at done
  · obtain rfl := Option.some.inj done
    exact perm_insertAll lt [] items
  split at done
  · exact sortEagerly_permutes lt items sorted done
  · exact sortStretches_permutes (cutsFront_take _) (sortByPartition_permutes lt) items sorted done

theorem stable_sorts (lt : α → α → Bool) : Sorts lt (stable lt) := by
  intro items consistent
  rw [stable]
  split
  · exact ⟨_, rfl, sorted_insertAll consistent .nil⟩
  split
  · exact sortEagerly_sorts lt items consistent
  next long =>
    have positive : 0 < worthwhile items.length :=
      worthwhile_pos ((Nat.zero_le _).trans_lt (Nat.lt_of_not_le long))
    exact sortStretches_sorts (cutsFront_take _) (cutsFine_take (sortByPartition_sorts lt) positive)
      (sortByPartition_permutes lt) items consistent

end BlockScript.Sort
