import BlockScript.Catalog.TextBlock
import Mathlib.Data.List.DropRight

/-!
# Texts split and joined

`cutAt` cuts at the leftmost occurrences of a separator: joined by the separator the pieces are the
text again (`intercalate_cutAt`), and none of them contains it (`not_infix_of_mem_cutAt`), because
an occurrence inside a piece would have been cut at when its first character was reached.  Pieces
that are dropped at the end are empty, so only copies of the separator are lost with them
(`exists_copies`).  `TextBlock.split_rejoins` puts this together for the block.
-/

namespace BlockScript

namespace Text

/-! ## Cutting -/

section
variable {first : Char} {more : List Char}

theorem cutAt_ne_nil (cs : List Char) : cutAt first more cs ≠ [] := by
  fun_cases cutAt first more cs with
  | case1 => exact List.cons_ne_nil _ _
  | case2 => exact List.cons_ne_nil _ _
  | case3 c rest =>
      cases cutAt first more rest with
      | nil => exact List.cons_ne_nil _ _
      | cons piece pieces => exact List.cons_ne_nil _ _

theorem intercalate_consPiece (separator : List Char) (c : Char) {pieces : List (List Char)}
    (nonempty : pieces ≠ []) :
    separator.intercalate (consPiece c pieces) = c :: separator.intercalate pieces := by
  cases pieces with
  | nil => exact absurd rfl nonempty
  | cons piece pieces => cases pieces <;> simp [consPiece]

theorem exists_of_isPrefixOf {c : Char} {rest : List Char}
    (starts : (first :: more).isPrefixOf (c :: rest) = true) :
    ∃ tail, c = first ∧ rest = more ++ tail := by
  obtain ⟨tail, eq⟩ := List.isPrefixOf_iff_prefix.1 starts
  obtain ⟨rfl, rfl⟩ := List.cons.inj eq
  exact ⟨tail, rfl, rfl⟩

theorem intercalate_cutAt (cs : List Char) :
    (first :: more).intercalate (cutAt first more cs) = cs := by
  fun_induction cutAt first more cs with
  | case1 => simp
  | case2 c rest starts ih =>
      obtain ⟨tail, rfl, rfl⟩ := exists_of_isPrefixOf starts
      rw [List.drop_left] at ih ⊢
      have nonempty : cutAt c more tail ≠ [] := cutAt_ne_nil tail
      obtain ⟨piece, pieces, cut⟩ := List.exists_cons_of_ne_nil nonempty
      rw [cut] at ih ⊢
      rw [List.intercalate_cons_cons, ih]
      simp
  | case3 c rest other ih => rw [intercalate_consPiece _ _ (cutAt_ne_nil rest), ih]

theorem isPrefix_of_cutAt {cs piece : List Char} {pieces : List (List Char)}
    (cut : cutAt first more cs = piece :: pieces) : piece <+: cs := by
  fun_induction cutAt first more cs generalizing piece pieces with
  | case1 => simp_all
  | case2 => simp_all
  | case3 c rest other ih =>
      obtain ⟨next, later, cut'⟩ := List.exists_cons_of_ne_nil (cutAt_ne_nil rest)
      rw [cut', consPiece] at cut
      obtain ⟨rfl, -⟩ := List.cons.inj cut
      exact List.prefix_cons_inj c |>.2 (ih cut')

theorem not_infix_of_mem_cutAt {cs piece : List Char} (member : piece ∈ cutAt first more cs) :
    ¬ first :: more <:+: piece := by
  fun_induction cutAt first more cs generalizing piece with
  | case1 => simp_all
  | case2 c rest starts ih =>
      rcases List.mem_cons.1 member with rfl | member
      · simp
      · exact ih member
  | case3 c rest other ih =>
      obtain ⟨next, later, cut⟩ := List.exists_cons_of_ne_nil (cutAt_ne_nil rest)
      rw [cut] at ih
      rw [cut, consPiece] at member
      rcases List.mem_cons.1 member with rfl | member
      · intro inside
        rcases List.infix_cons_iff.1 inside with atStart | later
        · have start := atStart.trans ((List.prefix_cons_inj c).2 (isPrefix_of_cutAt cut))
          exact other (List.isPrefixOf_iff_prefix.2 start)
        · exact ih List.mem_cons_self later
      · exact ih (List.mem_cons_of_mem _ member)

theorem cutAt_copies (k : Nat) :
    cutAt first more (List.replicate k (first :: more)).flatten = List.replicate (k + 1) [] := by
  induction k with
  | zero => simp [cutAt]
  | succ k ih =>
      rw [List.replicate_succ, List.flatten_cons, List.cons_append, cutAt, if_pos (by simp),
        List.drop_left, ih, ← List.replicate_succ]

end

/-! ## Empty pieces at the end -/

theorem dropTrailingEmpty_eq (pieces : List (List Char)) :
    dropTrailingEmpty pieces = pieces.rdropWhile List.isEmpty := rfl

theorem exists_dropped (pieces : List (List Char)) :
    ∃ k, pieces = dropTrailingEmpty pieces ++ List.replicate k [] := by
  have dropped : pieces.rtakeWhile List.isEmpty =
      List.replicate (pieces.rtakeWhile List.isEmpty).length [] := by
    rw [List.eq_replicate_iff]
    exact ⟨rfl, fun piece member => List.isEmpty_iff.1 (List.mem_rtakeWhile_imp member)⟩
  refine ⟨(pieces.rtakeWhile List.isEmpty).length, ?_⟩
  rw [← dropped, dropTrailingEmpty_eq, List.rdropWhile_append_rtakeWhile]

theorem ne_nil_of_getLast? {pieces : List (List Char)} {last : List Char}
    (isLast : (dropTrailingEmpty pieces).getLast? = some last) : last ≠ [] := by
  rw [dropTrailingEmpty_eq] at isLast
  obtain ⟨nonempty, rfl⟩ := List.mem_getLast?_eq_getLast isLast
  simpa using List.rdropWhile_last_not List.isEmpty pieces nonempty

theorem exists_copies (separator : String) (parts : List String) (k : Nat) :
    ∃ j, separator.intercalate (parts ++ List.replicate k "") =
      separator.intercalate parts ++ String.join (List.replicate j separator) := by
  induction k with
  | zero => exact ⟨0, by simp⟩
  | succ k ih =>
      obtain ⟨j, joined⟩ := ih
      rw [List.replicate_succ', ← List.append_assoc]
      by_cases empty : parts ++ List.replicate k "" = []
      · rw [empty] at joined ⊢
        exact ⟨j, by simpa using joined⟩
      · refine ⟨j + 1, ?_⟩
        rw [String.intercalate_append_of_ne_nil empty (List.cons_ne_nil _ _), joined,
          List.replicate_succ', String.join_append]
        simp [String.append_assoc]

/-! ## Texts -/

structure Splits (s separator : String) (parts : List String) : Prop where
  apart : ∀ part ∈ parts, ¬ separator.toList <:+: part.toList
  last : ∀ part, parts.getLast? = some part → part ≠ ""
  rejoins : ∃ k, s = separator.intercalate parts ++ String.join (List.replicate k separator)
  empty_iff : parts = [] ↔ ∃ k, s = String.join (List.replicate k separator)

theorem splits_split (s : String) {separator : String} (nonempty : separator ≠ "") :
    Splits s separator (split s separator) := by
  obtain ⟨first, more, chars⟩ : ∃ first more, separator.toList = first :: more :=
    List.exists_cons_of_ne_nil (by simpa using nonempty)
  have parts : split s separator =
      (dropTrailingEmpty (cutAt first more s.toList)).map String.ofList := by
    simp [split, chars, splitPieces]
  obtain ⟨k, dropped⟩ := exists_dropped (cutAt first more s.toList)
  have whole : separator.intercalate (split s separator ++ List.replicate k "") = s := by
    rw [← String.toList_inj, String.toList_intercalate, chars, parts]
    simp only [List.map_append, List.map_map, List.map_replicate, String.toList_empty]
    have same : String.toList ∘ String.ofList = id := funext fun _ => String.toList_ofList
    rw [same, List.map_id, ← dropped, intercalate_cutAt]
  obtain ⟨j, joined⟩ := exists_copies separator (split s separator) k
  exact {
    apart := by
      intro part member
      rw [parts] at member
      obtain ⟨piece, kept, rfl⟩ := List.mem_map.1 member
      rw [chars, String.toList_ofList]
      apply not_infix_of_mem_cutAt
      rw [dropped]
      exact List.mem_append_left _ kept
    last := by
      intro part isLast
      rw [parts, List.getLast?_map] at isLast
      obtain ⟨piece, found, rfl⟩ := Option.map_eq_some_iff.1 isLast
      simpa using ne_nil_of_getLast? found
    rejoins := ⟨j, whole.symm.trans joined⟩
    empty_iff := by
      constructor
      · intro empty
        rw [whole, empty] at joined
        exact ⟨j, by simpa using joined⟩
      · intro copies
        obtain ⟨i, rfl⟩ := copies
        have flat : (String.join (List.replicate i separator)).toList =
            (List.replicate i (first :: more)).flatten := by
          simp [String.toList_join, List.flatMap, chars]
        rw [parts, flat, cutAt_copies, dropTrailingEmpty_eq, List.map_eq_nil_iff,
          List.rdropWhile_eq_nil_iff]
        intro piece member
        simp [List.eq_of_mem_replicate member] }

end Text

open Text in
/-- The block cuts a text so that joining undoes it, up to separators at the end. -/
theorem Catalog.TextBlock.split_rejoins (s separator : String) :
    compute [.text s, .text separator] .split =
        .ok (.list ((Text.split s separator).map .text)) ∧
      if separator = "" then
        Text.split s separator = s.toList.map String.singleton ∧
          String.join (Text.split s separator) = s
      else Splits s separator (Text.split s separator) := by
  refine ⟨rfl, ?_⟩
  split
  next empty =>
    have characters : Text.split s separator = s.toList.map String.singleton := by
      rw [Text.split, empty, String.toList_empty, splitPieces, List.map_map]
      exact List.map_congr_left fun c _ => String.singleton_eq_ofList.symm
    refine ⟨characters, ?_⟩
    rw [characters, ← String.toList_inj, String.toList_join]
    simp [List.flatMap_map]
  next nonempty => exact splits_split s nonempty

example : Text.split "aaabaa" "aa" = ["", "ab"] := by decide +kernel

end BlockScript
