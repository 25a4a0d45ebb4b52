import BlockScript.Text.Lines
import Mathlib.Data.List.Basic

/-!
# Lines written and read

Reading takes a carriage return away with the line feed that follows it, and writing puts none
there.  So a line that is written comes back without a carriage return at its end
(`withoutReturn`), and a line feed in it cuts it in pieces: `readLines_writeLines` says what comes
back in general, `readLines_writeLines_of_lines` what comes back of lines without line feeds, which
are all that reading ever gives.  `lines_exchanged` says of which lists and of which contents nothing
gets lost.
-/

namespace BlockScript.Text

def endsInReturn (line : List Char) : Bool := line.getLast? == some '\r'

def dropReturn (line : List Char) : List Char :=
  if endsInReturn line then line.dropLast else line

def withoutReturn (line : String) : String := String.ofList (dropReturn line.toList)

theorem dropReturn_eq_self_iff {line : List Char} :
    dropReturn line = line ↔ endsInReturn line = false := by
  unfold dropReturn
  split
  next ends =>
    have nonempty : line ≠ [] := by
      rintro rfl
      cases ends
    refine iff_of_false (fun same => ?_) (by simp [ends])
    have length := congrArg List.length same
    rw [List.length_dropLast] at length
    have := List.length_pos_iff.2 nonempty
    omega
  next ends => exact iff_of_true rfl (Bool.eq_false_iff.2 ends)

theorem withoutReturn_eq_self_iff {line : String} :
    withoutReturn line = line ↔ endsInReturn line.toList = false := by
  rw [← dropReturn_eq_self_iff, withoutReturn, ← String.toList_inj, String.toList_ofList]

theorem dropReturn_cons_cons (c d : Char) (line : List Char) :
    dropReturn (c :: d :: line) = c :: dropReturn (d :: line) := by
  unfold dropReturn endsInReturn
  rw [List.getLast?_cons_cons, List.dropLast_cons_cons]
  split <;> rfl

/-! ## Cutting -/

theorem consLine_append (c : Char) {lines : List (List Char)} (nonempty : lines ≠ [])
    (more : List (List Char)) : consLine c (lines ++ more) = consLine c lines ++ more := by
  cases lines with
  | nil => exact absurd rfl nonempty
  | cons line rest => rfl

theorem splitLines_cons_cons {c d : Char} (within : c ≠ '\n') (later : c ≠ '\r' ∨ d ≠ '\n')
    (rest : List Char) :
    splitLines (c :: d :: rest) = consLine c (splitLines (d :: rest)) := by
  refine splitLines.eq_4 c (d :: rest) within ?_
  rintro _ rfl eq
  cases eq
  exact later.elim (absurd rfl) (absurd rfl)

theorem splitLines_ne_nil {cs : List Char} (nonempty : cs ≠ []) : splitLines cs ≠ [] := by
  fun_cases splitLines cs with
  | case1 => exact absurd rfl nonempty
  | case2 | case3 => exact List.cons_ne_nil _ _
  | case4 c rest =>
      cases splitLines rest with
      | nil => exact List.cons_ne_nil _ _
      | cons line lines => exact List.cons_ne_nil _ _

theorem splitLines_append_newline (cs rest : List Char) :
    splitLines (cs ++ '\n' :: rest) = splitLines (cs ++ ['\n']) ++ splitLines rest := by
  fun_induction splitLines cs with
  | case1 => rfl
  | case2 cs ih => exact congrArg ([] :: ·) ih
  | case3 cs ih => exact congrArg ([] :: ·) ih
  | case4 c cs within ends ih =>
      cases cs with
      | nil =>
          -- the character, unless it is a carriage return, is a line of its own
          by_cases isReturn : c = '\r'
          · subst isReturn
            rfl
          · rw [List.cons_append, List.nil_append, splitLines_cons_cons within (.inl isReturn),
              List.cons_append, List.nil_append, splitLines_cons_cons within (.inl isReturn)]
            rfl
      | cons d cs =>
          have later : c ≠ '\r' ∨ d ≠ '\n' := by
            by_contra both
            obtain ⟨rfl, rfl⟩ : c = '\r' ∧ d = '\n' := by simpa [not_or] using both
            exact ends _ rfl rfl
          calc splitLines (c :: d :: (cs ++ '\n' :: rest))
              = consLine c (splitLines (d :: cs ++ '\n' :: rest)) :=
                splitLines_cons_cons within later _
            _ = consLine c (splitLines (d :: cs ++ ['\n']) ++ splitLines rest) := by rw [ih]
            _ = consLine c (splitLines (d :: cs ++ ['\n'])) ++ splitLines rest :=
                consLine_append c (splitLines_ne_nil (List.cons_ne_nil _ _)) _
            _ = splitLines (c :: d :: (cs ++ ['\n'])) ++ splitLines rest :=
                congrArg (· ++ splitLines rest) (splitLines_cons_cons within later _).symm

theorem splitLines_of_line {line : List Char} (isLine : '\n' ∉ line) :
    splitLines (line ++ ['\n']) = [dropReturn line] := by
  induction line with
  | nil => rfl
  | cons c line ih =>
      obtain ⟨within, isLine⟩ : c ≠ '\n' ∧ '\n' ∉ line := by
        rw [List.mem_cons, not_or] at isLine
        exact ⟨Ne.symm isLine.1, isLine.2⟩
      cases line with
      | nil =>
          by_cases isReturn : c = '\r'
          · subst isReturn
            rfl
          · rw [List.cons_append, List.nil_append, splitLines_cons_cons within (.inl isReturn)]
            simp [dropReturn, endsInReturn, isReturn, splitLines, consLine]
      | cons d line =>
          have later : d ≠ '\n' := fun eq => isLine (eq ▸ List.mem_cons_self)
          rw [List.cons_append, List.cons_append, splitLines_cons_cons within (.inr later),
            ← List.cons_append, ih isLine, dropReturn_cons_cons]
          rfl

theorem newline_not_mem_of_mem_splitLines {cs line : List Char} (isLine : line ∈ splitLines cs) :
    '\n' ∉ line := by
  fun_induction splitLines cs generalizing line with
  | case1 => cases isLine
  | case2 cs ih | case3 cs ih =>
      rcases List.mem_cons.1 isLine with rfl | isLine
      · exact List.not_mem_nil
      · exact ih isLine
  | case4 c cs within ends ih =>
      cases lines : splitLines cs with
      | nil =>
          rw [lines] at isLine
          rw [List.mem_singleton.1 isLine, List.mem_singleton]
          exact Ne.symm within
      | cons first rest =>
          rw [lines] at isLine ih
          rcases List.mem_cons.1 isLine with rfl | isLine
          · rw [List.mem_cons, not_or]
            exact ⟨Ne.symm within, ih List.mem_cons_self⟩
          · exact ih (List.mem_cons_of_mem _ isLine)

theorem splitLines_joinLines (lines : List (List Char)) :
    splitLines (joinLines lines) = lines.flatMap fun line => splitLines (line ++ ['\n']) := by
  induction lines with
  | nil => rfl
  | cons line lines ih =>
      calc splitLines (line ++ ['\n'] ++ joinLines lines)
          = splitLines (line ++ '\n' :: joinLines lines) := by
            rw [List.append_assoc, List.singleton_append]
        _ = splitLines (line ++ ['\n']) ++ splitLines (joinLines lines) :=
            splitLines_append_newline line _
        _ = _ := by rw [ih, List.flatMap_cons]

/-! ## Texts -/

/-- Whatever lines are written, reading gives those of each line in turn. -/
theorem readLines_writeLines (lines : List String) :
    readLines (writeLines lines) = lines.flatMap fun line => readLines (line ++ "\n") := by
  simp only [readLines, writeLines, String.toList_ofList, splitLines_joinLines, List.map_flatMap,
    List.flatMap_map, String.toList_append]
  rfl

theorem newline_not_mem_of_mem_readLines {content line : String}
    (isLine : line ∈ readLines content) : '\n' ∉ line.toList := by
  obtain ⟨cs, isCut, rfl⟩ := List.mem_map.1 isLine
  rw [String.toList_ofList]
  exact newline_not_mem_of_mem_splitLines isCut

theorem readLines_writeLines_of_lines {lines : List String}
    (areLines : ∀ line ∈ lines, '\n' ∉ line.toList) :
    readLines (writeLines lines) = lines.map withoutReturn := by
  rw [readLines_writeLines, List.map_eq_flatMap]
  refine List.flatMap_congr fun line isLine => ?_
  rw [readLines, String.toList_append]
  exact congrArg _ (splitLines_of_line (areLines line isLine))

theorem map_withoutReturn_eq_self_iff {lines : List String} :
    lines.map withoutReturn = lines ↔ ∀ line ∈ lines, endsInReturn line.toList = false := by
  calc lines.map withoutReturn = lines
      ↔ lines.map withoutReturn = lines.map id := by rw [List.map_id]
    _ ↔ ∀ line ∈ lines, withoutReturn line = line := List.map_inj_left
    _ ↔ ∀ line ∈ lines, endsInReturn line.toList = false :=
        forall₂_congr fun _ _ => withoutReturn_eq_self_iff

theorem readLines_writeLines_eq_self_iff {lines : List String} :
    readLines (writeLines lines) = lines ↔
      ∀ line ∈ lines, '\n' ∉ line.toList ∧ endsInReturn line.toList = false := by
  constructor
  · intro same
    -- what is read has no line feeds, and here what is read is what was written
    have areLines : ∀ line ∈ lines, '\n' ∉ line.toList := by
      rw [← same]
      exact fun line => newline_not_mem_of_mem_readLines
    rw [readLines_writeLines_of_lines areLines, map_withoutReturn_eq_self_iff] at same
    exact fun line isLine => ⟨areLines line isLine, same line isLine⟩
  · intro each
    rw [readLines_writeLines_of_lines fun line isLine => (each line isLine).1]
    exact map_withoutReturn_eq_self_iff.2 fun line isLine => (each line isLine).2

/-- Lines that are written come back exactly if none of them holds a line feed or ends in a carriage
return, and lines that were read come back exactly if none of them ends in a carriage return. -/
theorem lines_exchanged :
    (∀ lines, readLines (writeLines lines) = lines ↔
      ∀ line ∈ lines, '\n' ∉ line.toList ∧ endsInReturn line.toList = false) ∧
    ∀ content, readLines (writeLines (readLines content)) = readLines content ↔
      ∀ line ∈ readLines content, endsInReturn line.toList = false := by
  refine ⟨fun lines => readLines_writeLines_eq_self_iff, fun content => ?_⟩
  rw [readLines_writeLines_eq_self_iff]
  exact forall₂_congr fun line isLine => and_iff_right (newline_not_mem_of_mem_readLines isLine)

/-- A carriage return without a line feed behind it is read as part of its line; written in front of
a line feed, it is not. -/
example : readLines (writeLines (readLines "a\r")) = ["a"] := by decide +kernel

end BlockScript.Text
