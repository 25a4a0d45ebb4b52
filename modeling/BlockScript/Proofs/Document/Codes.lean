import BlockScript.Block.Registry
import BlockScript.Proofs.Number.Decimals
import Mathlib.Data.List.TakeWhile

/-!
# Codes and kinds

A code spells the word for variable references or a position, and `resolve?` gives the kind that
stands there (`resolve?_eq_some_iff`).  A code that `codeOf?` writes is read back as the kind it was
written for (`resolve?_of_codeOf?`).  A kind has a code when it is registered in some group
(`codeOf?_isSome_iff`), so every kind that a code names has a code of its own
(`codeOf?_of_resolve?`).
-/

namespace BlockScript

namespace Registry

theorem toList_positionCode (g b : Nat) :
    (positionCode g b).toList = (toString g).toList ++ '.' :: (toString b).toList := by
  simp [positionCode, String.toList_append]

theorem cutAtPoint?_eq_some_iff {code before after : String} :
    cutAtPoint? code = some (before, after) ↔
      code.toList = before.toList ++ '.' :: after.toList ∧ '.' ∉ before.toList := by
  unfold cutAtPoint?
  constructor
  · intro cut
    split at cut
    next point rest found =>
      obtain ⟨rfl, rfl⟩ := Prod.mk.inj (Option.some.inj cut)
      have nonempty : code.toList.dropWhile (· ≠ '.') ≠ [] := found ▸ List.cons_ne_nil _ _
      have isPoint := List.head_dropWhile_not _ nonempty
      simp only [found, List.head_cons, decide_eq_false_iff_not, not_not] at isPoint
      subst isPoint
      simp only [String.toList_ofList]
      refine ⟨?_, fun inside => by simpa using List.mem_takeWhile_imp inside⟩
      rw [← found, List.takeWhile_append_dropWhile]
    · cases cut
  · intro cut
    have plain : ∀ c ∈ before.toList, decide (c ≠ '.') = true := by
      intro c member
      simp only [decide_eq_true_eq]
      intro same
      exact cut.2 (same ▸ member)
    rw [cut.1, List.dropWhile_append_of_pos plain, List.takeWhile_append_of_pos plain]
    simp

def SpellsPosition (code : String) (g b : Nat) : Prop :=
  ∃ before after, code.toList = before ++ '.' :: after ∧ '.' ∉ before ∧
    NaturalText before g ∧ NaturalText after b

theorem readPosition?_eq_some_iff {code : String} {g b : Nat} :
    readPosition? code = some (g, b) ↔ SpellsPosition code g b := by
  constructor
  · intro read
    obtain ⟨⟨before, after⟩, cut, read⟩ := Option.bind_eq_some_iff.1 read
    obtain ⟨n, isRead, read⟩ := Option.bind_eq_some_iff.1 read
    obtain ⟨m, isRead', read⟩ := Option.bind_eq_some_iff.1 read
    obtain ⟨rfl, rfl⟩ := Prod.mk.inj (Option.some.inj read)
    obtain ⟨parts, plain⟩ := cutAtPoint?_eq_some_iff.1 cut
    exact ⟨_, _, parts, plain, naturalOfText?_eq_some_iff.1 isRead,
      naturalOfText?_eq_some_iff.1 isRead'⟩
  · intro spells
    obtain ⟨before, after, parts, plain, group, block⟩ := spells
    have cut : cutAtPoint? code = some (String.ofList before, String.ofList after) :=
      cutAtPoint?_eq_some_iff.2 (by simpa using ⟨parts, plain⟩)
    have isRead : naturalOfText? (String.ofList before) = some g :=
      naturalOfText?_eq_some_iff.2 (by simpa using group)
    have isRead' : naturalOfText? (String.ofList after) = some b :=
      naturalOfText?_eq_some_iff.2 (by simpa using block)
    simp [readPosition?, cut, isRead, isRead']

theorem spellsPosition_positionCode (g b : Nat) : SpellsPosition (positionCode g b) g b :=
  ⟨_, _, toList_positionCode g b,
    fun point => (isDecimal_toString g).ne_of_mem point (by decide) rfl,
    .plain (isDecimal_toString g), .plain (isDecimal_toString b)⟩

theorem SpellsPosition.lowerAscii_ne {code : String} {g b : Nat}
    (spells : SpellsPosition code g b) : lowerAscii code.toList ≠ referenceCode.toList := by
  intro same
  obtain ⟨before, after, parts, -⟩ := spells
  have point : '.' ∈ lowerAscii code.toList := by
    rw [parts]
    exact List.mem_map.2 ⟨'.', by simp, by decide⟩
  rw [same] at point
  exact absurd point (by decide)

section
variable {κ : Type} [DecidableEq κ]

theorem locate?_eq_some {k : κ} {index g b : Nat} {groups : List (Group κ)}
    (found : locate? k index groups = some (g, b)) :
    ∃ group, index ≤ g ∧ groups[g - index]? = some group ∧ group.blocks[b]? = some k := by
  induction groups generalizing index with
  | nil => simp [locate?] at found
  | cons group rest ih =>
      rw [locate?] at found
      split at found
      · next block located =>
        obtain ⟨rfl, rfl⟩ := Prod.mk.inj (Option.some.inj found)
        obtain ⟨bound, eq, -⟩ := List.idxOf?_eq_some_iff.1 located
        exact ⟨group, Nat.le_refl _, by simp, List.getElem?_eq_some_iff.2 ⟨bound, eq⟩⟩
      · obtain ⟨group, bound, at_, listed⟩ := ih found
        refine ⟨group, by omega, ?_, listed⟩
        have later : g - index = (g - (index + 1)) + 1 := by omega
        rw [later, List.getElem?_cons_succ]
        exact at_

theorem locate?_isSome {k : κ} {index : Nat} {groups : List (Group κ)}
    (registered : ∃ group ∈ groups, k ∈ group.blocks) : (locate? k index groups).isSome := by
  induction groups generalizing index with
  | nil => simp at registered
  | cons group rest ih =>
      rw [locate?]
      split
      · rfl
      · next absent =>
        apply ih
        obtain ⟨other, member, listed⟩ := registered
        rcases List.mem_cons.1 member with rfl | member
        · exact absurd listed (List.idxOf?_eq_none_iff.1 absent)
        · exact ⟨other, member, listed⟩

end

variable {κ : Type} [Vocabulary κ]

def Registered (registry : Registry κ) (k : κ) : Prop := ∃ group ∈ registry.groups, k ∈ group.blocks

def OwnsReferences (registry : Registry κ) : Prop :=
  ∀ k, registry.Registered k → (describe k).category = .reference → k = registry.builtin .reference

theorem category_builtin_reference (registry : Registry κ) :
    (describe (registry.builtin .reference)).category = .reference := by
  rw [registry.describe_builtin]
  rfl

theorem resolve?_referenceCode (registry : Registry κ) :
    registry.resolve? referenceCode = some (registry.builtin .reference) := by
  have word : lowerAscii referenceCode.toList = referenceCode.toList := by decide
  rw [resolve?, if_pos word]

theorem at?_eq_some {registry : Registry κ} {g b : Nat} {k : κ} :
    registry.at? g b = some k ↔
      ∃ group, registry.groups[g]? = some group ∧ group.blocks[b]? = some k :=
  Option.bind_eq_some_iff

theorem resolve?_of_spells {registry : Registry κ} {code : String} {g b : Nat}
    (spells : SpellsPosition code g b) : registry.resolve? code = registry.at? g b := by
  rw [resolve?, if_neg spells.lowerAscii_ne, readPosition?_eq_some_iff.2 spells]
  rfl

theorem resolve?_positionCode (registry : Registry κ) (g b : Nat) :
    registry.resolve? (positionCode g b) = registry.at? g b :=
  resolve?_of_spells (spellsPosition_positionCode g b)

theorem resolve?_eq_some_iff {registry : Registry κ} {code : String} {k : κ} :
    registry.resolve? code = some k ↔
      lowerAscii code.toList = referenceCode.toList ∧ k = registry.builtin .reference ∨
        ∃ g b, SpellsPosition code g b ∧ registry.at? g b = some k := by
  constructor
  · intro resolves
    unfold resolve? at resolves
    split at resolves
    next word => exact .inl ⟨word, (Option.some.inj resolves).symm⟩
    · obtain ⟨⟨g, b⟩, read, found⟩ := Option.bind_eq_some_iff.1 resolves
      exact .inr ⟨g, b, readPosition?_eq_some_iff.1 read, found⟩
  · intro spelled
    rcases spelled with ⟨word, rfl⟩ | ⟨g, b, spells, found⟩
    · rw [resolve?, if_pos word]
    · rw [resolve?_of_spells spells, found]

theorem registered_of_at? {registry : Registry κ} {g b : Nat} {k : κ}
    (found : registry.at? g b = some k) : registry.Registered k := by
  obtain ⟨group, row, column⟩ := at?_eq_some.1 found
  exact ⟨group, List.mem_of_getElem? row, List.mem_of_getElem? column⟩

theorem resolve?_cases {registry : Registry κ} {code : String} {k : κ}
    (resolves : registry.resolve? code = some k) :
    k = registry.builtin .reference ∨ registry.Registered k := by
  rcases resolve?_eq_some_iff.1 resolves with ⟨-, own⟩ | ⟨g, b, -, found⟩
  · exact .inl own
  · exact .inr (registered_of_at? found)

section
variable [DecidableEq κ]

theorem resolve?_of_codeOf? {registry : Registry κ} {k : κ} {code : String}
    (own : (describe k).category = .reference → k = registry.builtin .reference)
    (written : registry.codeOf? k = some code) : registry.resolve? code = some k := by
  unfold codeOf? at written
  split at written
  · next reference =>
    obtain rfl := Option.some.inj written
    rw [resolve?_referenceCode, ← own reference]
  · obtain ⟨⟨g, b⟩, found, rfl⟩ := Option.map_eq_some_iff.1 written
    obtain ⟨group, -, at_, listed⟩ := locate?_eq_some found
    rw [resolve?_positionCode, at?]
    simp only [Nat.sub_zero] at at_
    simp [at_, listed]

theorem codeOf?_isSome_iff {registry : Registry κ} {k : κ}
    (plain : (describe k).category ≠ .reference) :
    (∃ code, registry.codeOf? k = some code) ↔ registry.Registered k := by
  rw [codeOf?, if_neg plain]
  constructor
  · rintro ⟨code, written⟩
    obtain ⟨⟨g, b⟩, found, -⟩ := Option.map_eq_some_iff.1 written
    obtain ⟨group, -, at_, listed⟩ := locate?_eq_some found
    exact ⟨group, List.mem_of_getElem? at_, List.mem_of_getElem? listed⟩
  · intro registered
    obtain ⟨position, found⟩ := Option.isSome_iff_exists.1 (locate?_isSome registered)
    exact ⟨_, by rw [found]; rfl⟩

theorem codeOf?_of_resolve? {registry : Registry κ} {code : String} {k : κ}
    (resolves : registry.resolve? code = some k) : ∃ text, registry.codeOf? k = some text := by
  by_cases reference : (describe k).category = .reference
  · exact ⟨referenceCode, if_pos reference⟩
  · rcases resolve?_cases resolves with rfl | registered
    · exact absurd registry.category_builtin_reference reference
    · exact (codeOf?_isSome_iff reference).2 registered

end

end Registry

end BlockScript
