import BlockScript.Catalog.Standard
import BlockScript.Proofs.Document.Codes
import Mathlib.Data.List.Forall2

/-!
# Positions and their codes

`resolve?` accepts the word for variable references in any case (`isReferenceWord_iff`) and the codes
of positions in the registry.  In the other direction a kind has the code of its first position
(`locate?_first`), written without signs and leading zeros.  `places` lists the positions
of a registry in order, and the palette shows each of them (`palette_eq`).  `codes_correspond` puts
this together for registries whose reference kinds are their own.
-/

namespace BlockScript

/-! ## Letters in any case -/

theorem toNat_toLower (c : Char) :
    c.toLower.toNat = if 65 ≤ c.toNat ∧ c.toNat ≤ 90 then c.toNat + 32 else c.toNat := by
  unfold Char.toLower
  simp only [ge_iff_le, UInt32.le_iff_toNat_le]
  change (dite (65 ≤ c.toNat ∧ c.toNat ≤ 90) _ _ : Char).toNat = _
  split
  next upper =>
    change (c.toNat + 32) % 2 ^ 32 = c.toNat + 32
    omega
  · rfl

theorem toLower_eq_iff {letter : Char} (small : 'a' ≤ letter ∧ letter ≤ 'z') (c : Char) :
    c.toLower = letter ↔ c = letter ∨ c = letter.toUpper := by
  have bounds : 97 ≤ letter.toNat ∧ letter.toNat ≤ 122 := by
    simpa [Char.le_def, UInt32.le_iff_toNat_le] using small
  have capital : letter.toUpper.toNat = letter.toNat - 32 := by
    unfold Char.toUpper
    rw [dif_pos (by simpa [Char.le_def] using small)]
    simp
    omega
  simp only [← Char.toNat_inj, toNat_toLower, capital]
  split <;> omega

theorem lowerAscii_eq_iff {letters : List Char}
    (small : ∀ letter ∈ letters, 'a' ≤ letter ∧ letter ≤ 'z') (cs : List Char) :
    lowerAscii cs = letters ↔
      List.Forall₂ (fun c letter => c = letter ∨ c = letter.toUpper) cs letters := by
  induction letters generalizing cs with
  | nil => simp [lowerAscii]
  | cons letter letters ih =>
      obtain ⟨first, later⟩ := List.forall_mem_cons.1 small
      cases cs with
      | nil => simp [lowerAscii]
      | cons c cs =>
          rw [List.forall₂_cons, ← ih later, ← toLower_eq_iff first]
          simp [lowerAscii]

namespace Registry

/-! ## Reading codes -/

def IsReferenceWord (code : String) : Prop :=
  List.Forall₂ (fun c letter => c = letter ∨ c = letter.toUpper) code.toList referenceCode.toList

theorem isReferenceWord_iff {code : String} :
    IsReferenceWord code ↔ lowerAscii code.toList = referenceCode.toList :=
  (lowerAscii_eq_iff (by simp [referenceCode]) _).symm

variable {κ : Type} [Vocabulary κ]

def Addressable (registry : Registry κ) : Prop :=
  registry.groups.length ≤ UInt64.size ∧
    ∀ group ∈ registry.groups, group.blocks.length ≤ UInt64.size

theorem lt_size_of_at? {registry : Registry κ} {g b : Nat} {k : κ}
    (found : registry.at? g b = some k) (addressable : registry.Addressable) :
    g < UInt64.size ∧ b < UInt64.size := by
  obtain ⟨group, row, column⟩ := at?_eq_some.1 found
  have inRow := (List.getElem?_eq_some_iff.1 row).1
  have inColumn := (List.getElem?_eq_some_iff.1 column).1
  have small := addressable.2 group (List.mem_of_getElem? row)
  exact ⟨Nat.lt_of_lt_of_le inRow addressable.1, Nat.lt_of_lt_of_le inColumn small⟩

/-! ## Writing codes -/

def Precedes (p q : Nat × Nat) : Prop := p.1 < q.1 ∨ p.1 = q.1 ∧ p.2 < q.2

def SpellsPlainly (code : String) (g b : Nat) : Prop :=
  ∃ before after, code.toList = before ++ '.' :: after ∧
    IsDecimal before g ∧ (before.head? = some '0' → before = ['0']) ∧
    IsDecimal after b ∧ (after.head? = some '0' → after = ['0'])

theorem spellsPlainly_positionCode (g b : Nat) : SpellsPlainly (positionCode g b) g b :=
  ⟨_, _, toList_positionCode g b, isDecimal_toString g, toString_of_head_zero,
    isDecimal_toString b, toString_of_head_zero⟩

section
variable [DecidableEq κ]

omit [Vocabulary κ] in
theorem locate?_first {k : κ} {index g b : Nat} {groups : List (Group κ)}
    (found : locate? k index groups = some (g, b)) {g' b' : Nat} {group : Group κ}
    (row : groups[g']? = some group) (column : group.blocks[b']? = some k) :
    ¬ Precedes (index + g', b') (g, b) := by
  induction groups generalizing index g' with
  | nil => simp at row
  | cons first rest ih =>
      unfold locate? at found
      split at found
      next block located =>
        obtain ⟨rfl, rfl⟩ := Prod.mk.inj (Option.some.inj found)
        intro precedes
        rcases precedes with before | ⟨same, before⟩
        · exact absurd before (Nat.not_lt_of_le (Nat.le_add_right _ _))
        · obtain rfl : g' = 0 := by simpa using same
          obtain rfl : first = group := by simpa using row
          obtain ⟨_, _, least⟩ := List.idxOf?_eq_some_iff.1 located
          obtain ⟨bound, here⟩ := List.getElem?_eq_some_iff.1 column
          exact least b' before here
      next absent =>
        cases g' with
        | zero =>
            obtain rfl : first = group := by simpa using row
            exact absurd (List.mem_of_getElem? column) (List.idxOf?_eq_none_iff.1 absent)
        | succ g' =>
            have later := ih found (by simpa using row)
            rwa [Nat.add_assoc, Nat.add_comm 1] at later

theorem locate?_at? {registry : Registry κ} {k : κ} {g b : Nat}
    (found : locate? k 0 registry.groups = some (g, b)) :
    registry.at? g b = some k ∧
      ∀ g' b', registry.at? g' b' = some k → ¬ Precedes (g', b') (g, b) := by
  constructor
  · obtain ⟨group, -, row, column⟩ := locate?_eq_some found
    exact at?_eq_some.2 ⟨group, row, column⟩
  · intro g' b' other
    obtain ⟨group, row, column⟩ := at?_eq_some.1 other
    have first := locate?_first found row column
    rwa [Nat.zero_add] at first

theorem codeOf?_position {registry : Registry κ} {k : κ}
    (plain : (describe k).category ≠ .reference) (registered : registry.Registered k) :
    ∃ g b, registry.codeOf? k = some (positionCode g b) ∧ registry.at? g b = some k ∧
      ∀ g' b', registry.at? g' b' = some k → ¬ Precedes (g', b') (g, b) := by
  obtain ⟨⟨g, b⟩, found⟩ := Option.isSome_iff_exists.1 (locate?_isSome registered)
  refine ⟨g, b, ?_, locate?_at? found⟩
  rw [codeOf?, if_neg plain, found]
  rfl

end

/-! ## The palette -/

def places (registry : Registry κ) : List ((Nat × Nat) × κ) :=
  registry.groups.zipIdx.flatMap fun (group, g) =>
    group.blocks.zipIdx.map fun (k, b) => ((g, b), k)

theorem palette_eq (registry : Registry κ) :
    registry.palette =
      registry.places.map fun place => (paletteCode place.2 place.1.1 place.1.2, place.2) := by
  simp only [palette, places, List.map_flatMap, List.map_map]
  rfl

theorem mem_places {registry : Registry κ} {g b : Nat} {k : κ} :
    ((g, b), k) ∈ registry.places ↔ registry.at? g b = some k := by
  rw [at?_eq_some]
  simp only [places, List.mem_flatMap, List.mem_map, Prod.exists, Prod.mk.injEq]
  constructor
  · intro listed
    obtain ⟨group, i, row, k', j, column, ⟨rfl, rfl⟩, rfl⟩ := listed
    exact ⟨group, List.mk_mem_zipIdx_iff_getElem?.1 row, List.mk_mem_zipIdx_iff_getElem?.1 column⟩
  · intro found
    obtain ⟨group, row, column⟩ := found
    exact ⟨group, g, List.mk_mem_zipIdx_iff_getElem?.2 row, k, b,
      List.mk_mem_zipIdx_iff_getElem?.2 column, ⟨rfl, rfl⟩, rfl⟩

theorem pairwise_zipIdx {α : Type} (xs : List α) : xs.zipIdx.Pairwise fun x y => x.2 < y.2 := by
  have counted : (xs.zipIdx.map Prod.snd).Pairwise (· < ·) := by
    rw [List.zipIdx_map_snd]
    exact List.pairwise_lt_range'
  exact List.pairwise_map.1 counted

theorem pairwise_places (registry : Registry κ) :
    registry.places.Pairwise fun x y => Precedes x.1 y.1 := by
  rw [places, List.pairwise_flatMap]
  constructor
  · intro row _
    rw [List.pairwise_map]
    exact (pairwise_zipIdx _).imp fun before => .inr ⟨rfl, before⟩
  · refine (pairwise_zipIdx _).imp fun before => ?_
    intro x inRow y inRow'
    obtain ⟨_, _, rfl⟩ := List.mem_map.1 inRow
    obtain ⟨_, _, rfl⟩ := List.mem_map.1 inRow'
    exact .inl before

theorem resolve?_paletteCode {registry : Registry κ} (own : registry.OwnsReferences) {g b : Nat}
    {k : κ} (found : registry.at? g b = some k) :
    registry.resolve? (paletteCode k g b) = some k := by
  unfold paletteCode
  split
  next reference =>
    rw [resolve?_referenceCode, own k (registered_of_at? found) reference]
  · rw [resolve?_positionCode, found]

/-! ## Both directions -/

section
variable [DecidableEq κ]

structure Corresponds (registry : Registry κ) : Prop where
  resolves_iff : ∀ code k, registry.resolve? code = some k ↔
    IsReferenceWord code ∧ k = registry.builtin .reference ∨
      ∃ g b, SpellsPosition code g b ∧
        (registry.Addressable → g < UInt64.size ∧ b < UInt64.size) ∧ registry.at? g b = some k
  coded_iff : ∀ k, (∃ code, registry.codeOf? k = some code) ↔
    (describe k).category = .reference ∨ registry.Registered k
  /-- A kind comes back from its code, unless it is a foreign kind of variable references. -/
  returns : ∀ k code, registry.codeOf? k = some code →
    (registry.resolve? code = some k ↔
      ((describe k).category = .reference → k = registry.builtin .reference))
  /-- The palette goes through the positions in order, each with its kind and its own code. -/
  listed : ∃ places : List ((Nat × Nat) × κ),
    places.Pairwise (fun x y => Precedes x.1 y.1) ∧
    (∀ g b k, ((g, b), k) ∈ places ↔ registry.at? g b = some k) ∧
    List.Forall₂ (fun place entry => entry.2 = place.2 ∧
      if (describe place.2).category = .reference then entry.1 = referenceCode
      else SpellsPlainly entry.1 place.1.1 place.1.2) places registry.palette ∧
    ∀ entry ∈ registry.palette, registry.resolve? entry.1 = some entry.2
  least : ∀ code k, registry.resolve? code = some k →
    if (describe k).category = .reference then registry.codeOf? k = some referenceCode
    else ∃ g b text, registry.codeOf? k = some text ∧ SpellsPlainly text g b ∧
      registry.at? g b = some k ∧
      ∀ g' b', registry.at? g' b' = some k → ¬ Precedes (g', b') (g, b)

/-- In a registry that owns its reference kinds, codes and kinds lead to each other. -/
theorem codes_correspond (registry : Registry κ) (own : registry.OwnsReferences) :
    registry.Corresponds where
  resolves_iff code k := by
    rw [resolve?_eq_some_iff, ← isReferenceWord_iff]
    refine or_congr_right (exists₂_congr fun g b => and_congr_right fun _ => ?_)
    exact ⟨fun found => ⟨lt_size_of_at? found, found⟩, And.right⟩
  coded_iff k := by
    by_cases reference : (describe k).category = .reference
    · exact iff_of_true ⟨referenceCode, if_pos reference⟩ (.inl reference)
    · rw [codeOf?_isSome_iff reference]
      exact ⟨.inr, (·.resolve_left reference)⟩
  returns k code written := by
    refine ⟨fun resolves reference => ?_, fun isOwn => resolve?_of_codeOf? isOwn written⟩
    obtain rfl : referenceCode = code := by simpa [codeOf?, reference] using written
    rw [resolve?_referenceCode] at resolves
    exact (Option.some.inj resolves).symm
  listed := by
    refine ⟨registry.places, pairwise_places registry, fun g b k => mem_places, ?_, ?_⟩
    · rw [palette_eq, List.forall₂_map_right_iff]
      refine List.forall₂_same.2 fun place _ => ⟨rfl, ?_⟩
      split
      next reference => exact if_pos reference
      next plain =>
        rw [paletteCode, if_neg plain]
        exact spellsPlainly_positionCode place.1.1 place.1.2
    · intro entry member
      rw [palette_eq] at member
      obtain ⟨⟨⟨g, b⟩, k⟩, isPlace, rfl⟩ := List.mem_map.1 member
      exact resolve?_paletteCode own (mem_places.1 isPlace)
  least code k resolves := by
    split
    next reference => exact if_pos reference
    next plain =>
      obtain ⟨text, written⟩ := codeOf?_of_resolve? resolves
      obtain ⟨g, b, isCode, first⟩ :=
        codeOf?_position plain ((codeOf?_isSome_iff plain).1 ⟨text, written⟩)
      exact ⟨g, b, _, isCode, spellsPlainly_positionCode g b, first⟩

end

section
open Catalog

def repeating : Registry Block :=
  { Catalog.registry with groups := [Catalog.control, storing, Catalog.control] }

theorem codes_correspond_repeating :
    repeating.OwnsReferences ∧
    repeating.resolve? "+02.0" = some (.builtin (.control .ifThen)) ∧
    repeating.codeOf? (.builtin (.control .ifThen)) = some "0.0" ∧
    repeating.resolve? "0.0" = some (.builtin (.control .ifThen)) ∧
    repeating.resolve? "Variable" = some (.builtin .reference) := by
  have own : repeating.OwnsReferences := by
    intro k registered reference
    obtain ⟨group, isGroup, member⟩ := registered
    have all : ∀ group ∈ repeating.groups, ∀ k ∈ group.blocks,
        (describe k).category = .reference → k = .builtin .reference := by decide
    exact all group isGroup k member reference
  have corresponds := codes_correspond repeating own
  have two : IsDecimal "02".toList 2 := ⟨by simp, by simp, by decide⟩
  have zero : IsDecimal "0".toList 0 := ⟨by simp, by simp, by decide⟩
  have written : repeating.codeOf? (.builtin (.control .ifThen)) = some "0.0" := by decide
  refine ⟨own, ?_, written, ?_, ?_⟩
  · rw [corresponds.resolves_iff]
    exact .inr ⟨2, 0, ⟨_, _, rfl, by decide, .plus two, .plain zero⟩, fun _ => by decide, rfl⟩
  · exact (corresponds.returns _ _ written).2 nofun
  · rw [corresponds.resolves_iff]
    exact .inl ⟨by simp [IsReferenceWord, referenceCode], rfl⟩

end

end Registry

end BlockScript
