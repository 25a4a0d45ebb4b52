import BlockScript.Proofs.Number.Rounding
import BlockScript.Proofs.Sort.Pivots
import BlockScript.Value.Order

/-!
# The order of values

Within a family the comparison is a total preorder but for one thing: integers are compared exactly,
though two of them may round to one real that is then equal to both (`Cycle`).  Rounding keeps the
order, so no other three values disagree, and integers within `2 ^ 53` of zero are rounded to
different reals.  A list of one family that holds no cycle is sorted (`sort_orders`).
-/

namespace BlockScript.Value

/-- A greater integer, a real and a lesser integer, of which both round to the real. -/
inductive Cycle : Value → Value → Value → Prop where
  | rounded {m n : Int64} {r : Binary64} (less : n.toInt < m.toInt)
      (greater : Binary64.ofInt m.toInt = r) (lesser : Binary64.ofInt n.toInt = r) :
      Cycle (integer m) (real r) (integer n)

def Cyclic (items : List Value) : Prop := ∃ x ∈ items, ∃ y ∈ items, ∃ z ∈ items, Cycle x y z

theorem compare_self (x : Value) : compare x x = .eq := by
  cases x <;> exact Std.ReflOrd.compare_self

theorem compare_swap (x y : Value) : compare y x = (compare x y).swap := by
  cases x <;> cases y <;> exact Std.OrientedOrd.eq_swap

theorem not_precedes_iff {x y : Value} : precedes y x = false ↔ compare x y ≠ .gt := by
  rw [precedes, compare_swap x y]
  cases compare x y <;> decide

/-! ## Numbers -/

theorem compare_integers_gt {m n : Int64} :
    compare (integer m) (integer n) = .gt ↔ n.toInt < m.toInt := Int.compare_eq_gt

theorem compare_reals_gt {x y : Value} (hx : x.family? = some .number)
    (hy : y.family? = some .number) (mixed : ∀ m n, x = integer m → y ≠ integer n) :
    compare x y = .gt ↔ y.asNumber.rank < x.asNumber.rank := by
  cases x with
  | real r => cases y <;> exact Int.compare_eq_gt
  | integer m =>
      cases y with
      | real r => exact Int.compare_eq_gt
      | integer n => exact absurd rfl (mixed m n rfl)
      | boolean | text | list => cases hy
  | boolean | text | list => cases hx

theorem rank_le_of_not_gt {x y : Value} (hx : x.family? = some .number)
    (hy : y.family? = some .number) (le : compare x y ≠ .gt) :
    x.asNumber.rank ≤ y.asNumber.rank := by
  by_cases integers : ∃ m n, x = integer m ∧ y = integer n
  · obtain ⟨m, n, rfl, rfl⟩ := integers
    rw [Ne, compare_integers_gt, Int.not_lt] at le
    exact Binary64.rank_ofInt_mono le
  · rw [Ne, compare_reals_gt hx hy fun m n hm hn => integers ⟨m, n, hm, hn⟩, Int.not_lt] at le
    exact le

theorem compare_integers_trans_iff {m n : Int64} {y : Value} (hy : y.family? = some .number)
    (first : compare (integer m) y ≠ .gt) (second : compare y (integer n) ≠ .gt) :
    compare (integer m) (integer n) = .gt ↔ Cycle (integer m) y (integer n) := by
  rw [compare_integers_gt]
  cases y with
  | real r =>
      have below := rank_le_of_not_gt (x := integer m) rfl hy first
      have above := rank_le_of_not_gt (y := integer n) hy rfl second
      rw [asNumber, asNumber] at below above
      constructor
      · intro less
        -- Rounding turns n < m into ofInt n ≤ ofInt m, and r lies between the two the other way.
        have between := Binary64.rank_ofInt_mono less.le
        exact .rounded less (Binary64.rank_injective (by omega))
          (Binary64.rank_injective (by omega))
      · rintro ⟨less, -, -⟩
        exact less
  | integer k =>
      rw [Ne, compare_integers_gt] at first second
      exact iff_of_false (by omega) fun cycle => by cases cycle
  | boolean | text | list => cases hy

theorem not_gt_trans {α : Type} [Ord α] [Std.TransOrd α] {a b c : α}
    (first : Ord.compare a b ≠ .gt) (second : Ord.compare b c ≠ .gt) : Ord.compare a c ≠ .gt := by
  rw [Ne, Ordering.ne_gt_iff_isLE] at *
  exact Std.TransOrd.isLE_trans first second

/-- Only a cycle keeps "not greater" from being transitive. -/
theorem compare_trans_iff {x y z : Value} {family : Family} (hx : x.family? = some family)
    (hy : y.family? = some family) (hz : z.family? = some family) (first : compare x y ≠ .gt)
    (second : compare y z ≠ .gt) : compare x z = .gt ↔ Cycle x y z := by
  cases family with
  | number =>
      by_cases integers : ∃ m n, x = integer m ∧ z = integer n
      · obtain ⟨m, n, rfl, rfl⟩ := integers
        exact compare_integers_trans_iff hy first second
      · have below := rank_le_of_not_gt hx hy first
        have above := rank_le_of_not_gt hy hz second
        rw [compare_reals_gt hx hz fun m n hm hn => integers ⟨m, n, hm, hn⟩]
        refine iff_of_false (by omega) ?_
        rintro ⟨-, -, -⟩
        exact integers ⟨_, _, rfl, rfl⟩
  | text =>
      obtain ⟨s, rfl⟩ : ∃ s, x = text s := by cases x <;> first | exact ⟨_, rfl⟩ | cases hx
      obtain ⟨t, rfl⟩ : ∃ t, y = text t := by cases y <;> first | exact ⟨_, rfl⟩ | cases hy
      obtain ⟨u, rfl⟩ : ∃ u, z = text u := by cases z <;> first | exact ⟨_, rfl⟩ | cases hz
      exact iff_of_false (not_gt_trans first second) fun cycle => by cases cycle
  | boolean =>
      obtain ⟨a, rfl⟩ : ∃ a, x = boolean a := by cases x <;> first | exact ⟨_, rfl⟩ | cases hx
      obtain ⟨b, rfl⟩ : ∃ b, y = boolean b := by cases y <;> first | exact ⟨_, rfl⟩ | cases hy
      obtain ⟨c, rfl⟩ : ∃ c, z = boolean c := by cases z <;> first | exact ⟨_, rfl⟩ | cases hz
      exact iff_of_false (not_gt_trans first second) fun cycle => by cases cycle

theorem not_cyclic_of_small {items : List Value}
    (small : ∀ n, integer n ∈ items → n.toInt.natAbs ≤ 2 ^ 53) : ¬ Cyclic items := by
  rintro ⟨x, hx, y, -, z, hz, cycle⟩
  obtain ⟨less, greater, lesser⟩ := cycle
  have apart := Binary64.rank_ofInt_strict less (small _ hz) (small _ hx)
  rw [greater, lesser] at apart
  exact Int.lt_irrefl _ apart

/-! ## Sorting -/

theorem consistent_precedes {items : List Value} {family : Family}
    (one : ∀ x ∈ items, x.family? = some family)
    (acyclic : ¬ Cyclic items) : Sort.Consistent precedes items where
  asymm {a b} _ _ less := by
    rw [precedes, Ordering.isLT_iff_eq_lt] at less
    rw [not_precedes_iff, less]
    decide
  trans {a b c} ha hb hc first second := by
    rw [not_precedes_iff] at *
    rw [Ne, compare_trans_iff (one a ha) (one b hb) (one c hc) first second]
    exact fun cycle => acyclic ⟨a, ha, b, hb, c, hc, cycle⟩

theorem sort_eq_stable {items : List Value} {family : Family}
    (one : ∀ x ∈ items, x.family? = some family) :
    sort items = .ok (Sort.stable precedes items) := by
  cases items with
  | nil => rfl
  | cons first rest =>
      obtain ⟨here, later⟩ := List.forall_mem_cons.1 one
      simp only [sort, here]
      exact if_pos (List.all_eq_true.2 fun x mem => decide_eq_true (later x mem))

theorem perm_of_sort {items sorted : List Value} {family : Family}
    (one : ∀ x ∈ items, x.family? = some family) (done : sort items = .ok (some sorted)) :
    sorted.Perm items := by
  rw [sort_eq_stable one] at done
  exact Sort.stable_permutes precedes items sorted (Except.ok.inj done)

theorem exists_sorted {items : List Value} {family : Family}
    (one : ∀ x ∈ items, x.family? = some family) (acyclic : ¬ Cyclic items) :
    ∃ sorted, sort items = .ok (some sorted) ∧ sorted.Pairwise fun x y => compare x y ≠ .gt := by
  obtain ⟨sorted, isSorted, inOrder⟩ :=
    Sort.stable_sorts precedes items (consistent_precedes one acyclic)
  exact ⟨sorted, by rw [sort_eq_stable one, isSorted], inOrder.imp not_precedes_iff.1⟩

theorem exists_sort_error {items : List Value}
    (several : ¬ ∃ family, ∀ x ∈ items, x.family? = some family) : ∃ e, sort items = .error e := by
  cases items with
  | nil => exact absurd ⟨.number, List.forall_mem_nil _⟩ several
  | cons first rest =>
      cases here : first.family? with
      | none => exact ⟨.startsWithList, by simp only [sort, here]⟩
      | some family =>
          refine ⟨.mixedFamilies, ?_⟩
          simp only [sort, here]
          refine if_neg fun all => several ⟨family, List.forall_mem_cons.2 ⟨here, fun x mem => ?_⟩⟩
          exact of_decide_eq_true (List.all_eq_true.1 all x mem)

def Mixed (items : List Value) : Prop :=
  (∃ inner, list inner ∈ items) ∨ ∃ x ∈ items, ∃ y ∈ items, x.family? ≠ y.family?

theorem not_mixed_iff {items : List Value} :
    ¬ Mixed items ↔ ∃ family, ∀ x ∈ items, x.family? = some family := by
  constructor
  · intro plain
    cases items with
    | nil => exact ⟨.number, List.forall_mem_nil _⟩
    | cons first rest =>
        cases here : first.family? with
        | none =>
            refine absurd (.inl ?_) plain
            cases first with
            | list inner => exact ⟨inner, List.mem_cons_self⟩
            | real | integer | boolean | text => cases here
        | some family =>
            refine ⟨family, fun x mem => ?_⟩
            by_contra other
            have differ : x.family? ≠ first.family? := fun same => other (same.trans here)
            exact plain (.inr ⟨x, mem, first, List.mem_cons_self, differ⟩)
  · rintro ⟨family, one⟩ (⟨inner, mem⟩ | ⟨x, hx, y, hy, differ⟩)
    · cases one _ mem
    · exact differ ((one x hx).trans (one y hy).symm)

/-- On a list of one family the comparison is a total preorder up to cycles, for which integers
beyond `2 ^ 53` are needed.  Sorting keeps the items, and if there is no cycle among them it
succeeds and leaves no item before a lesser one. -/
theorem sort_orders {items : List Value} {family : Family}
    (one : ∀ x ∈ items, x.family? = some family) :
    (∀ x ∈ items, compare x x = .eq) ∧
    (∀ x ∈ items, ∀ y ∈ items, compare y x = (compare x y).swap) ∧
    (∀ x ∈ items, ∀ y ∈ items, ∀ z ∈ items, compare x y ≠ .gt → compare y z ≠ .gt →
      (compare x z = .gt ↔ Cycle x y z)) ∧
    ((∀ n, integer n ∈ items → n.toInt.natAbs ≤ 2 ^ 53) → ¬ Cyclic items) ∧
    (∀ sorted, sort items = .ok (some sorted) → sorted.Perm items) ∧
    (¬ Cyclic items →
      ∃ sorted, sort items = .ok (some sorted) ∧ sorted.Pairwise fun x y => compare x y ≠ .gt) := by
  refine ⟨fun x _ => compare_self x, fun x _ y _ => compare_swap x y, ?_, ?_, ?_, ?_⟩
  · exact fun x hx y hy z hz => compare_trans_iff (one x hx) (one y hy) (one z hz)
  · exact not_cyclic_of_small
  · exact fun sorted => perm_of_sort one
  · exact exists_sorted one

/-- Small integers and reals are sorted.  The real `2 ^ 53` is equal to the integer of that value
and to its successor, and the two keep the wrong order. -/
theorem sort_orders_mixed :
    (∃ sorted, sort [real (Binary64.ofRatio false 5 2), integer 3, integer 1] = .ok (some sorted) ∧
      sorted.Pairwise fun x y => compare x y ≠ .gt) ∧
    let items := [integer 9007199254740993, real (Binary64.ofInt 9007199254740992),
      integer 9007199254740992]
    sort items = .ok (some items) ∧
      compare (integer 9007199254740993) (integer 9007199254740992) = .gt := by
  constructor
  · have one : ∀ x ∈ [real (Binary64.ofRatio false 5 2), integer 3, integer 1],
        x.family? = some .number := by decide
    obtain ⟨-, -, -, small, -, sorts⟩ := sort_orders one
    exact sorts (small (by simp))
  · intro items
    have cycle : Cycle (integer 9007199254740993) (real (Binary64.ofInt 9007199254740992))
        (integer 9007199254740992) := .rounded (by decide) (by decide +kernel) (by decide +kernel)
    have one : ∀ x ∈ items, x.family? = some .number := by decide
    obtain ⟨-, -, trans, -, -, -⟩ := sort_orders one
    refine ⟨by rfl, (trans _ ?_ _ ?_ _ ?_ ?_ ?_).2 cycle⟩
    · simp [items]
    · simp [items]
    · simp [items]
    · decide +kernel
    · decide +kernel

end BlockScript.Value
