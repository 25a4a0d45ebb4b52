import BlockScript.Number.Rounding
import Mathlib.Algebra.Group.Nat.Defs
import Mathlib.Data.Nat.Log

/-!
# Rounding keeps the order

The real that an integer rounds to does not decrease as the integer grows (`rank_ofInt_mono`).
Integers with equally many binary digits are rounded at the same digit; more digits mean a greater
exponent, and a significand that is rounded up to the next power of two reaches that exponent but
does not pass it.
-/

namespace BlockScript

/-! ## Nearest quotients -/

theorem div_le_roundDiv (num den : Nat) : num / den ≤ roundDiv num den := by
  simp only [roundDiv]
  split
  · exact Nat.le_refl _
  split <;> omega

theorem roundDiv_le (num den : Nat) : roundDiv num den ≤ num / den + 1 := by
  simp only [roundDiv]
  split
  · omega
  split <;> omega

theorem roundDiv_mono {num more : Nat} (den : Nat) (le : num ≤ more) :
    roundDiv num den ≤ roundDiv more den := by
  rcases (Nat.div_le_div_right (c := den) le).lt_or_eq with less | same
  · exact (roundDiv_le num den).trans (less.trans_le (div_le_roundDiv more den))
  · have rest : num % den ≤ more % den := by
      have first := Nat.div_add_mod num den
      have second := Nat.div_add_mod more den
      rw [same] at first
      omega
    simp only [roundDiv, same]
    split_ifs <;> omega

theorem roundDiv_one (num : Nat) : roundDiv num 1 = num := by
  simp only [roundDiv, Nat.mod_one, Nat.div_one]
  exact if_pos Nat.one_pos

theorem floorLog2_one {n : Nat} (positive : n ≠ 0) : floorLog2 n 1 = n.log2 := by
  have one : Nat.log2 1 = 0 := by decide
  have below : 2 ^ n.log2 ≤ n := Nat.log2_self_le positive
  simp only [floorLog2, one, scaledBy]
  split_ifs <;> simp_all

namespace Binary64

/-! ## Signs and magnitudes -/

section
variable {magnitude : Nat} (small : magnitude < signThreshold)
include small

theorem toNat_bits_ofMagnitude (negative : Bool) :
    (ofMagnitude negative magnitude).bits.toNat =
      (if negative then signThreshold else 0) + magnitude := by
  have size : (if negative then signThreshold else 0) + magnitude < UInt64.size := by
    rw [signThreshold, Nat.pow_eq] at *
    split <;> (rw [UInt64.size]; omega)
  rw [ofMagnitude, Nat.mod_eq_of_lt small, UInt64.toNat_ofNat_of_lt' size]

theorem negative_ofMagnitude (negative : Bool) :
    (ofMagnitude negative magnitude).negative = negative := by
  rw [Binary64.negative, toNat_bits_ofMagnitude small]
  cases negative <;> simp [small]

theorem magnitude_ofMagnitude (negative : Bool) :
    (ofMagnitude negative magnitude).magnitude = magnitude := by
  rw [Binary64.magnitude, toNat_bits_ofMagnitude small]
  cases negative <;> simp [Nat.mod_eq_of_lt small]

theorem rank_ofMagnitude (negative : Bool) :
    (ofMagnitude negative magnitude).rank =
      if negative then -(magnitude : Int) - 1 else magnitude := by
  rw [rank, negative_ofMagnitude small, magnitude_ofMagnitude small]

end

theorem rank_injective {x y : Binary64} (same : x.rank = y.rank) : x = y := by
  have parts (z : Binary64) :
      z.bits.toNat = (if z.negative then signThreshold else 0) + z.magnitude := by
    have below : z.bits.toNat < 2 * signThreshold := z.bits.toNat_lt
    rw [negative, magnitude]
    by_cases high : signThreshold ≤ z.bits.toNat
    · rw [decide_eq_true high, if_pos rfl, Nat.mod_eq_sub_mod high, Nat.mod_eq_of_lt (by omega)]
      omega
    · rw [decide_eq_false high, if_neg Bool.false_ne_true, Nat.zero_add,
        Nat.mod_eq_of_lt (Nat.lt_of_not_le high)]
  have bits : x.bits.toNat = y.bits.toNat := by
    rw [parts x, parts y]
    simp only [rank] at same
    split_ifs at same ⊢ <;> omega
  obtain ⟨x⟩ := x
  obtain ⟨y⟩ := y
  exact congrArg mk (UInt64.toNat_inj.1 bits)

/-! ## Integers -/

def roundedSignificand (n : Nat) : Nat :=
  if n.log2 ≤ 52 then roundDiv (n * 2 ^ (52 - n.log2)) 1 else roundDiv n (2 ^ (n.log2 - 52))

def naturalMagnitude (n : Nat) : Nat :=
  if n = 0 then 0
  else min ((n.log2 + 1022) * fractionCount + roundedSignificand n) infinityMagnitude

theorem ofRatio_one (negative : Bool) (n : Nat) :
    ofRatio negative n 1 = ofMagnitude negative (naturalMagnitude n) := by
  by_cases zero : n = 0
  · subst zero
    rfl
  · have exponent : max ((n.log2 : Int) - 52) (-1074) = n.log2 - 52 := by omega
    have shift : ((n.log2 : Int) - 52 + 1074).toNat = n.log2 + 1022 := by omega
    rw [ofRatio, if_neg (by omega), floorLog2_one zero, exponent, naturalMagnitude, if_neg zero,
      roundedSignificand]
    simp only [shift, scaledBy]
    by_cases small : n.log2 ≤ 52
    · have scale : (-((n.log2 : Int) - 52)).toNat = 52 - n.log2 := by omega
      rw [if_pos (by omega), if_pos small]
      simp only [scale]
      rfl
    · have scale : (- -((n.log2 : Int) - 52)).toNat = n.log2 - 52 := by omega
      rw [if_neg (by omega), if_neg small]
      simp only [scale, Nat.one_mul]
      rfl

theorem roundDiv_bounds {num den count : Nat} (positive : 0 < den) (lower : count * den ≤ num)
    (upper : num < 2 * count * den) : count ≤ roundDiv num den ∧ roundDiv num den ≤ 2 * count := by
  have least := (Nat.le_div_iff_mul_le positive).2 lower
  have most := (Nat.div_lt_iff_lt_mul positive).2 upper
  exact ⟨least.trans (div_le_roundDiv num den), (roundDiv_le num den).trans most⟩

theorem roundedSignificand_bounds {n : Nat} (positive : n ≠ 0) :
    fractionCount ≤ roundedSignificand n ∧ roundedSignificand n ≤ 2 * fractionCount := by
  have below : 2 ^ n.log2 ≤ n := Nat.log2_self_le positive
  have above : n < 2 * 2 ^ n.log2 := Nat.pow_succ' ▸ Nat.lt_log2_self
  have fractions : fractionCount = 2 ^ 52 := rfl
  rw [roundedSignificand]
  split
  next few =>
    have digits : fractionCount = 2 ^ n.log2 * 2 ^ (52 - n.log2) := by
      rw [fractions, ← Nat.pow_add, Nat.add_sub_cancel' few]
    refine roundDiv_bounds Nat.one_pos ?_ ?_
    · rw [Nat.mul_one, digits]
      exact Nat.mul_le_mul_right _ below
    · rw [Nat.mul_one, digits, ← Nat.mul_assoc]
      exact Nat.mul_lt_mul_of_pos_right above (Nat.two_pow_pos _)
  next many =>
    have digits : 2 ^ n.log2 = fractionCount * 2 ^ (n.log2 - 52) := by
      rw [fractions, ← Nat.pow_add, Nat.add_sub_cancel' (Nat.le_of_not_le many)]
    rw [digits] at below above
    exact roundDiv_bounds (Nat.two_pow_pos _) below (by rwa [Nat.mul_assoc])

theorem log2_mono {m n : Nat} (le : m ≤ n) : m.log2 ≤ n.log2 := by
  by_cases zero : m = 0
  · simp [zero]
  · exact (Nat.le_log2 (by omega)).2 ((Nat.log2_self_le zero).trans le)

theorem exponents_apart {m n : Nat} (fewer : m.log2 < n.log2) :
    (m.log2 + 1022) * fractionCount + fractionCount ≤ (n.log2 + 1022) * fractionCount := by
  rw [← Nat.succ_mul]
  exact Nat.mul_le_mul_right _ (by omega)

theorem naturalMagnitude_mono {m n : Nat} (le : m ≤ n) :
    naturalMagnitude m ≤ naturalMagnitude n := by
  by_cases zero : m = 0
  · rw [naturalMagnitude, if_pos zero]
    exact Nat.zero_le _
  have positive : n ≠ 0 := by omega
  have digits : m.log2 ≤ n.log2 := log2_mono le
  have first := roundedSignificand_bounds zero
  have second := roundedSignificand_bounds positive
  have unbounded : (m.log2 + 1022) * fractionCount + roundedSignificand m ≤
      (n.log2 + 1022) * fractionCount + roundedSignificand n := by
    -- A significand stays within twice the least one, which is what one more digit adds.
    rcases digits.lt_or_eq with fewer | same
    · have := exponents_apart fewer
      omega
    · rw [same]
      refine Nat.add_le_add_left ?_ _
      rw [roundedSignificand, roundedSignificand, same]
      split
      · exact roundDiv_mono 1 (Nat.mul_le_mul_right _ le)
      · exact roundDiv_mono _ le
  rw [naturalMagnitude, naturalMagnitude, if_neg zero, if_neg positive]
  exact Nat.le_min.2 ⟨(Nat.min_le_left _ _).trans unbounded, Nat.min_le_right _ _⟩

theorem roundedSignificand_of_few {n : Nat} (few : n.log2 ≤ 52) :
    roundedSignificand n = n * 2 ^ (52 - n.log2) ∧ roundedSignificand n < 2 * fractionCount := by
  have exactly : roundedSignificand n = n * 2 ^ (52 - n.log2) := by
    rw [roundedSignificand, if_pos few, roundDiv_one]
  have above : n < 2 ^ (n.log2 + 1) := Nat.lt_log2_self
  have digits : 2 * fractionCount = 2 ^ (n.log2 + 1) * 2 ^ (52 - n.log2) := by
    rw [← Nat.pow_add, show n.log2 + 1 + (52 - n.log2) = 53 by omega]
    rfl
  refine ⟨exactly, ?_⟩
  rw [exactly, digits]
  exact Nat.mul_lt_mul_of_pos_right above (Nat.two_pow_pos _)

theorem naturalMagnitude_strict {m n : Nat} (less : m < n) (small : n ≤ 2 ^ 53) :
    naturalMagnitude m < naturalMagnitude n := by
  have positive : n ≠ 0 := by omega
  have digits : n.log2 < 54 := (Nat.log2_lt positive).2 (small.trans_lt (by decide))
  have second := roundedSignificand_bounds positive
  have finite : (n.log2 + 1022) * fractionCount + roundedSignificand n ≤ infinityMagnitude := by
    have bounded : (n.log2 + 1022) * fractionCount ≤ 1075 * fractionCount :=
      Nat.mul_le_mul_right _ (by omega)
    have room : 1075 * fractionCount + 2 * fractionCount ≤ infinityMagnitude := by decide
    omega
  rw [naturalMagnitude, naturalMagnitude, if_neg positive, Nat.min_eq_left finite]
  split
  · exact Nat.add_pos_right _ ((Nat.two_pow_pos 52).trans_le second.1)
  next zero =>
    refine (Nat.min_le_left _ _).trans_lt ?_
    have few : m.log2 ≤ 52 := Nat.le_of_lt_succ ((Nat.log2_lt zero).2 (less.trans_le small))
    have fewer : m.log2 ≤ n.log2 := log2_mono less.le
    obtain ⟨exactM, first⟩ := roundedSignificand_of_few few
    rcases fewer.lt_or_eq with fewer | same
    · have := exponents_apart fewer
      omega
    · obtain ⟨exactN, -⟩ := roundedSignificand_of_few (same ▸ few)
      rw [exactM, exactN, same]
      exact Nat.add_lt_add_left (Nat.mul_lt_mul_of_pos_right less (Nat.two_pow_pos _)) _

theorem naturalMagnitude_lt (n : Nat) : naturalMagnitude n < signThreshold := by
  rw [naturalMagnitude]
  split
  · decide
  · exact (Nat.min_le_right _ _).trans_lt (by decide)

theorem rank_ofInt (n : Int) :
    (ofInt n).rank =
      if n < 0 then -(naturalMagnitude n.natAbs : Int) - 1 else naturalMagnitude n.natAbs := by
  rw [ofInt, ofRatio_one, rank_ofMagnitude (naturalMagnitude_lt _)]
  simp only [decide_eq_true_eq]

/-- A greater integer is not rounded to a lesser real. -/
theorem rank_ofInt_mono {m n : Int} (le : m ≤ n) : (ofInt m).rank ≤ (ofInt n).rank := by
  rw [rank_ofInt, rank_ofInt]
  by_cases negative : n < 0
  · have := naturalMagnitude_mono (show n.natAbs ≤ m.natAbs by omega)
    rw [if_pos negative, if_pos (by omega)]
    omega
  · rw [if_neg negative]
    split_ifs
    · omega
    · have := naturalMagnitude_mono (show m.natAbs ≤ n.natAbs by omega)
      omega

theorem rank_ofInt_strict {m n : Int} (less : m < n) (smallM : m.natAbs ≤ 2 ^ 53)
    (smallN : n.natAbs ≤ 2 ^ 53) : (ofInt m).rank < (ofInt n).rank := by
  rw [rank_ofInt, rank_ofInt]
  by_cases negative : n < 0
  · have := naturalMagnitude_strict (show n.natAbs < m.natAbs by omega) smallM
    rw [if_pos negative, if_pos (by omega)]
    omega
  · rw [if_neg negative]
    split_ifs
    · omega
    · have := naturalMagnitude_strict (show m.natAbs < n.natAbs by omega) smallN
      omega

end Binary64

end BlockScript
