import Mathlib.Algebra.Group.Nat.Defs
import Firewall.Binary64

/-!
Whole numbers as doubles. A quotient that is a whole number of at most 53 bits is its own double,
so sums that stay below come out as they do without rounding.
-/

namespace Firewall.Binary64

variable {x : Binary64} {m n b c : Nat} {e : Int}

/-! ### Powers -/

theorem power_of_nonpos (base : Nat) (h : e ≤ 0) : power base e = 1 := by
  rw [power, Int.toNat_of_nonpos h]
  rfl

theorem power_natCast (base k : Nat) : power base k = base ^ k := rfl

theorem power_succ (base : Nat) (h : 0 ≤ e) : power base (e + 1) = base * power base e := by
  rw [power, Int.toNat_add h (by decide)]
  exact Nat.pow_succ'

theorem power_pos (e : Int) : 0 < power 2 e := Nat.pow_pos (by decide)

theorem den_pos (x : Binary64) : 0 < x.den := by
  cases x with
  | finite m e => exact power_pos _
  | infinite => exact Nat.one_pos

/-! ### Exact doubles -/

/-- The double is a whole number. -/
structure Is (x : Binary64) (n : Nat) : Prop where
  finite : x ≠ .infinite
  value : x.num = n * x.den

theorem is_finite_iff : (finite m e).Is n ↔ m * power 2 e = n * power 2 (-e) :=
  ⟨fun h => h.value, fun value => ⟨nofun, value⟩⟩

/-- A mantissa may lose a factor of two to the exponent. -/
theorem is_finite_double : (finite (2 * m) e).Is n ↔ (finite m (e + 1)).Is n := by
  rw [is_finite_iff, is_finite_iff]
  by_cases above : 0 ≤ e
  · rw [power_succ 2 above, power_of_nonpos 2 (show -e ≤ 0 by omega),
      power_of_nonpos 2 (show -(e + 1) ≤ 0 by omega), Nat.mul_assoc 2, Nat.mul_left_comm]
  · have split : -e = -(e + 1) + 1 := by omega
    rw [power_of_nonpos 2 (show e ≤ 0 by omega), power_of_nonpos 2 (show e + 1 ≤ 0 by omega),
      split, power_succ 2 (by omega), Nat.mul_one, Nat.mul_one, Nat.mul_left_comm]
    exact ⟨Nat.eq_of_mul_eq_mul_left (by decide), congrArg (2 * ·)⟩

/-! ### Grids -/

/-- The quotient of two numbers is of the order of the difference of their lengths. -/
theorem pow_le_of_log2 {k : Nat} (hb : 0 < b) (hn : 0 < n)
    (lengths : (n * b).log2 = b.log2 + 1 + k) : 2 ^ k ≤ n := by
  refine Nat.le_of_lt (Nat.lt_of_mul_lt_mul_left (a := 2 ^ (b.log2 + 1)) ?_)
  calc 2 ^ (b.log2 + 1) * 2 ^ k = 2 ^ (n * b).log2 := by rw [← Nat.pow_add, lengths]
    _ ≤ n * b := Nat.log2_self_le (Nat.ne_of_gt (Nat.mul_pos hn hb))
    _ < n * 2 ^ (b.log2 + 1) := Nat.mul_lt_mul_of_pos_left Nat.lt_log2_self hn
    _ = 2 ^ (b.log2 + 1) * n := Nat.mul_comm _ _

/-- Only large numbers need a grid coarser than that of the whole numbers. -/
theorem le_of_gridExponent {k : Nat} (hn : 0 < n) (hb : 0 < b)
    (coarse : gridExponent (n * b) b = (k + 1 : Nat)) : 2 ^ (k + 53) ≤ n := by
  simp only [gridExponent, shifted, Int.neg_neg] at coarse
  split at coarse
  · -- The power whose grid is taken is not above the number.
    rename_i reached
    have distance : ((n * b).log2 : Int) - b.log2 = (k + 53 : Nat) := by omega
    rw [distance, power_natCast, power_of_nonpos 2 (by omega), Nat.mul_one, Nat.mul_comm] at reached
    exact Nat.le_of_mul_le_mul_right reached hb
  · exact pow_le_of_log2 hb hn (by omega)

theorem gridExponent_le {n b : Nat} (hn : 0 < n) (hb : 0 < b) (small : n ≤ 2 ^ 53) :
    gridExponent (n * b) b ≤ 0 ∨ gridExponent (n * b) b = 1 ∧ n = 2 ^ 53 := by
  by_cases fine : gridExponent (n * b) b ≤ 0
  · exact .inl fine
  · obtain ⟨k, coarse⟩ : ∃ k : Nat, gridExponent (n * b) b = (k + 1 : Nat) :=
      ⟨(gridExponent (n * b) b - 1).toNat, by omega⟩
    have large := le_of_gridExponent hn hb coarse
    cases k with
    | zero => exact .inr ⟨coarse, Nat.le_antisymm small large⟩
    | succ k =>
        have larger : 2 ^ 53 < 2 ^ (k + 1 + 53) := Nat.pow_lt_pow_right (by decide) (by omega)
        omega

/-! ### Quotients that are whole -/

/-- The double of a quotient that is a whole number of at most 53 bits. -/
theorem is_ofRatio (hb : 0 < b) (small : n ≤ 2 ^ 53) : (ofRatio (n * b) b).Is n := by
  rcases Nat.eq_zero_or_pos n with rfl | hn
  · rw [Nat.zero_mul, ofRatio, if_pos rfl]
    exact is_finite_iff.mpr (by simp)
  rw [ofRatio, if_neg (Nat.ne_of_gt (Nat.mul_pos hn hb))]
  generalize grid : gridExponent (n * b) b = e
  have coarse : e ≤ 0 ∨ e = 1 ∧ n = 2 ^ 53 := grid ▸ gridExponent_le hn hb small
  obtain ⟨m, whole⟩ : ∃ m, n * power 2 (-e) = m * power 2 e := by
    rcases coarse with fine | ⟨rfl, rfl⟩
    · exact ⟨n * power 2 (-e), by rw [power_of_nonpos 2 fine, Nat.mul_one]⟩
    · exact ⟨2 ^ 52, rfl⟩
  have rounded : roundDiv (n * b * power 2 (-e)) (b * power 2 e) = m := by
    have product : n * b * power 2 (-e) = m * (b * power 2 e) := by
      rw [Nat.mul_right_comm, whole, Nat.mul_assoc, Nat.mul_comm b]
    rw [product, roundDiv_mul _ _ (Nat.mul_pos hb (power_pos e))]
  simp only [shifted, Int.neg_neg, rounded]
  have unrounded : (finite m e).Is n := is_finite_iff.mpr whole.symm
  split
  · rename_i full
    have halves : m = 2 * power 2 52 := full
    rw [if_neg (by omega)]
    exact is_finite_double.mp (halves ▸ unrounded)
  · rw [if_neg (by omega)]
    exact unrounded

theorem is_ofDecimal {digits k : Nat} (whole : digits = n * 10 ^ k) (small : n ≤ 2 ^ 53) :
    (ofDecimal digits (-(k : Int))).Is n := by
  rw [ofDecimal, power_of_nonpos 10 (by omega), Int.neg_neg, power_natCast, Nat.mul_one, whole]
  exact is_ofRatio (Nat.pow_pos (by decide)) small

theorem Is.scale (h : x.Is n) (small : n * c ≤ 2 ^ 53) : (x.scale c).Is (n * c) := by
  cases x with
  | infinite => exact absurd rfl h.finite
  | finite m e =>
      rw [Binary64.scale, h.value, Nat.mul_right_comm]
      · exact is_ofRatio (den_pos _) small
      · nofun

theorem Is.round? (h : x.Is n) : x.round? = some n := by
  cases x with
  | infinite => exact absurd rfl h.finite
  | finite m e =>
      rw [Binary64.round?, h.value, roundDiv_mul _ _ (den_pos _)]
      nofun

end Firewall.Binary64
