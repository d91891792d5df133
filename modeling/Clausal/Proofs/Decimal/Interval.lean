import Clausal.Decimal.Shortest
import Mathlib.Algebra.Order.Field.Power
import Mathlib.Algebra.Order.Ring.Rat
import Mathlib.Data.Rat.Cast.Order
import Mathlib.Tactic.GCongr
import Mathlib.Tactic.Linarith
import Mathlib.Tactic.NormNum
import Mathlib.Tactic.Positivity
import Mathlib.Tactic.Ring

/-! # What reads back as a number

Around every floating-point number lie the decimals that read back as it: those between the
midpoints to its two neighbours.  Here the bounds are rational numbers, and the test with whole
numbers is shown to be about them (`Interval.contains_iff`).

A rational number reads back as one number at most (`Binary64.fields_eq_of_holds`).  The
interval of a number ends where that of the next one begins.  The bound between them belongs to the
one with the even significand, and of two neighbours only one is even.  Where the exponent
changes, the larger neighbour has a power of two as its significand; its interval is
narrower below, and the smaller neighbour is odd.
-/
namespace Clausal.Decimal

/-! ### Decimals and bounds as rational numbers -/

/-- The number that a decimal stands for. -/
def Scaled.value (d : Scaled) : ℚ := d.digits * 10 ^ d.scale

namespace Interval

/-- The lower bound. -/
def lower (i : Interval) : ℚ := i.below * 2 ^ i.power

/-- The number itself. -/
def centre (i : Interval) : ℚ := i.quarters * 2 ^ i.power

/-- The upper bound. -/
def upper (i : Interval) : ℚ := i.above * 2 ^ i.power

/-- The rational number lies in the interval. -/
def Holds (i : Interval) (v : ℚ) : Prop :=
  (i.lower < v ∧ v < i.upper) ∨ (i.closed = true ∧ (v = i.lower ∨ v = i.upper))

end Interval

theorem zpow_mul_toNat {b : ℚ} (hb : b ≠ 0) (k : ℤ) : b ^ k * b ^ (-k).toNat = b ^ k.toNat := by
  rw [← zpow_natCast, ← zpow_natCast, ← zpow_add₀ hb]
  congr 1
  omega

/-- What both sides of a comparison are multiplied by to be whole. -/
def clearing (g p : ℤ) : ℚ := 10 ^ (-g).toNat * 2 ^ (-p).toNat

theorem clearing_pos (g p : ℤ) : 0 < clearing g p := by
  unfold clearing
  positivity

theorem ten_mul_clearing (a : ℕ) (g p : ℤ) :
    (a : ℚ) * 10 ^ g * clearing g p = (a * Nat.pow 10 g.toNat * Nat.pow 2 (-p).toNat : ℕ) := by
  have hten := zpow_mul_toNat (b := 10) (by norm_num) g
  simp only [Nat.pow_eq]
  push_cast
  rw [← hten, clearing]
  ring

theorem two_mul_clearing (b : ℕ) (g p : ℤ) :
    (b : ℚ) * 2 ^ p * clearing g p = (b * Nat.pow 2 p.toNat * Nat.pow 10 (-g).toNat : ℕ) := by
  have htwo := zpow_mul_toNat (b := 2) (by norm_num) p
  simp only [Nat.pow_eq]
  push_cast
  rw [← htwo, clearing]
  ring

/-- The comparison is that of the rational numbers. -/
theorem compareScaled_eq (a : ℕ) (g : ℤ) (b : ℕ) (p : ℤ) :
    compareScaled a g b p = compare ((a : ℚ) * 10 ^ g) (b * 2 ^ p) := by
  have hpos := clearing_pos g p
  have hten := ten_mul_clearing a g p
  have htwo := two_mul_clearing b g p
  unfold compareScaled
  generalize a * Nat.pow 10 g.toNat * Nat.pow 2 (-p).toNat = m at hten ⊢
  generalize b * Nat.pow 2 p.toNat * Nat.pow 10 (-g).toNat = n at htwo ⊢
  generalize (a : ℚ) * 10 ^ g = u at hten ⊢
  generalize (b : ℚ) * 2 ^ p = v at htwo ⊢
  have hlt : u < v ↔ m < n := by
    rw [← mul_lt_mul_iff_of_pos_right hpos, hten, htwo, Nat.cast_lt]
  have heq : u = v ↔ m = n := by
    rw [← mul_left_inj' hpos.ne', hten, htwo, Nat.cast_inj]
  rcases lt_trichotomy m n with h | h | h
  · rw [compare_lt_iff_lt.mpr h, compare_lt_iff_lt.mpr (hlt.mpr h)]
  · rw [compare_eq_iff_eq.mpr h, compare_eq_iff_eq.mpr (heq.mpr h)]
  · have hgt : v < u := by
      rcases lt_trichotomy u v with h' | h' | h'
      · have := hlt.mp h'; omega
      · have := heq.mp h'; omega
      · exact h'
    rw [compare_gt_iff_gt.mpr h, compare_gt_iff_gt.mpr hgt]

theorem Interval.contains_iff (i : Interval) (a : ℕ) (g : ℤ) :
    i.contains a g = true ↔ i.Holds (a * 10 ^ g) := by
  unfold contains Holds lower upper
  rw [compareScaled_eq, compareScaled_eq]
  generalize (a : ℚ) * 10 ^ g = v
  generalize (i.below : ℚ) * 2 ^ i.power = low
  generalize (i.above : ℚ) * 2 ^ i.power = high
  cases hlow : compare v low <;> cases hhigh : compare v high <;>
    simp only [compare_lt_iff_lt, compare_eq_iff_eq, compare_gt_iff_gt] at hlow hhigh <;>
    grind

/-! ### The intervals of different numbers -/

namespace Binary64

theorem fractionField_eq (x : Binary64) : x.fractionField = x.bits.toNat % 4503599627370496 := by
  unfold fractionField
  rw [UInt64.toNat_and]
  exact Nat.and_two_pow_sub_one_eq_mod _ 52

theorem fractionField_lt (x : Binary64) : x.fractionField < 4503599627370496 := by
  rw [fractionField_eq]
  exact Nat.mod_lt _ (by decide)

theorem significand_lt (x : Binary64) : x.significand < 9007199254740992 := by
  have hfraction := x.fractionField_lt
  have hpow : Nat.pow 2 52 = 4503599627370496 := rfl
  unfold significand
  split <;> omega

theorem significand_le_of_fraction {x : Binary64} (h : x.fractionField = 0) :
    x.significand ≤ 4503599627370496 := by
  have hpow : Nat.pow 2 52 = 4503599627370496 := rfl
  unfold significand
  split <;> omega

theorem exponentField_eq (x : Binary64) :
    x.exponentField = x.bits.toNat / 4503599627370496 % 2048 := by
  have hshift : (x.bits >>> 52).toNat = x.bits.toNat / 4503599627370496 := by
    rw [UInt64.toNat_shiftRight]
    exact Nat.shiftRight_eq_div_pow _ 52
  unfold exponentField
  rw [UInt64.toNat_and, hshift]
  exact Nat.and_two_pow_sub_one_eq_mod _ 11

theorem exponentField_lt (x : Binary64) : x.exponentField < 2048 := by
  rw [exponentField_eq]
  exact Nat.mod_lt _ (by decide)

theorem exponent_bounds (x : Binary64) : -1074 ≤ x.exponent ∧ x.exponent ≤ 972 := by
  have hfield := x.exponentField_lt
  unfold exponent
  split <;> omega

/-- The absolute value of the first number is below that of the second, by the order of their
bits. -/
def Precedes (x y : Binary64) : Prop :=
  x.exponentField < y.exponentField ∨
    (x.exponentField = y.exponentField ∧ x.fractionField < y.fractionField)

/-- A number that precedes has the same exponent and a smaller significand, or a smaller
exponent. -/
theorem Precedes.cases {x y : Binary64} (h : x.Precedes y) :
    (x.exponent = y.exponent ∧ x.significand < y.significand) ∨
      (x.exponent < y.exponent ∧ 1 < y.exponentField ∧
        y.significand = 4503599627370496 + y.fractionField) := by
  have hx := x.fractionField_lt
  have hpow : Nat.pow 2 52 = 4503599627370496 := rfl
  unfold Precedes at h
  unfold exponent significand
  split <;> split <;> omega

theorem upper_interval (x : Binary64) :
    x.interval.upper = (4 * x.significand + 2 : ℕ) * 2 ^ (x.exponent - 2) := rfl

/-- Four times the significand less one or two: the lower bound in quarters. -/
theorem lower_interval (x : Binary64) : ∃ quarters : ℕ,
    x.interval.lower = quarters * 2 ^ (x.exponent - 2) ∧
      (quarters = 4 * x.significand - 2 ∧ ¬ (x.fractionField = 0 ∧ 1 < x.exponentField) ∨
        quarters = 4 * x.significand - 1 ∧ x.fractionField = 0) := by
  refine ⟨_, rfl, ?_⟩
  unfold interval narrowBelow
  dsimp only
  split
  · rename_i h
    simp at h
    exact .inr ⟨rfl, h.1⟩
  · rename_i h
    simp at h
    refine .inl ⟨rfl, ?_⟩
    omega

theorem closed_interval (x : Binary64) : x.interval.closed = true ↔ x.significand % 2 = 0 := by
  unfold interval
  simp

/-- **The interval of a number ends before that of the next one begins**, or where it begins, and
then the bound does not belong to both. -/
theorem Precedes.upper_le_lower {x y : Binary64} (h : x.Precedes y) :
    x.interval.upper < y.interval.lower ∨
      (x.interval.upper = y.interval.lower ∧
        ¬ (x.interval.closed = true ∧ y.interval.closed = true)) := by
  obtain ⟨quarters, hlower, hquarters⟩ := y.lower_interval
  rw [upper_interval, hlower, closed_interval, closed_interval]
  have hunit : (0 : ℚ) < 2 ^ (x.exponent - 2) := by positivity
  rcases h.cases with ⟨hexponent, hsignificand⟩ | ⟨hexponent, hnormal, hsignificand⟩
  · rw [← hexponent]
    rcases Nat.lt_or_ge (4 * x.significand + 2) quarters with hlt | hge
    · left
      exact mul_lt_mul_of_pos_right (by exact_mod_cast hlt) hunit
    · right
      have heq : quarters = 4 * x.significand + 2 := by omega
      exact ⟨by rw [heq], by omega⟩
  · -- One step of the exponent doubles the unit.
    have hdouble : (2 : ℚ) * 2 ^ (x.exponent - 2) ≤ 2 ^ (y.exponent - 2) := by
      rw [← zpow_one_add₀ (by norm_num)]
      exact zpow_le_zpow_right₀ (by norm_num) (by omega)
    have hx := x.significand_lt
    have hbound :
        ((2 * quarters : ℕ) : ℚ) * 2 ^ (x.exponent - 2) ≤ quarters * 2 ^ (y.exponent - 2) := by
      push_cast
      nlinarith [hdouble, (Nat.cast_nonneg quarters : (0 : ℚ) ≤ quarters)]
    rcases Nat.lt_or_ge (4 * x.significand + 2) (2 * quarters) with hlt | hge
    · left
      refine lt_of_lt_of_le (mul_lt_mul_of_pos_right ?_ hunit) hbound
      exact_mod_cast hlt
    · have heq : 4 * x.significand + 2 = 2 * quarters := by omega
      have hodd : x.significand % 2 ≠ 0 := by omega
      rw [heq]
      rcases hbound.lt_or_eq with hlt | heq'
      · exact .inl hlt
      · exact .inr ⟨heq', fun hclosed => hodd hclosed.1⟩

theorem lower_le_upper (x : Binary64) : x.interval.lower ≤ x.interval.upper := by
  obtain ⟨quarters, hlower, hquarters⟩ := x.lower_interval
  rw [upper_interval, hlower]
  have hle : quarters ≤ 4 * x.significand + 2 := by omega
  gcongr

end Binary64

theorem Interval.Holds.bounds {i : Interval} {v : ℚ} (h : i.Holds v) (hle : i.lower ≤ i.upper) :
    i.lower ≤ v ∧ v ≤ i.upper ∧ (v = i.lower ∨ v = i.upper → i.closed = true) := by
  rcases h with ⟨hlower, hupper⟩ | ⟨hclosed, rfl | rfl⟩
  · refine ⟨hlower.le, hupper.le, ?_⟩
    rintro (rfl | rfl)
    · exact absurd hlower (lt_irrefl _)
    · exact absurd hupper (lt_irrefl _)
  · exact ⟨le_refl _, hle, fun _ => hclosed⟩
  · exact ⟨hle, le_refl _, fun _ => hclosed⟩

namespace Binary64

theorem Precedes.not_holds {x y : Binary64} (h : x.Precedes y) {v : ℚ} (hx : x.interval.Holds v) :
    ¬ y.interval.Holds v := by
  intro hy
  obtain ⟨-, hupper, hxclosed⟩ := hx.bounds x.lower_le_upper
  obtain ⟨hlower, -, hyclosed⟩ := hy.bounds y.lower_le_upper
  rcases h.upper_le_lower with hlt | ⟨heq, hopen⟩
  · exact absurd (hupper.trans_lt hlt) (not_lt.mpr hlower)
  · have hv : v = x.interval.upper := le_antisymm hupper (heq ▸ hlower)
    exact hopen ⟨hxclosed (.inr hv), hyclosed (.inl (hv.trans heq))⟩

/-- **A rational number lies in one interval at most.** -/
theorem fields_eq_of_holds {x y : Binary64} {v : ℚ} (hx : x.interval.Holds v)
    (hy : y.interval.Holds v) :
    x.exponentField = y.exponentField ∧ x.fractionField = y.fractionField := by
  have hxy : ¬ x.Precedes y := fun h => h.not_holds hx hy
  have hyx : ¬ y.Precedes x := fun h => h.not_holds hy hx
  unfold Precedes at hxy hyx
  omega

end Binary64

end Clausal.Decimal
