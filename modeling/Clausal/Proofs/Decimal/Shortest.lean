import Clausal.Proofs.Decimal.Interval

/-! # The shortest decimal reads back

The search for the shortest decimal ends with one that lies in the interval of the number
(`Binary64.holds_shortest`).  On every grid of decimals only the two points around the number are
tested.  With seventeen digits the grid is finer than the interval is wide, so that one of the two
lies in it: a number has at most seventeen digits before the grid, and its significand is less than
ten to the sixteenth.
-/
namespace Clausal.Decimal

/-! ### Points of a grid -/

theorem scaledFloor_le (b : ℕ) (p g : ℤ) : (scaledFloor b p g : ℚ) * 10 ^ g ≤ b * 2 ^ p := by
  have hten := ten_mul_clearing (scaledFloor b p g) g p
  have htwo := two_mul_clearing b g p
  rw [← mul_le_mul_iff_of_pos_right (clearing_pos g p), hten, htwo, Nat.cast_le]
  rw [Nat.mul_assoc]
  exact Nat.div_mul_le_self _ _

theorem lt_scaledFloor (b : ℕ) (p g : ℤ) :
    (b : ℚ) * 2 ^ p < ((scaledFloor b p g + 1 : ℕ) : ℚ) * 10 ^ g := by
  have hten := ten_mul_clearing (scaledFloor b p g + 1) g p
  have htwo := two_mul_clearing b g p
  rw [← mul_lt_mul_iff_of_pos_right (clearing_pos g p), hten, htwo, Nat.cast_lt]
  have hpos : 0 < Nat.pow 10 g.toNat * Nat.pow 2 (-p).toNat :=
    Nat.mul_pos (Nat.pow_pos (by decide)) (Nat.pow_pos (by decide))
  rw [Nat.mul_assoc (scaledFloor b p g + 1), Nat.mul_comm (scaledFloor b p g + 1)]
  exact Nat.lt_mul_div_succ _ hpos

namespace Interval
variable {i : Interval}

/-- What is found on a grid lies in the interval. -/
theorem contains_of_nearest? {tie : Tie} {g : ℤ} {n : ℕ} (h : i.nearest? tie g = some n) :
    i.contains n g = true := by
  unfold nearest? at h
  dsimp only at h
  grind

/-- Nothing is found on a grid only if both points next to the number lie outside. -/
theorem not_contains_of_nearest? {tie : Tie} {g : ℤ} (h : i.nearest? tie g = none) :
    i.contains (scaledFloor i.quarters i.power g) g = false ∧
      i.contains (scaledFloor i.quarters i.power g + 1) g = false := by
  unfold nearest? at h
  dsimp only at h
  generalize i.contains (scaledFloor i.quarters i.power g) g = lo at h ⊢
  generalize i.contains (scaledFloor i.quarters i.power g + 1) g = hi at h ⊢
  cases lo <;> cases hi <;> grind

/-- On a grid that is finer than the interval is wide, a point next to the number lies in
the interval. -/
theorem nearest?_ne_none (tie : Tie) {g : ℤ} (hlower : i.lower < i.centre)
    (hupper : i.centre < i.upper) (hgrid : 10 ^ g < i.upper - i.lower) :
    i.nearest? tie g ≠ none := by
  intro hnone
  obtain ⟨hlo, hhi⟩ := not_contains_of_nearest? hnone
  rw [← Bool.not_eq_true, contains_iff] at hlo hhi
  have hfloor : _ ≤ i.centre := scaledFloor_le i.quarters i.power g
  have hceil : i.centre < _ := lt_scaledFloor i.quarters i.power g
  rcases lt_or_ge i.lower ((scaledFloor i.quarters i.power g : ℚ) * 10 ^ g) with hin | hout
  · exact hlo (.inl ⟨hin, hfloor.trans_lt hupper⟩)
  · refine hhi (.inl ⟨hlower.trans hceil, ?_⟩)
    push_cast
    linarith

theorem contains_search {tie : Tie} {magnitude : ℤ} {count tries k : ℕ} (hcount : count ≤ k)
    (hk : k < count + tries) (h : i.nearest? tie (magnitude - k) ≠ none) :
    i.contains (i.search tie magnitude count tries).digits
      (i.search tie magnitude count tries).scale = true := by
  induction tries generalizing count with
  | zero => omega
  | succ tries ih =>
    rw [search]
    split
    · rename_i digits hdigits
      exact contains_of_nearest? hdigits
    · rename_i hnone
      refine ih ?_ (by omega)
      rcases hcount.lt_or_eq with hlt | rfl
      · exact hlt
      · exact absurd hnone h

theorem le_places {start : ℤ} {tries : ℕ} (h : (10 : ℚ) ^ (start - 1) ≤ i.centre) :
    (10 : ℚ) ^ (i.places start tries - 1) ≤ i.centre := by
  induction tries generalizing start with
  | zero => exact h
  | succ tries ih =>
    rw [places]
    split
    · exact h
    · rename_i hcompare
      refine ih ?_
      rw [compareScaled_eq, compare_gt_iff_gt, Nat.cast_one, one_mul, not_lt] at hcompare
      rwa [add_sub_cancel_right]

end Interval

/-- Powers of ten and of two are compared by comparing a power of each. -/
theorem ten_zpow_le_of_bases {k b : ℤ} {m n : ℕ} (hn : n ≠ 0) (hk : k * n ≤ m * b)
    (hbases : ((10 : ℚ) ^ m) ^ b ≤ (2 ^ n) ^ b) : (10 : ℚ) ^ k ≤ 2 ^ b := by
  have hpow : ((10 : ℚ) ^ k) ^ n ≤ (2 ^ b) ^ n := by
    calc ((10 : ℚ) ^ k) ^ n = 10 ^ (k * n) := by rw [zpow_mul, zpow_natCast]
      _ ≤ 10 ^ (m * b) := zpow_le_zpow_right₀ (by norm_num) hk
      _ = (10 ^ m) ^ b := by rw [zpow_mul, zpow_natCast]
      _ ≤ (2 ^ n) ^ b := hbases
      _ = (2 ^ b) ^ n := by rw [← zpow_natCast, ← zpow_natCast, zpow_comm]
  exact le_of_pow_le_pow_left₀ hn (by positivity) hpow

/-- The search for the magnitude of a number starts low enough. -/
theorem ten_zpow_le_two_zpow {b : ℤ} (hlow : -2000 ≤ b) (hhigh : b ≤ 1900) :
    (10 : ℚ) ^ (Int.fdiv (b * 30103) 100000 - 1 - 1) ≤ 2 ^ b := by
  generalize hk : Int.fdiv (b * 30103) 100000 - 1 - 1 = k
  have hfloor : 100000 * (k + 2) ≤ b * 30103 := by
    rw [Int.fdiv_eq_ediv_of_nonneg _ (by norm_num)] at hk
    omega
  rcases le_total 0 b with hb | hb
  · -- Three decimal places are less than ten binary ones.
    refine ten_zpow_le_of_bases (m := 3) (n := 10) (by norm_num) (by omega) ?_
    exact zpow_le_zpow_left₀ hb (by norm_num) (by norm_num)
  · -- Ninety-three binary places are less than twenty-eight decimal ones.
    refine ten_zpow_le_of_bases (m := 28) (n := 93) (by norm_num) (by omega) ?_
    obtain ⟨c, rfl⟩ : ∃ c : ℕ, b = -c := ⟨(-b).toNat, by omega⟩
    rw [zpow_neg, zpow_neg, zpow_natCast, zpow_natCast]
    exact inv_anti₀ (by positivity) (pow_le_pow_left₀ (by norm_num) (by norm_num) c)

theorem Scaled.value_strip (d : Scaled) (tries : ℕ) : (d.strip tries).value = d.value := by
  induction tries generalizing d with
  | zero => rfl
  | succ tries ih =>
    rw [strip]
    split
    · rename_i h
      have hdigits : d.digits = 10 * (d.digits / 10) := by omega
      rw [ih]
      unfold value
      dsimp only
      rw [zpow_add_one₀ (by norm_num)]
      nth_rewrite 2 [hdigits]
      push_cast
      ring
    · rfl

namespace Binary64
variable {x : Binary64} (hx : x.significand ≠ 0)
include hx

theorem lower_lt_centre : x.interval.lower < x.interval.centre := by
  obtain ⟨quarters, hlower, hquarters⟩ := x.lower_interval
  rw [hlower]
  have hlt : quarters < 4 * x.significand := by omega
  exact mul_lt_mul_of_pos_right (by exact_mod_cast hlt) (by positivity)

omit hx in
theorem centre_lt_upper : x.interval.centre < x.interval.upper := by
  have hlt : 4 * x.significand < 4 * x.significand + 2 := by omega
  exact mul_lt_mul_of_pos_right (by exact_mod_cast hlt) (by positivity)

omit hx in
/-- The interval is wider than the number divided by ten to the sixteenth. -/
theorem centre_lt_width :
    x.interval.centre < (x.interval.upper - x.interval.lower) * 10 ^ 16 := by
  obtain ⟨quarters, hlower, hquarters⟩ := x.lower_interval
  have hlt : 4 * x.significand < (4 * x.significand + 2 - quarters) * 10 ^ 16 := by
    have hbound := x.significand_lt
    rcases hquarters with ⟨hquarters, -⟩ | ⟨hquarters, hfraction⟩
    · omega
    · have hpow : x.significand ≤ 4503599627370496 := significand_le_of_fraction hfraction
      omega
  have hunit : (0 : ℚ) < 2 ^ (x.exponent - 2) := by positivity
  have hcast : ((4 * x.significand + 2 - quarters : ℕ) : ℚ) =
      (4 * x.significand + 2 : ℕ) - quarters := Nat.cast_sub (by omega)
  have hlt' :
      ((4 * x.significand : ℕ) : ℚ) < ((4 * x.significand + 2 : ℕ) - quarters) * 10 ^ 16 := by
    rw [← hcast]
    exact_mod_cast hlt
  calc x.interval.centre = ((4 * x.significand : ℕ) : ℚ) * 2 ^ (x.exponent - 2) := rfl
    _ < ((4 * x.significand + 2 : ℕ) - quarters) * 10 ^ 16 * 2 ^ (x.exponent - 2) :=
        mul_lt_mul_of_pos_right hlt' hunit
    _ = (x.interval.upper - x.interval.lower) * 10 ^ 16 := by
        rw [upper_interval, hlower]
        ring

theorem ten_zpow_magnitude_le : (10 : ℚ) ^ (x.interval.magnitude - 1) ≤ x.interval.centre := by
  have hquarters : x.interval.quarters ≠ 0 := by
    show 4 * x.significand ≠ 0
    omega
  have hlog : x.interval.quarters.log2 < 55 := by
    rw [Nat.log2_lt hquarters]
    have hbound := x.significand_lt
    show 4 * x.significand < _
    omega
  obtain ⟨hlow, hhigh⟩ := x.exponent_bounds
  have hpower : x.interval.power = x.exponent - 2 := rfl
  refine Interval.le_places ((ten_zpow_le_two_zpow ?_ ?_).trans ?_)
  · omega
  · omega
  · rw [zpow_add₀ (by norm_num), zpow_natCast]
    refine mul_le_mul_of_nonneg_right ?_ (by positivity)
    exact_mod_cast Nat.log2_self_le hquarters

/-- **The shortest decimal reads back as the number.** -/
theorem holds_shortest (tie : Tie) : x.interval.Holds (x.shortest tie).value := by
  have hgrid :
      (10 : ℚ) ^ (x.interval.magnitude - (17 : ℕ)) < x.interval.upper - x.interval.lower := by
    have hsplit : (10 : ℚ) ^ (x.interval.magnitude - 1) =
        10 ^ (x.interval.magnitude - (17 : ℕ)) * 10 ^ 16 := by
      rw [← zpow_natCast, ← zpow_add₀ (by norm_num)]
      congr 1
      push_cast
      ring
    have hwidth := (ten_zpow_magnitude_le hx).trans_lt x.centre_lt_width
    rw [hsplit] at hwidth
    exact lt_of_mul_lt_mul_right hwidth (by positivity)
  have hfound := x.interval.nearest?_ne_none tie (lower_lt_centre hx) x.centre_lt_upper hgrid
  rw [shortest, Scaled.value_strip]
  refine (x.interval.contains_iff _ _).mp ?_
  exact Interval.contains_search (by omega) (by omega) hfound

theorem pos_of_holds {v : ℚ} (h : x.interval.Holds v) : 0 < v := by
  obtain ⟨quarters, hlower, hquarters⟩ := x.lower_interval
  have hpos : 0 < quarters := by omega
  have hbound : (0 : ℚ) < x.interval.lower := by
    rw [hlower]
    positivity
  exact hbound.trans_le (h.bounds x.lower_le_upper).1

end Binary64

end Clausal.Decimal
