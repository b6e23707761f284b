import Koroutine.Executor.Clock
import Mathlib.Algebra.Order.Field.Rat
import Mathlib.Tactic.FieldSimp
import Mathlib.Tactic.Linarith
import Mathlib.Tactic.LinearCombination
import Mathlib.Tactic.Positivity

/-!
# Durations in milliseconds

`std::chrono::duration_cast` to milliseconds multiplies the count of a duration with the numerator
of the quotient of the periods, and divides by the denominator.  The product may overflow, and the
division drops the rest.
-/

namespace Koroutine

/-! ### The numbers of a duration -/

/-- The type in which the cast computes: `unsigned long` if the count has this type, and `long` if
it has another integer type. -/
inductive Rep
  | signed
  | unsigned
  deriving DecidableEq

namespace Rep

/-- The value of a number of this type. -/
def wrap : Rep → ℤ → ℤ
  | signed, x => Clock.wrap x
  | unsigned, x => x % 2 ^ 64

def Fits : Rep → ℤ → Prop
  | signed, x => Clock.Fits x
  | unsigned, x => 0 ≤ x ∧ x < 2 ^ 64

instance : (rep : Rep) → (x : ℤ) → Decidable (rep.Fits x)
  | signed, x => inferInstanceAs (Decidable (Clock.Fits x))
  | unsigned, _ => inferInstanceAs (Decidable (_ ∧ _))

variable {rep : Rep} {x : ℤ}

theorem fits_wrap (rep : Rep) (x : ℤ) :
  rep.Fits (rep.wrap x)
  := by
  cases rep with
  | signed => apply Clock.fits_wrap
  | unsigned =>
      constructor
      · apply Int.emod_nonneg x (by decide)
      · apply Int.emod_lt_of_pos x (by decide)

theorem wrap_of_fits (h : rep.Fits x) :
  rep.wrap x = x
  := by
  cases rep with
  | signed => apply Clock.wrap_of_fits h
  | unsigned => apply Int.emod_eq_of_lt h.1 h.2

theorem wrap_le (h : 0 ≤ x) :
  rep.wrap x ≤ x
  := by
  cases rep with
  | signed => exact Clock.wrap_le (by omega)
  | unsigned =>
      change x % 2 ^ 64 ≤ x
      omega

theorem le_of_fits (h : rep.Fits x) :
  -2 ^ 63 ≤ x
  := by
  cases rep with
  | signed => apply h.1
  | unsigned =>
      have hx : 0 ≤ x := h.1
      omega

theorem wrap_zero (rep : Rep) :
  rep.wrap 0 = 0
  := by
  cases rep <;> rfl

end Rep

/-- A `std::ratio`. -/
structure Ratio where
  num : ℕ
  den : ℕ
  num_pos : 0 < num
  den_pos : 0 < den

namespace Ratio

def milli : Ratio where
  num := 1
  den := 1000
  num_pos := by decide
  den_pos := by decide

/-- `std::ratio_divide`. -/
def divide (r s : Ratio) : Ratio where
  num := r.num * s.den / (r.num * s.den).gcd (r.den * s.num)
  den := r.den * s.num / (r.num * s.den).gcd (r.den * s.num)
  num_pos := by
    have hpos := Nat.mul_pos r.num_pos s.den_pos
    apply Nat.div_pos (Nat.gcd_le_left _ hpos) (Nat.gcd_pos_of_pos_left _ hpos)
  den_pos := by
    have hpos := Nat.mul_pos r.den_pos s.num_pos
    apply Nat.div_pos (Nat.gcd_le_right _ hpos) (Nat.gcd_pos_of_pos_right _ hpos)

/-- The value of a ratio. -/
def toRat (r : Ratio) : ℚ := r.num / r.den

theorem den_pos_rat (r : Ratio) :
  (0 : ℚ) < r.den
  := by
  exact_mod_cast r.den_pos

theorem divide_toRat (r s : Ratio) :
  (r.divide s).toRat = r.toRat / s.toRat
  := by
  have hnum := Nat.div_mul_cancel (Nat.gcd_dvd_left (r.num * s.den) (r.den * s.num))
  have hden := Nat.div_mul_cancel (Nat.gcd_dvd_right (r.num * s.den) (r.den * s.num))
  have hcross : (r.divide s).num * (r.den * s.num) = r.num * s.den * (r.divide s).den := by
    conv_lhs => rw [← hden]
    conv_rhs => rw [← hnum]
    unfold divide
    ring
  have hcross' : ((r.divide s).num : ℚ) * (r.den * s.num) = r.num * s.den * (r.divide s).den := by
    exact_mod_cast hcross
  have hnum_pos : (0 : ℚ) < s.num := by exact_mod_cast s.num_pos
  have hr := r.den_pos_rat
  have hs := s.den_pos_rat
  have hdivide := (r.divide s).den_pos_rat
  unfold toRat
  field_simp
  linear_combination hcross'

end Ratio

/-! ### The cast -/

/-- A `std::chrono::duration` with an integer count of periods, which are given in seconds. -/
structure Duration where
  rep : Rep
  count : ℤ
  period : Ratio
  fits : rep.Fits count

namespace Duration

/-- What the cast multiplies with. -/
def factor (d : Duration) : Ratio := d.period.divide .milli

/-- The product in the cast, without an overflow. -/
def product (d : Duration) : ℤ := d.count * d.factor.num

/-- The count of `duration_cast<milliseconds>`, a `long`. -/
def duration_cast (d : Duration) : ℤ :=
  Clock.wrap ((d.rep.wrap d.product).tdiv d.factor.den)

/-- The length of a duration in milliseconds. -/
def milliseconds (d : Duration) : ℚ := d.count * d.period.toRat * 1000

variable {d : Duration}

theorem milliseconds_eq (d : Duration) :
  d.milliseconds = d.product / d.factor.den
  := by
  have hmilli : Ratio.milli.toRat = 1 / 1000 := by
    simp [Ratio.toRat, Ratio.milli]
  have hfactor : d.factor.toRat = d.period.toRat * 1000 := by
    rw [factor, Ratio.divide_toRat, hmilli]
    ring
  rw [milliseconds, mul_assoc, ← hfactor, product, Ratio.toRat]
  push_cast
  ring

theorem product_nonneg (h : 0 ≤ d.milliseconds) :
  0 ≤ d.product
  := by
  have hden := d.factor.den_pos_rat
  have hproduct := mul_nonneg h hden.le
  rw [milliseconds_eq, div_mul_cancel₀ _ hden.ne'] at hproduct
  exact_mod_cast hproduct

theorem product_eq_zero (h : d.milliseconds = 0) :
  d.product = 0
  := by
  rw [milliseconds_eq, div_eq_iff d.factor.den_pos_rat.ne', zero_mul] at h
  exact_mod_cast h

/-- The quotient is not below the least `long`, and does not exceed the exact one. -/
theorem quotient_bounds (h : 0 ≤ d.product) :
  -2 ^ 63 ≤ (d.rep.wrap d.product).tdiv d.factor.den ∧
    (d.rep.wrap d.product).tdiv d.factor.den * d.factor.den ≤ d.product
  := by
  have hden : (0 : ℤ) < d.factor.den := by exact_mod_cast d.factor.den_pos
  have hle := d.rep.wrap_le h
  constructor
  · have hlow := Rep.le_of_fits (d.rep.fits_wrap d.product)
    have habs := Int.natAbs_tdiv_le_natAbs (d.rep.wrap d.product) d.factor.den
    have hsign : 0 ≤ d.rep.wrap d.product → 0 ≤ (d.rep.wrap d.product).tdiv d.factor.den := by
      intro hnonneg
      apply Int.tdiv_nonneg hnonneg hden.le
    omega
  · calc (d.rep.wrap d.product).tdiv d.factor.den * d.factor.den
        ≤ d.product.tdiv d.factor.den * d.factor.den :=
          mul_le_mul_of_nonneg_right (Int.tdiv_le_tdiv hden hle) hden.le
      _ = d.factor.den * d.product.tdiv d.factor.den := mul_comm _ _
      _ ≤ d.product := Int.mul_tdiv_self_le h

/-- The cast does not make a duration longer. -/
theorem duration_cast_mul_le (h : 0 ≤ d.product) :
  d.duration_cast * d.factor.den ≤ d.product
  := by
  obtain ⟨hlow, hmul⟩ := quotient_bounds h
  have hden : (0 : ℤ) ≤ d.factor.den := by positivity
  exact (mul_le_mul_of_nonneg_right (Clock.wrap_le hlow) hden).trans hmul

theorem duration_cast_le (h : 0 ≤ d.milliseconds) :
  (d.duration_cast : ℚ) ≤ d.milliseconds
  := by
  have hmul := duration_cast_mul_le (product_nonneg h)
  rw [milliseconds_eq, le_div_iff₀ d.factor.den_pos_rat]
  exact_mod_cast hmul

/-- When the cast keeps the length, the product has not overflowed. -/
theorem product_fits (h : 0 ≤ d.milliseconds) (hcast : (d.duration_cast : ℚ) = d.milliseconds) :
  d.rep.Fits d.product
  := by
  have hnonneg := product_nonneg h
  rw [milliseconds_eq, eq_div_iff d.factor.den_pos_rat.ne'] at hcast
  have hexact : d.duration_cast * d.factor.den = d.product := by exact_mod_cast hcast
  obtain ⟨hlow, -⟩ := quotient_bounds hnonneg
  have hden : (0 : ℤ) < d.factor.den := by exact_mod_cast d.factor.den_pos
  have hquotient : d.product ≤ (d.rep.wrap d.product).tdiv d.factor.den * d.factor.den :=
    hexact.symm.le.trans (mul_le_mul_of_nonneg_right (Clock.wrap_le hlow) hden.le)
  have hwrap : d.rep.wrap d.product = d.product := by
    apply le_antisymm (d.rep.wrap_le hnonneg)
    by_cases hsign : 0 ≤ d.rep.wrap d.product
    · rw [mul_comm] at hquotient
      apply hquotient.trans (Int.mul_tdiv_self_le hsign)
    · have hnonpos : (d.rep.wrap d.product).tdiv d.factor.den ≤ 0 := by
        have hle := Int.tdiv_le_tdiv hden (not_le.mp hsign).le
        rwa [Int.zero_tdiv] at hle
      have hzero : d.product = 0 := by
        have hprod := mul_nonpos_of_nonpos_of_nonneg hnonpos hden.le
        omega
      rw [hzero, Rep.wrap_zero] at hsign
      exact absurd (le_refl 0) hsign
  rw [← hwrap]
  apply Rep.fits_wrap

/-- A whole number of milliseconds that is representable is what the cast yields, if the product
does not overflow. -/
theorem duration_cast_eq {ms : ℤ} (hfits : d.rep.Fits d.product) (hwhole : d.milliseconds = ms)
    (hms : Clock.Fits ms) :
  d.duration_cast = ms
  := by
  have hden : (d.factor.den : ℤ) ≠ 0 := by exact_mod_cast d.factor.den_pos.ne'
  rw [milliseconds_eq, div_eq_iff d.factor.den_pos_rat.ne'] at hwhole
  have hproduct : d.product = ms * d.factor.den := by exact_mod_cast hwhole
  rw [duration_cast, Rep.wrap_of_fits hfits, hproduct, Int.mul_tdiv_cancel ms hden,
    Clock.wrap_of_fits hms]

end Duration

end Koroutine
