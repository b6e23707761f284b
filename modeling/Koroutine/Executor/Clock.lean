import Mathlib.Algebra.Order.Ring.Int
import Mathlib.Tactic.Ring
import Mathlib.Tactic.Common

/-!
# The clock

`std::chrono::steady_clock` counts nanoseconds in a signed integer of 64 bits, and so do its time
points and durations.  Arithmetic on them wraps.
-/

namespace Koroutine

namespace Clock

/-- The value of a signed integer of 64 bits. -/
def wrap (x : ℤ) : ℤ := x.bmod (2 ^ 64)

/-- A number of milliseconds in nanoseconds. -/
def nanoseconds (ms : ℤ) : ℤ := wrap (ms * 1000000)

/-- `Clock::now() + std::chrono::milliseconds(ms)`. -/
def timePoint (now ms : ℤ) : ℤ := wrap (now + nanoseconds ms)

/-- The values of a signed integer of 64 bits. -/
def Fits (x : ℤ) : Prop := -2 ^ 63 ≤ x ∧ x < 2 ^ 63

instance (x : ℤ) : Decidable (Fits x) := inferInstanceAs (Decidable (_ ∧ _))

variable {x now ms : ℤ}

theorem fits_wrap (x : ℤ) :
  Fits (wrap x)
  := by
  unfold wrap Fits
  have hle := Int.le_bmod (x := x) (m := 2 ^ 64) (by decide)
  have hlt := Int.bmod_lt (x := x) (m := 2 ^ 64) (by decide)
  omega

theorem wrap_of_fits (h : Fits x) :
  wrap x = x
  := by
  unfold Fits at h
  apply Int.bmod_eq_of_le
  · omega
  · omega

/-- Wrapping does not make a number larger that is not below the least value. -/
theorem wrap_le (h : -2 ^ 63 ≤ x) :
  wrap x ≤ x
  := by
  by_cases hlt : x < 2 ^ 63
  · rw [wrap_of_fits ⟨h, hlt⟩]
  · have hfits := (fits_wrap x).2
    omega

/-- Nor smaller, if it is not above the greatest value. -/
theorem le_wrap (h : x < 2 ^ 63) :
  x ≤ wrap x
  := by
  by_cases hle : -2 ^ 63 ≤ x
  · rw [wrap_of_fits ⟨hle, h⟩]
  · have hfits := (fits_wrap x).1
    omega

/-- Without an overflow a time point is what it should be. -/
theorem timePoint_of_fits (hms : Fits (ms * 1000000)) (hsum : Fits (now + ms * 1000000)) :
  timePoint now ms = now + ms * 1000000
  := by
  rw [timePoint, nanoseconds, wrap_of_fits hms, wrap_of_fits hsum]

/-- An overflow makes a time point earlier. -/
theorem timePoint_le (hnow : 0 ≤ now) (hms : 0 ≤ ms) :
  timePoint now ms ≤ now + ms * 1000000
  := by
  have hns : nanoseconds ms ≤ ms * 1000000 := by
    apply wrap_le
    omega
  have hfits := (fits_wrap (ms * 1000000)).1
  have hle : timePoint now ms ≤ now + nanoseconds ms := by
    apply wrap_le
    unfold nanoseconds
    omega
  omega

end Clock

end Koroutine
