import Mathlib.Algebra.Ring.Nat

/-!
# What the combinators share

`join_all`, `when_all` and `when_any` wrap every task in a coroutine of their own.  The first
two count the unfinished wrappers in an atomic `remaining`.
-/

namespace Koroutine

/-- `std::atomic<size_t>::fetch_sub(1)` on the stored value. -/
def fetchSub (x : ℕ) : ℕ := if x = 0 then 2 ^ 64 - 1 else x - 1

@[simp]
theorem fetchSub_succ (x : ℕ) :
  fetchSub (x + 1) = x
  := rfl

/-- The two overloads of `join_all` and of `when_all`: over a parameter pack and over a
vector. -/
inductive Overload
  | variadic
  | vector
  deriving DecidableEq

end Koroutine
