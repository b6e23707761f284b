import Mathlib.Data.List.Infix
import Mathlib.Tactic.Common

/-!
# Sources of a sequence

A `Source` hands out a finite sequence piece by piece.  Whoever reads from it says how much it takes
at most, and the source decides how much of that it gives.  What is left of the sequence, `rest`, is
part of no program: it is what the results about programs that read are stated in.

A receiver that takes the pieces one after another is `Additive` when it does not see where they were
cut.  `cutAfter` cuts a list after the first element with a property.
-/

universe u v w

namespace Sequence

/-- Something that sequences are read from.  A read gives `none` when it fails. -/
structure Source (α : Type u) (σ : Type v) where
  read : σ → ℕ → Option (List α) × σ
  /-- What the reads to come give, until the first that fails or finds the end. -/
  rest : σ → List α
  read_length : ∀ {s t : σ} {n : ℕ} {data : List α}, read s n = (some data, t) → data.length ≤ n
  read_rest : ∀ {s t : σ} {n : ℕ} {data : List α},
    read s n = (some data, t) → rest s = data ++ rest t
  read_end : ∀ {s t : σ} {n : ℕ}, 0 < n → read s n = (some [], t) → rest s = []
  read_failed : ∀ {s t : σ} {n : ℕ}, read s n = (none, t) → rest s = [] ∧ rest t = []

namespace Source

variable {α : Type u} {σ : Type v} {S : Source α σ} {s t : σ} {n : ℕ}

/-- A piece that is not empty is taken from what is left. -/
theorem rest_length_lt {a : α} {data : List α} (h : S.read s n = (some (a :: data), t)) :
  (S.rest t).length < (S.rest s).length
  := by
  rw [S.read_rest h, List.length_append]
  simp

/-- At the end nothing is left. -/
theorem rest_eq_nil (h : S.read s n = (some [], t)) (hn : 0 < n) :
  S.rest s = [] ∧ S.rest t = []
  := by
  have hs := S.read_end hn h
  constructor
  · apply hs
  · rw [S.read_rest h] at hs
    simpa using hs

end Source

/-! ### Receivers -/

variable {α : Type u} {p : α → Bool} {a b : List α}

/-- A list cut after the first element with a property, or after its end. -/
def cutAfter (p : α → Bool) : List α → List α × List α
  | [] => ([], [])
  | x :: l => if p x then ([x], l) else (x :: (cutAfter p l).1, (cutAfter p l).2)

@[simp]
theorem cutAfter_nil :
  cutAfter p [] = ([], [])
  := rfl

theorem cutAfter_append_self (l : List α) :
  (cutAfter p l).1 ++ (cutAfter p l).2 = l
  := by
  induction l with
  | nil => rfl
  | cons x l ih =>
      rw [cutAfter]
      split
      · rfl
      · rw [List.cons_append, ih]

/-- The part before the first element with the property goes to the front. -/
theorem cutAfter_append (h : ∀ x ∈ a, p x = false) :
  cutAfter p (a ++ b) = (a ++ (cutAfter p b).1, (cutAfter p b).2)
  := by
  induction a with
  | nil => rfl
  | cons x a ih =>
      rw [List.forall_mem_cons] at h
      rw [List.cons_append, cutAfter, if_neg (by simp [h.1]), ih h.2]
      rfl

/-- A list that has such an element is cut there, whatever is put behind it. -/
theorem cutAfter_append_of_mem {x : α} (hmem : x ∈ a) (hx : p x = true) :
  cutAfter p (a ++ b) = ((cutAfter p a).1, (cutAfter p a).2 ++ b)
  := by
  induction a with
  | nil => simp at hmem
  | cons y a ih =>
      rw [List.cons_append, cutAfter, cutAfter]
      split
      · rfl
      · next hy =>
        rcases List.mem_cons.mp hmem with rfl | hmem'
        · exact absurd hx hy
        · rw [ih hmem']

theorem cutAfter_fst_eq_nil {l : List α} :
  (cutAfter p l).1 = [] ↔ l = []
  := by
  cases l with
  | nil => simp
  | cons x l =>
      rw [cutAfter]
      split <;> simp

end Sequence
