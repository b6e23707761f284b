import Mathlib.Data.List.MinMax
import Mathlib.Data.List.Perm.Basic
import Mathlib.Tactic.Use
import Mathlib.Tactic.Common

/-!
# Priority queues

A priority queue is a list whose first element has the least key.  An element that is pushed becomes
the top only if its key is less than that of the top.  When the top is popped, which of the other
elements of least key comes next depends on how the queue is kept; an index resolves it.
-/

namespace Sequence

/-- The elements, one of least key first. -/
structure PriorityQueue {α κ : Type*} [LinearOrder κ] (key : α → κ) where
  items : List α
  least : ∀ x ∈ items.head?, ∀ y ∈ items, key x ≤ key y

namespace PriorityQueue

variable {α κ : Type*} [LinearOrder κ] {key : α → κ} {q r : PriorityQueue key} {x y : α} {k : ℕ}

def empty : PriorityQueue key where
  items := []
  least := by simp

def isEmpty (q : PriorityQueue key) : Bool := q.items.isEmpty

def top (q : PriorityQueue key) : Option α := q.items.head?

/-- An element comes first, or behind the first one. -/
def insert (key : α → κ) (x : α) : List α → List α
  | [] => [x]
  | y :: ys => if key x < key y then x :: y :: ys else y :: x :: ys

theorem insert_perm (l : List α) :
  (insert key x l).Perm (x :: l)
  := by
  cases l with
  | nil => apply List.Perm.refl
  | cons y ys =>
      rw [insert]
      split
      · apply List.Perm.refl
      · apply List.Perm.swap

theorem insert_least {l : List α} (h : ∀ z ∈ l.head?, ∀ y ∈ l, key z ≤ key y) :
  ∀ z ∈ (insert key x l).head?, ∀ y ∈ insert key x l, key z ≤ key y
  := by
  intro z hz y hy
  obtain hx | hmem := List.mem_cons.mp ((insert_perm l).mem_iff.mp hy)
  · subst hx
    cases l with
    | nil =>
        obtain rfl : y = z := by simpa [insert] using hz
        apply le_refl
    | cons w ws =>
        rw [insert] at hz
        split at hz
        · obtain rfl : y = z := by simpa using hz
          apply le_refl
        · next hlt =>
            obtain rfl : w = z := by simpa using hz
            apply not_lt.mp hlt
  · cases l with
    | nil => contradiction
    | cons w ws =>
        have hw := h w rfl y hmem
        rw [insert] at hz
        split at hz
        · next hlt =>
            obtain rfl : x = z := by simpa using hz
            apply hlt.le.trans hw
        · obtain rfl : w = z := by simpa using hz
          apply hw

def push (q : PriorityQueue key) (x : α) : PriorityQueue key where
  items := insert key x q.items
  least := insert_least q.least

/-- The top is removed, and the `k`-th of the others becomes the top, if it can. -/
def pop (q : PriorityQueue key) (k : ℕ) : Option (PriorityQueue key) :=
  match h : q.items.tail[k]? with
  | none => if q.items.tail = [] then some empty else none
  | some x =>
      if hleast : ∀ y ∈ q.items.tail, key x ≤ key y then
        some ⟨x :: q.items.tail.eraseIdx k, by
          simp only [List.head?_cons, Option.mem_some_iff, forall_eq', List.mem_cons,
            forall_eq_or_imp, le_refl, true_and]
          intro y hy
          apply hleast y (List.mem_of_mem_eraseIdx hy)⟩
      else none

theorem isEmpty_iff :
  q.isEmpty = true ↔ q.items = []
  := List.isEmpty_iff

theorem top_eq_none :
  q.top = none ↔ q.items = []
  := List.head?_eq_none_iff

theorem mem_of_top (h : q.top = some x) :
  x ∈ q.items
  := List.mem_of_mem_head? h

theorem top_le (h : q.top = some x) (hy : y ∈ q.items) :
  key x ≤ key y
  := q.least x h y hy

theorem push_perm :
  (q.push x).items.Perm (x :: q.items)
  := insert_perm q.items

theorem push_ne_nil :
  (q.push x).items ≠ []
  := by
  apply List.ne_nil_of_mem
  apply push_perm.mem_iff.mpr List.mem_cons_self

/-- The top is removed, and nothing else. -/
theorem pop_perm (h : q.pop k = some r) (hx : q.top = some x) :
  q.items.Perm (x :: r.items)
  := by
  have hcons : q.items = x :: q.items.tail := (List.cons_head?_tail hx).symm
  unfold pop at h
  split at h
  · obtain ⟨hnil, heq⟩ := Option.ite_none_right_eq_some.mp h
    obtain rfl := Option.some.inj heq
    rw [hcons, hnil]
    apply List.Perm.refl
  · next y hy =>
      split at h
      · obtain rfl := Option.some.inj h
        obtain ⟨hk, rfl⟩ := List.getElem?_eq_some_iff.mp hy
        have hperm := (List.getElem_cons_eraseIdx_perm hk).symm.cons x
        rw [← hcons] at hperm
        apply hperm
      · contradiction

/-- Some element can become the top. -/
theorem exists_pop (q : PriorityQueue key) :
  ∃ k r, q.pop k = some r
  := by
  cases hmin : q.items.tail.argmin key with
  | none =>
      have hnil := List.argmin_eq_none.mp hmin
      use 0, empty
      unfold pop
      split
      · rw [if_pos hnil]
      · next h => simp [hnil] at h
  | some x =>
      obtain ⟨k, hk⟩ := List.mem_iff_getElem?.mp (List.argmin_mem hmin)
      have hleast : ∀ y ∈ q.items.tail, key x ≤ key y := by
        intro y hy
        apply List.le_of_mem_argmin hy hmin
      use k
      unfold pop
      split
      · next h => simp [h] at hk
      · next z h =>
          obtain rfl : z = x := by simpa [h] using hk
          rw [dif_pos hleast]
          exact ⟨_, rfl⟩

end PriorityQueue

end Sequence
