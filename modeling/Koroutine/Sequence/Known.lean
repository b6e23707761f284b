import Mathlib.Data.List.Basic
import Mathlib.Tactic.Common

/-!
# What is known of a sequence

A sequence that is produced element by element, and may go on for ever, is known by its first
elements, and possibly by its end.  `Known` is such a piece of knowledge, and `j.Le k` says that `j`
is part of `k`.

A `Transducer` goes through a sequence, and makes another of it as it goes.  More is known of the
result where more is known of the sequence (`Transducer.run_mono`), and the elements that are known
of the result are those that the transducer makes of the list of elements known
(`Transducer.values_run`).
-/

universe u v w

namespace Sequence

/-- What is known of a sequence: nothing, that it ends here, or an element and what is known of the
rest. -/
inductive Known (α : Type u)
  | unknown
  | ended
  | cons (a : α) (rest : Known α)

variable {α : Type u} {β : Type v}

namespace Known

/-- The elements known. -/
def values : Known α → List α
  | .unknown | .ended => []
  | .cons a k => a :: k.values

/-- The end is known. -/
def isEnded : Known α → Bool
  | .unknown => false
  | .ended => true
  | .cons _ k => k.isEnded

/-- All of a list. -/
def ofList : List α → Known α
  | [] => .ended
  | a :: l => .cons a (ofList l)

/-- Elements in front of what is known. -/
def append (k : Known α) : List α → Known α
  | [] => k
  | a :: l => .cons a (k.append l)

/-- Every element replaced by those of a list. -/
def flatMap (f : α → List β) : Known α → Known β
  | .unknown => .unknown
  | .ended => .ended
  | .cons a k => (k.flatMap f).append (f a)

/-- The first is part of the second. -/
inductive Le : Known α → Known α → Prop
  | unknown (k : Known α) : Le .unknown k
  | ended : Le .ended .ended
  | cons {j k : Known α} (a : α) (rest : Le j k) : Le (.cons a j) (.cons a k)

theorem Le.refl : (k : Known α) → k.Le k
  | .unknown => .unknown _
  | .ended => .ended
  | .cons a k => .cons a (Le.refl k)

theorem Le.trans {j k l : Known α} (h : j.Le k) (h' : k.Le l) :
  j.Le l
  := by
  induction h generalizing l with
  | unknown => apply Le.unknown
  | ended => apply h'
  | cons a _ ih =>
      cases h' with
      | cons _ hrest => apply Le.cons a (ih hrest)

theorem Le.append {j k : Known α} (h : j.Le k) :
  ∀ l : List α, (j.append l).Le (k.append l)
  | [] => h
  | a :: l => .cons a (h.append l)

theorem Le.flatMap {j k : Known α} (f : α → List β) (h : j.Le k) :
  (j.flatMap f).Le (k.flatMap f)
  := by
  induction h with
  | unknown => apply Le.unknown
  | ended => apply Le.ended
  | cons a _ ih => apply ih.append

@[simp] theorem values_ofList (l : List α) :
  (ofList l).values = l
  := by
  induction l with
  | nil => rfl
  | cons a l ih => rw [ofList, values, ih]

@[simp] theorem isEnded_ofList (l : List α) :
  (ofList l).isEnded = true
  := by
  induction l with
  | nil => rfl
  | cons a l ih => rw [ofList, isEnded, ih]

theorem ofList_ne_unknown {l : List α} :
  ofList l ≠ .unknown
  := by
  cases l <;> simp [ofList]

/-- What ends is known as the list of its elements. -/
theorem ofList_values : ∀ {k : Known α}, k.isEnded = true → ofList k.values = k
  | .ended, _ => rfl
  | .cons a k, h => by rw [values, ofList, ofList_values (k := k) h]

@[simp] theorem values_append (k : Known α) (l : List α) :
  (k.append l).values = l ++ k.values
  := by
  induction l with
  | nil => rfl
  | cons a l ih => rw [append, values, ih, List.cons_append]

@[simp] theorem isEnded_append (k : Known α) (l : List α) :
  (k.append l).isEnded = k.isEnded
  := by
  induction l with
  | nil => rfl
  | cons a l ih => rw [append, isEnded, ih]

theorem values_flatMap (f : α → List β) (k : Known α) :
  (k.flatMap f).values = k.values.flatMap f
  := by
  induction k with
  | unknown | ended => rfl
  | cons a k ih => rw [flatMap, values_append, ih, values, List.flatMap_cons]

theorem isEnded_flatMap (f : α → List β) (k : Known α) :
  (k.flatMap f).isEnded = k.isEnded
  := by
  induction k with
  | unknown | ended => rfl
  | cons a k ih => rw [flatMap, isEnded_append, ih, isEnded]

end Known

/-! ### Transducers -/

/-- What is done with an element: another is made of it, none is, or the sequence ends. -/
inductive Verdict (σ : Type w) (β : Type v)
  | yield (b : β) (s : σ)
  | skip (s : σ)
  | stop

/-- A way to go through a sequence with a state: whether to look for an element, which itself may
change the state, and what to do with it. -/
structure Transducer (σ : Type w) (α : Type u) (β : Type v) where
  guard : σ → Bool × σ
  body : α → σ → Verdict σ β

namespace Transducer

variable {σ : Type w} (t : Transducer σ α β)

/-- What is known of the result. -/
def run : σ → Known α → Known β
  | s, .unknown => if (t.guard s).1 then .unknown else .ended
  | _, .ended => .ended
  | s, .cons a k =>
      if (t.guard s).1 then
        match t.body a (t.guard s).2 with
        | .yield b s => .cons b (run s k)
        | .skip s => run s k
        | .stop => .ended
      else .ended

/-- The elements made of those of a list. -/
def runList : σ → List α → List β
  | _, [] => []
  | s, a :: l =>
      if (t.guard s).1 then
        match t.body a (t.guard s).2 with
        | .yield b s => b :: runList s l
        | .skip s => runList s l
        | .stop => []
      else []

/-- Where the guard does not let the transducer go on, the result ends. -/
theorem run_of_guard {s : σ} (h : (t.guard s).1 = false) (k : Known α) :
  t.run s k = .ended
  := by
  cases k <;> simp [run, h]

/-- More is known of the result where more is known of the sequence. -/
theorem run_mono {j k : Known α} (h : j.Le k) (s : σ) :
  (t.run s j).Le (t.run s k)
  := by
  induction h generalizing s with
  | unknown k =>
      cases hguard : (t.guard s).1 with
      | true =>
          rw [run, hguard]
          apply Known.Le.unknown
      | false =>
          rw [run_of_guard t hguard, run_of_guard t hguard]
          apply Known.Le.ended
  | ended => apply Known.Le.ended
  | cons a _ ih =>
      unfold run
      split
      · split
        · apply Known.Le.cons _ (ih _)
        · apply ih
        · apply Known.Le.ended
      · apply Known.Le.ended

/-- The elements known of the result are made of the elements known. -/
theorem values_run (s : σ) (k : Known α) :
  (t.run s k).values = t.runList s k.values
  := by
  induction k generalizing s with
  | unknown =>
      unfold run
      split <;> rfl
  | ended => rfl
  | cons a k ih =>
      unfold run
      rw [Known.values, runList]
      split
      · split
        · rw [Known.values, ih]
        · apply ih
        · rfl
      · rfl

/-- The result of a sequence that ends ends. -/
theorem isEnded_run {k : Known α} (h : k.isEnded = true) (s : σ) :
  (t.run s k).isEnded = true
  := by
  induction k generalizing s with
  | unknown => contradiction
  | ended => rfl
  | cons a k ih =>
      unfold run
      split
      · split
        · apply ih h
        · apply ih h
        · rfl
      · rfl

end Transducer

end Sequence
