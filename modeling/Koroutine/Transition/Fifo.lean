import Koroutine.Transition.Run
import Mathlib.Data.List.Infix
import Mathlib.Data.List.Nodup

/-!
# First in, first out

A queue with its history: what has been pushed, what has been popped, and what is in the queue.
In every run from the empty queue the popped elements followed by the queue are the pushed ones,
in their order: nothing is lost, duplicated or overtaken.
-/

universe u

namespace Transition

/-- A queue and its history. -/
structure Fifo (α : Type u) where
  pushed : List α
  popped : List α
  queue : List α

namespace Fifo

variable {α : Type u}

/-- The operations on a queue. -/
inductive Label (α : Type u)
  | push (a : α)
  | pop

/-- The step function of a queue. -/
def step (s : Fifo α) : Label α → Option (Fifo α)
  | .push a => some { s with pushed := s.pushed ++ [a], queue := s.queue ++ [a] }
  | .pop =>
      match s.queue with
      | [] => none
      | a :: queue => some { s with popped := s.popped ++ [a], queue := queue }

/-- What has been popped, followed by the queue, is what has been pushed. -/
def Conserved (s : Fifo α) : Prop :=
  s.popped ++ s.queue = s.pushed

theorem Conserved.step {s t : Fifo α} {a : Label α} (hs : s.Conserved) (h : s.step a = some t) :
  t.Conserved
  := by
  unfold Conserved at hs ⊢
  cases a with
  | push a =>
      obtain rfl := Option.some.inj h
      rw [← hs, List.append_assoc]
  | pop =>
      cases hq : s.queue with
      | nil => simp [Fifo.step, hq] at h
      | cons a queue =>
          simp only [Fifo.step, hq, Option.some.injEq] at h
          subst h
          rw [← hs, hq, List.append_assoc, List.singleton_append]

/-- In a run elements leave the queue in the order in which they entered it. -/
theorem conserved_of_run {P : Fifo α → Label α → Fifo α → Prop} {s t : Fifo α}
    {as : List (Label α)} (h : Run step P s as t) (hs : s.Conserved) :
  t.Conserved
  := by
  apply h.invariant Conserved _ hs
  intro s a t hs _ e
  apply hs.step e

/-- From one state of a queue to a later one: what has been popped in between, followed by what is
in the queue now, is what was in the queue then, followed by what has been pushed in between. -/
def Moved (s t : Fifo α) : Prop :=
  ∃ popped pushed, t.popped = s.popped ++ popped ∧ t.pushed = s.pushed ++ pushed ∧
    popped ++ t.queue = s.queue ++ pushed

theorem Moved.refl (s : Fifo α) :
  Moved s s
  := by
  use [], []
  simp

theorem Moved.step {s t u : Fifo α} {a : Label α} (h : Moved s t) (hstep : t.step a = some u) :
  Moved s u
  := by
  obtain ⟨popped, pushed, hpopped, hpushed, hqueue⟩ := h
  cases a with
  | push a =>
      obtain rfl := Option.some.inj hstep
      use popped, pushed ++ [a], hpopped
      constructor
      · rw [hpushed, List.append_assoc]
      · rw [← List.append_assoc, hqueue, List.append_assoc]
  | pop =>
      cases hq : t.queue with
      | nil => simp [Fifo.step, hq] at hstep
      | cons a queue =>
          simp only [Fifo.step, hq, Option.some.injEq] at hstep
          subst hstep
          use popped ++ [a], pushed
          constructor
          · rw [hpopped, List.append_assoc]
          · use hpushed
            rw [← hqueue, hq, List.append_assoc, List.singleton_append]

/-- A run continues what has been moved. -/
theorem Moved.run {P : Fifo α → Label α → Fifo α → Prop} {s t u : Fifo α} {as : List (Label α)}
    (h : Moved s t) (hrun : Run Fifo.step P t as u) :
  Moved s u
  := by
  apply hrun.invariant (Moved s) _ h
  intro t a u ht _ e
  apply ht.step e

/-- What the queue holds are the last elements pushed: an element pushed before one that has left
the queue has left it, too. -/
theorem left_before {pushed pushed' queue : List α} {a b : α}
    (h : queue <:+ pushed ++ a :: pushed') (hnodup : (pushed ++ a :: pushed').Nodup)
    (ha : a ∉ queue) (hb : b ∈ pushed) :
  b ∉ queue
  := by
  have hsuffix : a :: pushed' <:+ pushed ++ a :: pushed' := List.suffix_append ..
  obtain hlt | hle := Nat.lt_or_ge queue.length (a :: pushed').length
  · have hrest : queue <:+ a :: pushed' := List.suffix_of_suffix_length_le h hsuffix hlt.le
    intro hb'
    apply (List.disjoint_of_nodup_append hnodup) hb (hrest.subset hb')
  · have hmem : a ∈ queue :=
      (List.suffix_of_suffix_length_le hsuffix h hle).subset List.mem_cons_self
    contradiction

end Fifo

end Transition
