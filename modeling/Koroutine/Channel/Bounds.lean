import Koroutine.Channel.Basic
import Koroutine.Transition.Run

/-!
# What a channel holds

The buffer never holds more than the capacity.  A reader waits only where there is nothing to read,
and a writer only where there is no room.  Removing an awaiter from the middle of a list changes
none of this, nor does closing the channel, after whose `clean_up` nothing is held any more.
-/

open Transition

namespace Koroutine.Channel

variable {V : Type*} {capacity : ℕ} {s t : State V}

/-- The buffer has its bound, and nobody waits for what is there: a parked reader finds nothing to
read, a parked writer no room. -/
structure Bounded (capacity : ℕ) (s : State V) : Prop where
  room : s.buffer.length ≤ capacity
  readers_wait : s.reader_list ≠ [] → s.buffer = [] ∧ s.writer_list = []
  writers_wait : s.writer_list ≠ [] → s.buffer.length = capacity

/-- The channel is closed and cleaned up, and holds nothing. -/
structure Emptied (s : State V) : Prop where
  inactive : s.is_active = false
  cleaned : s.closing = false
  buffer : s.buffer = []
  reader_list : s.reader_list = []
  writer_list : s.writer_list = []

theorem Bounded.initial :
  Bounded capacity (initial V)
  := by
  constructor <;> simp [Channel.initial]

/-! ### The sections under the lock -/

/-- A section that leaves the buffer and the lists as they are. -/
theorem Bounded.congr (hs : Bounded capacity s) (hbuffer : t.buffer = s.buffer)
    (hreaders : t.reader_list = s.reader_list) (hwriters : t.writer_list = s.writer_list) :
  Bounded capacity t
  := by
  constructor
  · rw [hbuffer]
    apply hs.room
  · rw [hreaders, hbuffer, hwriters]
    apply hs.readers_wait
  · rw [hwriters, hbuffer]
    apply hs.writers_wait

/-- A read takes the next value, which a parked writer replaces, or parks where there is none. -/
theorem Bounded.tryPushReader (hs : Bounded capacity s) (r : Reader) :
  Bounded capacity (tryPushReader s r)
  := by
  unfold Channel.tryPushReader
  split
  · apply hs.congr <;> rfl
  · split
    · rename_i v buffer w writers hb hw
      have hfull : buffer.length + 1 = capacity := by simpa [hb, hw] using hs.writers_wait
      have hnone : s.reader_list = [] := by simpa [hb] using hs.readers_wait
      constructor
      · simp [State.refill, hfull]
      · intro hne
        apply absurd hnone hne
      · intro _
        simpa [State.refill] using hfull
    · rename_i v buffer hb hw
      have hnone : s.reader_list = [] := by simpa [hb] using hs.readers_wait
      have hroom := hs.room
      rw [hb, List.length_cons] at hroom
      constructor
      · apply Nat.le_of_succ_le hroom
      · intro hne
        apply absurd hnone hne
      · intro hne
        apply absurd hw hne
    · rename_i w writers hb hw
      have hnone : s.reader_list = [] := by simpa [hw] using hs.readers_wait
      constructor
      · apply hs.room
      · intro hne
        apply absurd hnone hne
      · intro _
        apply hs.writers_wait
        simp [hw]
    · rename_i hb hw
      constructor
      · apply hs.room
      · intro _
        exact ⟨hb, hw⟩
      · intro hne
        apply absurd hw hne

/-- A write hands its value to a parked reader, or buffers it, or parks where there is no room. -/
theorem Bounded.tryPushWriter (hs : Bounded capacity s) (w : Writer V) :
  Bounded capacity (tryPushWriter capacity s w)
  := by
  unfold Channel.tryPushWriter
  split
  · apply hs.congr <;> rfl
  · split
    · rename_i r readers hr
      have hempty : s.buffer = [] ∧ s.writer_list = [] := by
        apply hs.readers_wait
        simp [hr]
      constructor
      · apply hs.room
      · intro _
        apply hempty
      · intro hne
        apply absurd hempty.2 hne
    · rename_i hr
      split
      · rename_i hlt
        constructor
        · simpa [State.put, Nat.succ_le_iff] using hlt
        · intro hne
          apply absurd hr hne
        · intro hne
          have := hs.writers_wait hne
          omega
      · rename_i hge
        constructor
        · apply hs.room
        · intro hne
          apply absurd hr hne
        · intro _
          apply Nat.le_antisymm hs.room (Nat.le_of_not_lt hge)

/-- A call of `resume` changes none of the containers. -/
theorem Bounded.call (hs : Bounded capacity s) (c : Call V) :
  Bounded capacity (s.call c)
  := by
  cases c <;> apply hs.congr <;> rfl

/-- `clean_up` leaves nothing. -/
theorem bounded_cleanUp (s : State V) :
  Bounded capacity (cleanUp s)
  := by
  constructor <;> simp [cleanUp]

/-- Every step preserves `Bounded`. -/
theorem Bounded.step {a : Label V} (hs : Bounded capacity s) (h : step capacity s a = some t) :
  Bounded capacity t
  := by
  cases a with
  | try_push_reader r =>
      simp only [Channel.step, Option.ite_none_left_eq_some, Option.some.injEq] at h
      obtain ⟨-, rfl⟩ := h
      apply hs.tryPushReader
  | try_push_writer w =>
      simp only [Channel.step, Option.ite_none_left_eq_some, Option.some.injEq] at h
      obtain ⟨-, rfl⟩ := h
      apply hs.tryPushWriter
  | resume k =>
      simp only [Channel.step] at h
      split at h
      · rename_i c calls hk
        obtain rfl := Option.some.inj h
        apply Bounded.call
        apply hs.congr <;> rfl
      · contradiction
  | await_resume a =>
      simp only [Channel.step, Option.ite_none_right_eq_some, Option.some.injEq] at h
      obtain ⟨-, rfl⟩ := h
      apply hs.congr <;> rfl
  | close =>
      simp only [Channel.step, Option.ite_none_right_eq_some, Option.some.injEq] at h
      obtain ⟨-, rfl⟩ := h
      apply hs.congr <;> rfl
  | clean_up =>
      simp only [Channel.step, Option.ite_none_right_eq_some, Option.some.injEq] at h
      obtain ⟨-, rfl⟩ := h
      apply bounded_cleanUp
  | remove_reader r =>
      obtain rfl := Option.some.inj h
      constructor
      · apply hs.room
      · intro hne
        apply hs.readers_wait
        intro hnil
        apply hne
        simp [hnil]
      · apply hs.writers_wait
  | remove_writer w =>
      obtain rfl := Option.some.inj h
      constructor
      · apply hs.room
      · intro hne
        have hempty := hs.readers_wait hne
        simp [hempty]
      · intro hne
        apply hs.writers_wait
        intro hnil
        apply hne
        simp [hnil]

/-! ### After `clean_up` -/

/-- `clean_up` resumes awaiters and empties the containers, and changes nothing else. -/
theorem exists_cleanUp (s : State V) :
  ∃ resumes, cleanUp s = { s with
    closing := false, buffer := [], writer_list := [], reader_list := [], resumes := resumes }
  := by
  have hwriters : ∀ (ws : List (Writer V)) (s : State V),
      ∃ resumes, ws.foldl (fun t w => t.call (.writer w.id)) s = { s with resumes := resumes } := by
    intro ws
    induction ws with
    | nil =>
        intro s
        exact ⟨s.resumes, rfl⟩
    | cons w ws ih =>
        intro s
        obtain ⟨resumes, hfold⟩ := ih (s.call (.writer w.id))
        exact ⟨resumes, hfold⟩
  have hreaders : ∀ (rs : List Reader) (s : State V),
      ∃ resumes, rs.foldl State.wake s = { s with resumes := resumes } := by
    intro rs
    induction rs with
    | nil =>
        intro s
        exact ⟨s.resumes, rfl⟩
    | cons r rs ih =>
        intro s
        obtain ⟨resumes, hfold⟩ := ih (s.wake r)
        exact ⟨resumes, hfold⟩
  obtain ⟨resumes, hw⟩ := hwriters s.writer_list s
  obtain ⟨resumes', hr⟩ := hreaders s.reader_list { s with resumes := resumes }
  use resumes'
  rw [cleanUp, hw, hr]

/-- `clean_up` of a closed channel leaves it closed and empty. -/
theorem Emptied.cleanUp (h : s.is_active = false) :
  Emptied (cleanUp s)
  := by
  obtain ⟨resumes, heq⟩ := exists_cleanUp s
  rw [heq]
  exact ⟨h, rfl, rfl, rfl, rfl⟩

/-- Only a closed channel is cleaned up. -/
theorem closing_step {a : Label V} (hs : s.closing = true → s.is_active = false)
    (h : step capacity s a = some t) :
  t.closing = true → t.is_active = false
  := by
  cases a with
  | try_push_reader r =>
      simp only [step, Option.ite_none_left_eq_some, Option.some.injEq] at h
      obtain ⟨-, rfl⟩ := h
      simpa using hs
  | try_push_writer w =>
      simp only [step, Option.ite_none_left_eq_some, Option.some.injEq] at h
      obtain ⟨-, rfl⟩ := h
      simpa using hs
  | resume k =>
      simp only [step] at h
      split at h
      · rename_i c calls hk
        obtain rfl := Option.some.inj h
        cases c <;> apply hs
      · contradiction
  | await_resume a =>
      simp only [step, Option.ite_none_right_eq_some, Option.some.injEq] at h
      obtain ⟨-, rfl⟩ := h
      apply hs
  | close =>
      simp only [step, Option.ite_none_right_eq_some, Option.some.injEq] at h
      obtain ⟨-, rfl⟩ := h
      intro _
      rfl
  | clean_up =>
      simp only [step, Option.ite_none_right_eq_some, Option.some.injEq] at h
      obtain ⟨-, rfl⟩ := h
      intro hclosing
      contradiction
  | remove_reader r | remove_writer w =>
      obtain rfl := Option.some.inj h
      apply hs

/-- Every step of a channel that is cleaned up leaves it empty. -/
theorem Emptied.step {a : Label V} (hs : Emptied s) (h : step capacity s a = some t) :
  Emptied t
  := by
  obtain ⟨hinactive, hcleaned, hbuffer, hreaders, hwriters⟩ := hs
  cases closedEffect_step hinactive h with
  | refuse ha hnew => exact ⟨hinactive, hcleaned, hbuffer, hreaders, hwriters⟩
  | @resume k c calls hk =>
      cases c <;> exact ⟨hinactive, hcleaned, hbuffer, hreaders, hwriters⟩
  | awaitResume hresumed hnone => exact ⟨hinactive, hcleaned, hbuffer, hreaders, hwriters⟩
  | cleanUp hclosing => apply Emptied.cleanUp hinactive
  | removeReader r => exact ⟨hinactive, hcleaned, hbuffer, by simp [hreaders], hwriters⟩
  | removeWriter w => exact ⟨hinactive, hcleaned, hbuffer, hreaders, by simp [hwriters]⟩

/-- What a channel holds, after the steps `as`. -/
structure Holds (capacity : ℕ) (as : List (Label V)) (s : State V) : Prop where
  room : s.buffer.length ≤ capacity
  readers_wait : s.reader_list ≠ [] → s.buffer = [] ∧ s.writer_list = []
  writers_wait : s.writer_list ≠ [] → s.buffer.length = capacity
  emptied : .clean_up ∈ as → s.buffer = [] ∧ s.reader_list = [] ∧ s.writer_list = []

/-- In every run the buffer keeps to its bound, nobody waits for what is there, and after
`clean_up` the channel is and stays empty. -/
theorem holds_of_run {as : List (Label V)} (h : Run (step capacity) Free (initial V) as t) :
  Holds capacity as t
  := by
  have hbounded : Bounded capacity t := by
    apply h.invariant (Bounded capacity) _ Bounded.initial
    intro s a u hs _ e
    apply hs.step e
  constructor
  · apply hbounded.room
  · apply hbounded.readers_wait
  · apply hbounded.writers_wait
  · intro hclean
    have hemptied : Emptied t := by
      apply h.of_mem (I := fun s => s.closing = true → s.is_active = false) _ _ _ _ hclean
      · intro s a u hs _ e
        apply closing_step hs e
      · intro s u hs e
        simp only [step, Option.ite_none_right_eq_some, Option.some.injEq] at e
        obtain ⟨hclosing, rfl⟩ := e
        apply Emptied.cleanUp (hs hclosing)
      · intro s a u hs e
        apply hs.step e
      · intro hclosing
        contradiction
    exact ⟨hemptied.buffer, hemptied.reader_list, hemptied.writer_list⟩

/-- A channel of capacity one with two parked writers, of which the second is destroyed before the
channel is closed and read once more. -/
theorem holds_closed :
  ∃ as t, Run (step 1) Free (initial ℕ) as t ∧ .clean_up ∈ as ∧
    t.written = [⟨0, 10⟩, ⟨1, 11⟩, ⟨2, 12⟩] ∧ Holds 1 as t
  := by
  obtain ⟨t, hrun, hwritten⟩ : ∃ t, Run (step 1) Free (initial ℕ)
      [.try_push_writer ⟨0, 10⟩, .try_push_writer ⟨1, 11⟩, .try_push_writer ⟨2, 12⟩,
        .remove_writer 2, .close, .try_push_reader 0, .clean_up, .try_push_reader 1] t ∧
      t.written = [⟨0, 10⟩, ⟨1, 11⟩, ⟨2, 12⟩] := by
    apply exists_run_of_exec
    decide
  exact ⟨_, t, hrun, by simp, hwritten, holds_of_run hrun⟩

end Koroutine.Channel
