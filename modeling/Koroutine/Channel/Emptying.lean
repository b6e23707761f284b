import Koroutine.Channel.Closing
import Koroutine.Channel.Order
import Mathlib.Data.List.Perm.Subperm

/-!
# `close_when_empty`

`close_when_empty` looks into the buffer every `check_interval_ms` until it finds it empty, or has
waited for `timeout`, and then calls `close`.  Values are in two places, the buffer and the list of
parked writers, and it looks into the first only; and between its look and the call of `close`,
which takes the lock once more, a write may come.  What is in the channel at the call is discarded.

Reads and writes go on all the time, as the steps of the channel that are `Undisturbed`.
-/

open Transition

namespace Koroutine.Channel

variable {V : Type*} {capacity : ℕ}

namespace Emptying

/-- Where `close_when_empty` is: not called, yielding until `wake`, at the condition of its loop, at
the section that looks into the buffer, sleeping until `wake`, at the check of the timeout behind
the loop, at the call of `close`, in its `clean_up`, or returned. -/
inductive Pc
  | uncalled
  | yielding (wake : ℕ)
  | looping
  | testing
  | sleeping (wake : ℕ)
  | checking
  | closing
  | cleaning
  | returned (r : ℤ)
  deriving DecidableEq

/-- The channel, where `close_when_empty` is, the time in milliseconds, and `end_time`, `none` for
the greatest point in time. -/
structure State (V : Type*) where
  channel : Channel.State V
  pc : Pc
  now : ℕ
  end_time : Option ℕ

/-- The steps: a read or a write on the channel, a millisecond passes, `close_when_empty` goes on.
-/
inductive Label (V : Type*)
  | channel (a : Channel.Label V)
  | tick
  | advance
  deriving DecidableEq

/-- `close_when_empty` is about to be called on a channel. -/
def start (c : Channel.State V) : State V where
  channel := c
  pc := .uncalled
  now := 0
  end_time := none

/-- `std::chrono::steady_clock::now() >= end_time` -/
def State.expired (s : State V) : Bool :=
  s.end_time.any (· ≤ s.now)

/-- The next step of `close_when_empty`. -/
def advance (capacity : ℕ) (timeout check_interval_ms : ℤ) (s : State V) : Option (State V) :=
  match s.pc with
  | .uncalled => some { s with pc := .yielding s.now }
  | .yielding wake =>
      if wake ≤ s.now then
        some { s with
          pc := .looping
          end_time := if 0 ≤ timeout then some (s.now + timeout.toNat) else none }
      else none
  | .looping =>
      some { s with pc := if timeout < 0 ∨ s.expired = false then .testing else .checking }
  | .testing =>
      some { s with
        pc := if s.channel.buffer.isEmpty then .checking
          else .sleeping (s.now + check_interval_ms.toNat) }
  | .sleeping wake => if wake ≤ s.now then some { s with pc := .looping } else none
  | .checking =>
      some { s with pc := if timeout ≠ -1 ∧ s.expired = true then .returned (-1) else .closing }
  | .closing =>
      match Channel.step capacity s.channel .close with
      | some c => some { s with channel := c, pc := .cleaning }
      | none => some { s with pc := .returned 0 }
  | .cleaning =>
      (Channel.step capacity s.channel .clean_up).map fun c =>
        { s with channel := c, pc := .returned 0 }
  | .returned _ => none

/-- The step function of a channel that is read and written while `close_when_empty` runs. -/
def step (capacity : ℕ) (timeout check_interval_ms : ℤ) (s : State V) :
    Label V → Option (State V)
  | .channel a =>
      if Undisturbed s.channel a then
        (Channel.step capacity s.channel a).map fun c => { s with channel := c }
      else none
  | .tick => some { s with now := s.now + 1 }
  | .advance => advance capacity timeout check_interval_ms s

/-- Nothing is lost: the values that were in the channel `c` at the call, and those written since,
have been handed to readers since. -/
def AllHanded (c t : Channel.State V) : Prop :=
  ((values c).queue ++ (t.written.drop c.written.length).map Writer.value).Subperm
    ((t.handed.drop c.handed.length).map Prod.snd)

/-- When `close_when_empty` calls `close`, the buffer and the list of parked writers are empty. -/
def ClosesEmpty (s : State V) (a : Label V) : Prop :=
  s.pc = .closing → a = .advance → s.channel.buffer = [] ∧ s.channel.writer_list = []

/-! ### What the channel holds -/

variable {timeout check_interval_ms : ℤ} {c d e : Channel.State V}

/-- A step that hands nothing over and accepts no write leaves it open what is lost. -/
theorem AllHanded.congr (hhanded : e.handed = d.handed) (hwritten : e.written = d.written) :
  AllHanded c e ↔ AllHanded c d
  := by
  unfold AllHanded
  rw [hhanded, hwritten]

/-- While nothing has been discarded, everything has been handed over if nothing is left. -/
theorem allHanded_iff (h : (values c).Moved (values d)) :
  AllHanded c d ↔ d.buffer = [] ∧ d.writer_list = []
  := by
  obtain ⟨popped, pushed, hpopped, hpushed, hqueue⟩ := h
  have hout : (d.handed.drop c.handed.length).map Prod.snd = popped := by
    have hlength : c.handed.length = (values c).popped.length := by simp [values]
    rw [List.map_drop, hlength]
    simp only [values] at hpopped ⊢
    rw [hpopped, List.drop_left]
  have hin : (d.written.drop c.written.length).map Writer.value = pushed := by
    have hlength : c.written.length = (values c).pushed.length := by simp [values]
    rw [List.map_drop, hlength]
    simp only [values] at hpushed ⊢
    rw [hpushed, List.drop_left]
  have hleft : (values d).queue = [] ↔ d.buffer = [] ∧ d.writer_list = [] := by
    simp [values]
  rw [AllHanded, hout, hin, ← hqueue, ← hleft]
  constructor
  · intro hle
    have hlength := hle.length_le
    rw [List.length_append] at hlength
    apply List.eq_nil_of_length_eq_zero
    omega
  · intro hempty
    rw [hempty, List.append_nil]

/-! ### Before and after the close -/

/-- The channel is open, and nothing has been discarded since the call. -/
structure Open (capacity : ℕ) (c d : Channel.State V) : Prop where
  active : d.is_active = true
  bounded : Bounded capacity d
  moved : (values c).Moved (values d)

theorem Open.step {a : Channel.Label V} (hd : Open capacity c d) (ha : Undisturbed d a)
    (h : Channel.step capacity d a = some e) :
  Open capacity c e
  := by
  have heffect := effect_step hd.active ha h
  obtain ⟨bs, hvalues⟩ := heffect.values hd.bounded
  constructor
  · rw [heffect.is_active, hd.active]
  · apply hd.bounded.step h
  · apply hd.moved.run hvalues

/-- The channel has been closed, and whether everything has been handed over is `P`. -/
structure Closed (c d : Channel.State V) (P : Prop) : Prop where
  inactive : d.is_active = false
  handed : AllHanded c d ↔ P

theorem Closed.step {P : Prop} {a : Channel.Label V} (hd : Closed c d P)
    (h : Channel.step capacity d a = some e) :
  Closed c e P
  := by
  have hrefuses := refuses_step hd.inactive h
  constructor
  · apply hrefuses.inactive
  · rw [AllHanded.congr hrefuses.handed hrefuses.written]
    apply hd.handed

/-- `close` decides what is lost: what the channel holds. -/
theorem Open.close (hd : Open capacity c d) (h : Channel.step capacity d .close = some e) :
  Closed c e (d.buffer = [] ∧ d.writer_list = [])
  := by
  rw [Channel.step, if_pos hd.active] at h
  obtain rfl := Option.some.inj h
  constructor
  · rfl
  · rw [← allHanded_iff hd.moved]
    apply AllHanded.congr rfl rfl

/-- `close_when_empty` has called `close`. -/
def Pc.closed : Pc → Bool
  | .cleaning => true
  | .returned r => r = 0
  | _ => false

/-- Before the close nothing is discarded; by then, everything that was in the channel has been
handed over. -/
structure Spares (capacity : ℕ) (c : Channel.State V) (s : State V) : Prop where
  before : s.pc.closed = false → Open capacity c s.channel
  after : s.pc.closed = true → Closed c s.channel True

/-- The channel is closed, and something has been discarded. -/
def Loses (c : Channel.State V) (s : State V) : Prop :=
  Closed c s.channel False

/-! ### The steps -/

/-- What a step of `close_when_empty` comes to: it waits or looks, it closes the channel, it finds
it closed, or it cleans it up. -/
inductive Advances (capacity : ℕ) (s t : State V) : Prop
  | waits (hpc : s.pc ≠ .closing) (hbefore : s.pc.closed = false) (hafter : t.pc.closed = false)
      (hsame : t.channel = s.channel)
  | closes (hpc : s.pc = .closing) (hafter : t.pc.closed = true)
      (hclose : Channel.step capacity s.channel .close = some t.channel)
  | finds (hpc : s.pc = .closing) (hafter : t.pc.closed = true)
      (hclosed : s.channel.is_active = false) (hsame : t.channel = s.channel)
  | cleans (hbefore : s.pc.closed = true) (hafter : t.pc.closed = true)
      (hclean : Channel.step capacity s.channel .clean_up = some t.channel)

theorem advances {s t : State V} (h : advance capacity timeout check_interval_ms s = some t) :
  Advances capacity s t
  := by
  cases hat : s.pc with
  | uncalled | looping | testing | checking =>
      simp only [advance, hat, Option.some.injEq] at h
      subst h
      apply Advances.waits
      · simp [hat]
      · simp [hat, Pc.closed]
      · first | rfl | (split <;> rfl)
      · rfl
  | yielding wake | sleeping wake =>
      simp only [advance, hat, Option.ite_none_right_eq_some, Option.some.injEq] at h
      obtain ⟨-, rfl⟩ := h
      apply Advances.waits
      · simp [hat]
      · simp [hat, Pc.closed]
      · rfl
      · rfl
  | closing =>
      simp only [advance, hat] at h
      split at h
      · rename_i e hclose
        obtain rfl := Option.some.inj h
        apply Advances.closes hat rfl hclose
      · rename_i hclose
        obtain rfl := Option.some.inj h
        have hclosed : s.channel.is_active = false := by simpa [Channel.step] using hclose
        exact Advances.finds hat rfl hclosed rfl
  | cleaning =>
      simp only [advance, hat, Option.map_eq_some_iff] at h
      obtain ⟨e, hclean, rfl⟩ := h
      apply Advances.cleans _ rfl hclean
      rw [hat]
      rfl
  | returned r => simp [advance, hat] at h

/-- After the close a step leaves what is lost as it is. -/
theorem closed_step {P : Prop} {s t : State V} {a : Label V} (hs : Closed c s.channel P)
    (h : step capacity timeout check_interval_ms s a = some t) :
  Closed c t.channel P
  := by
  cases a with
  | channel b =>
      simp only [step, Option.ite_none_right_eq_some, Option.map_eq_some_iff] at h
      obtain ⟨-, e, hstep, rfl⟩ := h
      apply hs.step hstep
  | tick =>
      obtain rfl := Option.some.inj h
      apply hs
  | advance =>
      cases advances h with
      | waits _ _ _ hsame | finds _ _ _ hsame =>
          rw [hsame]
          apply hs
      | closes _ _ hstep | cleans _ _ hstep => apply hs.step hstep

/-- A step of a channel that is not closed while it holds something spares what it holds. -/
theorem Spares.step {s t : State V} {a : Label V} (hs : Spares capacity c s)
    (ha : ClosesEmpty s a) (h : step capacity timeout check_interval_ms s a = some t) :
  Spares capacity c t
  := by
  cases a with
  | channel b =>
      simp only [Emptying.step, Option.ite_none_right_eq_some, Option.map_eq_some_iff] at h
      obtain ⟨hb, e, hstep, rfl⟩ := h
      constructor
      · intro hopen
        apply (hs.before hopen).step hb hstep
      · intro hclosed
        apply (hs.after hclosed).step hstep
  | tick =>
      obtain rfl := Option.some.inj h
      exact ⟨hs.before, hs.after⟩
  | advance =>
      cases advances h with
      | waits _ hbefore hafter hsame =>
          constructor
          · intro _
            rw [hsame]
            apply hs.before hbefore
          · intro hclosed
            rw [hafter] at hclosed
            contradiction
      | closes hpc hafter hclose =>
          have hopen := hs.before (by rw [hpc]; rfl)
          constructor
          · intro hbefore
            rw [hafter] at hbefore
            contradiction
          · intro _
            have hclosed := hopen.close hclose
            exact ⟨hclosed.inactive, hclosed.handed.trans (iff_true_intro (ha hpc rfl))⟩
      | finds hpc _ hclosed _ =>
          have hopen := hs.before (by rw [hpc]; rfl)
          rw [hopen.active] at hclosed
          contradiction
      | cleans hbefore hafter hclean =>
          constructor
          · intro hopen
            rw [hafter] at hopen
            contradiction
          · intro _
            apply (hs.after hbefore).step hclean

/-- A channel that is closed while it holds something loses it. -/
theorem Spares.lose {s t : State V} {a : Label V} (hs : Spares capacity c s)
    (ha : ¬ ClosesEmpty s a) (h : Emptying.step capacity timeout check_interval_ms s a = some t) :
  Loses c t
  := by
  simp only [ClosesEmpty, Classical.not_imp] at ha
  obtain ⟨hpc, rfl, hheld⟩ := ha
  have hopen := hs.before (by rw [hpc]; rfl)
  cases advances h with
  | waits hne _ _ _ => contradiction
  | closes _ _ hclose =>
      have hclosed := hopen.close hclose
      exact ⟨hclosed.inactive, hclosed.handed.trans (iff_false_intro hheld)⟩
  | finds _ _ hclosed _ =>
      rw [hopen.active] at hclosed
      contradiction
  | cleans hbefore _ _ =>
      rw [hpc] at hbefore
      contradiction

/-- On an open channel, `close_when_empty` that returns zero has lost nothing exactly when the
buffer and the list of parked writers were both empty when it called `close`. -/
theorem allHanded_iff_closes_empty {as : List (Channel.Label V)} {bs : List (Label V)} {s : State V}
    (hc : Run (Channel.step capacity) Free (initial V) as c) (hactive : c.is_active = true)
    (h : Run (step capacity timeout check_interval_ms) Free (start c) bs s)
    (hreturned : s.pc = .returned 0) :
  AllHanded c s.channel ↔
    Run (step capacity timeout check_interval_ms) (Meets ClosesEmpty) (start c) bs s
  := by
  have hbounded : Bounded capacity c := by
    apply hc.invariant (Bounded capacity) _ Bounded.initial
    intro s a t hs _ e
    apply hs.step e
  have hstart : Spares capacity c (start c) := by
    constructor
    · intro _
      exact ⟨hactive, hbounded, Fifo.Moved.refl _⟩
    · intro hclosed
      contradiction
  have hclosed : s.pc.closed = true := by
    rw [hreturned]
    rfl
  constructor
  · intro hhanded
    obtain ⟨hmeets, -⟩ | hloses := h.meets_or_spoiled (Spares capacity c) (Loses c)
      (fun s a t hs ha e => hs.step ha e) (fun s a t hs ha e => hs.lose ha e)
      (fun s a t hs e => closed_step hs e) hstart
    · apply hmeets
    · apply absurd hhanded
      apply hloses.handed.mp
  · intro hmeets
    have hspares : Spares capacity c s := by
      apply hmeets.invariant (Spares capacity c) _ hstart
      intro s a t hs ha e
      apply hs.step ha e
    apply (hspares.after hclosed).handed.mpr trivial

/-- A value is written to a channel of capacity one.  `close_when_empty` finds it there, sleeps, and
looks again when it has been read. -/
theorem allHanded_iff_closes_empty_read :
  ∃ bs s, Run (step 1 (-1) 1) Free (start (initial ℕ)) bs s ∧ s.pc = .returned 0 ∧
    s.channel.handed = [(0, 7)] ∧
    (AllHanded (initial ℕ) s.channel ↔
      Run (step 1 (-1) 1) (Meets ClosesEmpty) (start (initial ℕ)) bs s)
  := by
  obtain ⟨s, hrun, hreturned, hhanded⟩ : ∃ s, Run (step 1 (-1) 1) Free (start (initial ℕ))
      [.channel (.try_push_writer ⟨0, 7⟩), .advance, .advance, .advance, .advance,
        .channel (.try_push_reader 0), .tick, .advance, .advance, .advance, .advance, .advance,
        .advance] s ∧
      s.pc = .returned 0 ∧ s.channel.handed = [(0, 7)] := by
    apply exists_run_of_exec
    decide
  exact ⟨_, s, hrun, hreturned, hhanded,
    allHanded_iff_closes_empty (.nil (initial ℕ)) rfl hrun hreturned⟩

/-- A writer is parked at a channel of capacity zero, whose buffer is always empty, and
`close_when_empty` closes the channel at once: the value is lost. -/
theorem not_allHanded :
  ¬ ∀ (capacity : ℕ) (timeout check_interval_ms : ℤ) (as : List (Channel.Label ℕ))
      (c : Channel.State ℕ) (bs : List (Label ℕ)) (s : State ℕ),
    Run (Channel.step capacity) Free (initial ℕ) as c → c.is_active = true →
    Run (step capacity timeout check_interval_ms) Free (start c) bs s → s.pc = .returned 0 →
    AllHanded c s.channel
  := by
  intro hhanded
  have hparked : Run (Channel.step 0) Free (initial ℕ) [.try_push_writer ⟨0, 7⟩]
      ((initial ℕ).parkWriter ⟨0, 7⟩) := by
    apply run_of_exec
    rfl
  obtain ⟨s, hrun, hreturned, hnone⟩ : ∃ s,
      Run (step 0 (-1) 1) Free (start ((initial ℕ).parkWriter ⟨0, 7⟩))
        [.advance, .advance, .advance, .advance, .advance, .advance, .advance] s ∧
      s.pc = .returned 0 ∧ s.channel.handed = [] := by
    apply exists_run_of_exec
    decide
  have hall := hhanded 0 (-1) 1 _ _ _ s hparked rfl hrun hreturned
  have hlength := hall.length_le
  simp [hnone, values, initial, State.parkWriter] at hlength

end Emptying

end Koroutine.Channel
