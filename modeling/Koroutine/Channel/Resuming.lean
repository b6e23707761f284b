import Koroutine.Channel.Closing
import Koroutine.Channel.Order
import Mathlib.Algebra.Order.BigOperators.Group.List
import Mathlib.Algebra.Order.Ring.Nat
import Mathlib.Data.List.Nodup

/-!
# Resuming the parked awaiters

`clean_up` holds `channel_lock` while it goes through the lists of parked awaiters and resumes them.
An awaiter with a scheduler is handed to it, and runs elsewhere.  An awaiter without one runs at
once, on the thread that holds the lock: its `await_resume` throws `ChannelClosedException`, and the
coroutine goes on until it suspends or ends.  Destroying an awaiter that has not got its result, and
suspending on the channel, take the lock.

The other threads go on meanwhile; those that need the lock wait for it.
-/

open Transition

namespace Koroutine.Channel

variable {V : Type*}

namespace Resuming

/-- An awaiter that has suspended, that no thread is about to resume, and that has been resumed `n`
times.  Its `co_await` has not ended, or has ended with the exception after it was resumed. -/
structure Resumed (n : ℕ) (c : Channel.State V) (a : Awaiter) : Prop where
  suspended : c.suspended a = true
  not_due : a ∉ c.due
  resumes : c.resumes a = n
  outcome : c.outcome a = none ∨ n ≠ 0 ∧ c.outcome a = some .closed

/-- A channel whose parked awaiters are waiting to be resumed. -/
structure Parking (V : Type*) where
  channel : Channel.State V
  nodup : channel.waiting.Nodup
  parked : ∀ a ∈ channel.waiting, Resumed 0 channel a

/-- What a coroutine does that is resumed inline: an awaiter of the channel is destroyed, or
suspends, or something is done that does not wait for the lock, such as calling `read`, `write` or
`close`, which find the channel closed. -/
inductive Act
  | remove (a : Awaiter)
  | try_push (a : Awaiter)
  | other
  deriving DecidableEq

/-- The act takes `channel_lock`. -/
def Act.locks : Act → Bool
  | .remove _ | .try_push _ => true
  | .other => false

/-- The loops of `clean_up`. -/
inductive Loop
  | writers
  | readers
  deriving DecidableEq

/-- The list a loop goes through. -/
def Loop.list : Loop → Channel.State V → List Awaiter
  | .writers, c => c.writer_list.map fun w => .writer w.id
  | .readers, c => c.reader_list.map .reader

/-- Where `close` is: it has cleared `_is_active` and is about to take the lock, it is in a loop
that goes through the list `iterated`, with the awaiters `todo` still to resume, or it has returned.
-/
inductive Pc
  | locking
  | resuming (loop : Loop) (iterated todo : List Awaiter)
  | returned
  deriving DecidableEq

/-- The channel, where `close` is, what the coroutine that it has resumed inline is still to do, and
the awaiters that were parked when it took the lock. -/
structure State (V : Type*) where
  channel : Channel.State V
  pc : Pc
  inside : List Act
  parked : List Awaiter

/-- The steps: another thread makes a step on the channel, or `close` goes on. -/
inductive Label (V : Type*)
  | channel (a : Channel.Label V)
  | advance

/-- `close` has cleared `_is_active`. -/
def start (p : Parking V) : State V where
  channel := { p.channel with is_active := false, closing := true }
  pc := .locking
  inside := []
  parked := []

/-- `close` holds `channel_lock`. -/
def State.holds (s : State V) : Bool :=
  match s.pc with
  | .resuming _ _ _ => true
  | .locking | .returned => false

/-- What the other threads do: all but closing, and no section under the lock while `close` holds
it. -/
def Others (s : State V) : Channel.Label V → Prop
  | .close | .clean_up => False
  | .resume _ | .await_resume _ => True
  | .try_push_reader _ | .try_push_writer _ | .remove_reader _ | .remove_writer _ => s.holds = false

instance (s : State V) : (a : Channel.Label V) → Decidable (Others s a)
  | .close | .clean_up => .isFalse id
  | .resume _ | .await_resume _ => .isTrue trivial
  | .try_push_reader _ | .try_push_writer _ | .remove_reader _ | .remove_writer _ =>
      inferInstanceAs (Decidable (s.holds = false))

/-- `writer->resume()` or `reader->resume_unsafe()`: the coroutine is handed to the scheduler, or
runs inline, and its `co_await` ends. -/
def resume (scheduled : Awaiter → Bool) (c : Channel.State V) (a : Awaiter) : Channel.State V :=
  let resumed := match a with
    | .writer w => c.call (.writer w)
    | .reader r => c.wake r
  if scheduled a then resumed
  else { resumed with
    outcome := Function.update resumed.outcome a (some (resumed.awaitResume a)) }

/-- `close` takes the lock, and begins to go through the writers. -/
def State.lock (s : State V) : State V :=
  { s with
    pc := .resuming .writers (Loop.writers.list s.channel) (Loop.writers.list s.channel)
    parked := Loop.writers.list s.channel ++ Loop.readers.list s.channel }

/-- The next awaiter is resumed. -/
def State.resumeNext (scheduled : Awaiter → Bool) (reaction : Awaiter → List Act) (s : State V)
    (loop : Loop) (iterated : List Awaiter) (a : Awaiter) (todo : List Awaiter) : State V :=
  { s with
    channel := resume scheduled s.channel a
    pc := .resuming loop iterated todo
    inside := if scheduled a then [] else reaction a }

/-- `writer_list.clear()`, and the loop that goes through the readers begins. -/
def State.clearWriters (s : State V) : State V :=
  { s with
    channel := { s.channel with writer_list := [] }
    pc := .resuming .readers (Loop.readers.list s.channel) (Loop.readers.list s.channel) }

/-- `reader_list.clear()`, the buffer is swapped for an empty one, and the lock is released. -/
def State.clearReaders (s : State V) : State V :=
  { s with
    channel := { s.channel with reader_list := [], buffer := [], closing := false }
    pc := .returned }

/-- The next step of `close`, where `scheduled` says which awaiters have a scheduler, and `reaction`
what a coroutine does when it is resumed with the exception. -/
def advance (scheduled : Awaiter → Bool) (reaction : Awaiter → List Act) (s : State V) :
    Option (State V) :=
  match s.inside with
  | act :: acts => if s.holds && act.locks then none else some { s with inside := acts }
  | [] =>
      match s.pc with
      | .locking => some s.lock
      | .resuming loop iterated (a :: todo) =>
          some (s.resumeNext scheduled reaction loop iterated a todo)
      | .resuming .writers _ [] => some s.clearWriters
      | .resuming .readers _ [] => some s.clearReaders
      | .returned => none

/-- The step function of a channel that is being closed. -/
def step (capacity : ℕ) (scheduled : Awaiter → Bool) (reaction : Awaiter → List Act)
    (s : State V) : Label V → Option (State V)
  | .channel a =>
      if Others s a then
        (Channel.step capacity s.channel a).map fun c => { s with channel := c }
      else none
  | .advance => advance scheduled reaction s

/-- The awaiters `close` is still to resume. -/
def State.remaining (s : State V) : List Awaiter :=
  match s.pc with
  | .locking => Loop.writers.list s.channel ++ Loop.readers.list s.channel
  | .resuming .writers _ todo => todo ++ Loop.readers.list s.channel
  | .resuming .readers _ todo => todo
  | .returned => []

/-- How many steps it takes to resume the awaiter, at most. -/
def cost (reaction : Awaiter → List Act) (a : Awaiter) : ℕ := (reaction a).length + 1

/-- How many steps `close` makes before it returns, at most. -/
def work (reaction : Awaiter → List Act) (s : State V) : ℕ :=
  s.inside.length + (s.remaining.map (cost reaction)).sum +
    match s.pc with
    | .locking => 3
    | .resuming .writers _ _ => 2
    | .resuming .readers _ _ => 1
    | .returned => 0

/-- `close` does not take the lock that it holds, goes through lists that do not change, and comes
nearer to returning; by then every parked awaiter has been resumed once, and it gets the
exception. -/
structure Safe (capacity : ℕ) (scheduled : Awaiter → Bool) (reaction : Awaiter → List Act)
    (s : State V) : Prop where
  never_relocks : ∀ act acts, s.inside = act :: acts → s.holds = true → act.locks = false
  iterates : ∀ loop iterated todo, s.pc = .resuming loop iterated todo →
    loop.list s.channel = iterated
  advances : s.pc ≠ .returned →
    ∃ t, step capacity scheduled reaction s .advance = some t ∧ work reaction t < work reaction s
  keeps : ∀ a t, step capacity scheduled reaction s (.channel a) = some t →
    work reaction t ≤ work reaction s
  resumed : s.pc = .returned → ∀ a ∈ s.parked, s.channel.resumes a = 1
  once : ∀ a ∈ s.parked, s.channel.resumes a ≤ 1
  observed : ∀ a ∈ s.parked, (s.channel.outcome a).getD (s.channel.awaitResume a) = .closed

/-- The awaiter has a scheduler, or its coroutine does not take the lock when it is resumed. -/
def Harmless (scheduled : Awaiter → Bool) (reaction : Awaiter → List Act) (a : Awaiter) : Prop :=
  scheduled a = true ∨ ∀ act ∈ reaction a, act.locks = false

/-! ### What the other threads leave as it is -/

variable {capacity n : ℕ} {scheduled : Awaiter → Bool} {reaction : Awaiter → List Act}
  {c d : Channel.State V} {a : Awaiter}

/-- A call that is made is due no more, and no other becomes due. -/
theorem not_due_of_call {k : ℕ} {call : Call V} {calls : List (Call V)}
    (hk : c.threads[k]? = some (call :: calls)) (ha : a ∉ c.due) :
  a ∉ ({ c with threads := c.threads.set k calls }.call call).due ∧ a ≠ call.awaiter
  := by
  have hdue : ({ c with threads := c.threads.set k calls }.call call).due =
      (c.threads.set k calls).flatten.map Call.awaiter := by
    cases call <;> rfl
  have hcount := count_due_set a hk
  have hzero : (c.threads.flatten.map Call.awaiter).count a = 0 := List.count_eq_zero.mpr ha
  constructor
  · rw [hdue]
    apply List.count_eq_zero.mp
    omega
  · rintro rfl
    rw [List.count_singleton_self] at hcount
    omega

/-- The other threads leave the awaiters as they are: a `co_await` that ends meanwhile ends with the
exception. -/
theorem Resumed.step {b : Channel.Label V} (ha : Resumed n c a) (hclosed : c.is_active = false)
    (hb : b ≠ .clean_up) (h : Channel.step capacity c b = some d) :
  Resumed n d a
  := by
  cases closedEffect_step hclosed h with
  | @refuse _ b _ hnew =>
      have hne : a ≠ b := by
        rintro rfl
        rw [ha.suspended] at hnew
        contradiction
      constructor
      · simpa [State.refuse, hne] using ha.suspended
      · apply ha.not_due
      · apply ha.resumes
      · simpa [State.refuse, hne] using ha.outcome
  | @resume k call calls hk =>
      obtain ⟨hdue, hne⟩ := not_due_of_call hk ha.not_due
      constructor
      · cases call <;> apply ha.suspended
      · apply hdue
      · rw [← ha.resumes]
        cases call <;> exact Function.update_of_ne hne _ _
      · cases call <;> apply ha.outcome
  | @awaitResume b hresumed hnone =>
      constructor
      · apply ha.suspended
      · apply ha.not_due
      · apply ha.resumes
      · by_cases heq : a = b
        · subst heq
          right
          rw [ha.resumes] at hresumed
          simp [Nat.pos_iff_ne_zero.mp hresumed]
        · simpa [heq] using ha.outcome
  | cleanUp hclosing => contradiction
  | removeReader r | removeWriter w => exact ⟨ha.suspended, ha.not_due, ha.resumes, ha.outcome⟩

/-- The lists of the parked awaiters only get shorter, and while `close` holds the lock they do not
change. -/
theorem list_step {s : State V} {b : Channel.Label V} (hclosed : s.channel.is_active = false)
    (hb : Others s b) (h : Channel.step capacity s.channel b = some d) (loop : Loop) :
  (loop.list d).Sublist (loop.list s.channel) ∧
    (s.holds = true → loop.list d = loop.list s.channel)
  := by
  have of_eq : loop.list d = loop.list s.channel → (loop.list d).Sublist (loop.list s.channel) ∧
      (s.holds = true → loop.list d = loop.list s.channel) := by
    intro heq
    rw [heq]
    exact ⟨List.Sublist.refl _, fun _ => rfl⟩
  cases closedEffect_step hclosed h with
  | refuse ha hnew =>
      apply of_eq
      cases loop <;> rfl
  | @resume k call calls hk =>
      apply of_eq
      cases loop <;> cases call <;> rfl
  | awaitResume hresumed hnone =>
      apply of_eq
      cases loop <;> rfl
  | cleanUp hclosing => contradiction
  | removeReader r =>
      constructor
      · cases loop with
        | writers => apply List.Sublist.refl
        | readers => apply (List.filter_sublist (p := (· ≠ r))).map
      · intro hholds
        rw [show s.holds = false from hb] at hholds
        contradiction
  | removeWriter w =>
      constructor
      · cases loop with
        | writers => apply List.Sublist.map _ List.filter_sublist
        | readers => apply List.Sublist.refl
      · intro hholds
        rw [show s.holds = false from hb] at hholds
        contradiction

/-! ### The parked awaiters of an open channel -/

/-- An awaiter is parked, due to be resumed, or has been resumed, at most once, and only an awaiter
that has been resumed has a result. -/
structure Fresh (c : Channel.State V) : Prop where
  once : ∀ a, c.claims a ≤ (c.suspended a).toNat
  heard : ∀ a, c.outcome a ≠ none → 0 < c.resumes a

theorem Fresh.initial :
  Fresh (initial V)
  := by
  constructor
  · simp [Channel.initial, Channel.State.claims, Channel.State.due, Channel.State.waiting]
  · simp [Channel.initial]

/-- Removing awaiters from the lists makes no new claims. -/
theorem Fresh.remove {readers : List Reader} {writers : List (Writer V)} (hc : Fresh c)
    (hreaders : readers.Sublist c.reader_list) (hwriters : writers.Sublist c.writer_list) :
  Fresh { c with reader_list := readers, writer_list := writers }
  := by
  have hwaiting :
      ({ c with reader_list := readers, writer_list := writers } : Channel.State V).waiting.Sublist
        c.waiting :=
    (hreaders.map _).append (hwriters.map _)
  constructor
  · intro a
    apply le_trans _ (hc.once a)
    apply Nat.add_le_add_left (hwaiting.count_le a)
  · apply hc.heard

theorem Fresh.effect {b : Channel.Label V} (hc : Fresh c) (h : Effect capacity c b d) :
  Fresh d
  := by
  constructor
  · intro a
    rw [h.claims, h.suspended]
    apply Nat.add_le_add_right (hc.once a)
  · intro a ha
    cases h with
    | @resume k call calls hk =>
        have hheard : 0 < c.resumes a := by
          apply hc.heard a
          cases call <;> apply ha
        cases call with
        | reader r v =>
            by_cases heq : a = .reader r
            · simp [State.call, heq]
            · simpa [State.call, heq] using hheard
        | writer w =>
            by_cases heq : a = .writer w
            · simp [State.call, heq]
            · simpa [State.call, heq] using hheard
    | @awaitResume b hresumed hnone =>
        by_cases heq : a = b
        · rw [heq]
          apply hresumed
        · apply hc.heard
          simpa [heq] using ha
    | _ => apply hc.heard a ha

theorem Fresh.step {b : Channel.Label V} (hc : Fresh c) (hopen : c.is_active = true)
    (hclosing : c.closing = true → c.is_active = false) (hactive : d.is_active = true)
    (h : Channel.step capacity c b = some d) :
  Fresh d
  := by
  cases b with
  | close =>
      simp only [Channel.step, hopen, if_true, Option.some.injEq] at h
      subst h
      contradiction
  | clean_up =>
      simp only [Channel.step, Option.ite_none_right_eq_some] at h
      rw [hclosing h.1] at hopen
      contradiction
  | remove_reader r =>
      obtain rfl := Option.some.inj h
      exact hc.remove List.filter_sublist (List.Sublist.refl _)
  | remove_writer w =>
      obtain rfl := Option.some.inj h
      exact hc.remove (List.Sublist.refl _) List.filter_sublist
  | try_push_reader r | try_push_writer w | resume k | await_resume a =>
      apply hc.effect (effect_step hopen _ h)
      trivial

theorem fresh_of_run {as : List (Channel.Label V)}
    (h : Run (Channel.step capacity) Free (initial V) as c) (hactive : c.is_active = true) :
  Fresh c
  := by
  have hfresh : (c.closing = true → c.is_active = false) ∧ (c.is_active = true → Fresh c) := by
    apply h.invariant
      (fun c => (c.closing = true → c.is_active = false) ∧ (c.is_active = true → Fresh c))
    · intro c b d ⟨hclosing, hfresh⟩ _ hstep
      use closing_step hclosing hstep
      intro hactive
      cases hopen : c.is_active with
      | false =>
          rw [(refuses_step hopen hstep).inactive] at hactive
          contradiction
      | true => apply (hfresh hopen).step hopen hclosing hactive hstep
    · constructor
      · intro hclosing
        contradiction
      · intro _
        apply Fresh.initial
  apply hfresh.2 hactive

/-- A parked awaiter has suspended and is waiting to be resumed. -/
theorem Fresh.resumed (hc : Fresh c) (ha : a ∈ c.waiting) :
  Resumed 0 c a
  := by
  have honce := hc.once a
  have hwaiting := List.count_pos_iff.mpr ha
  have hle := (c.suspended a).toNat_le
  unfold Channel.State.claims at honce
  have hresumes : c.resumes a = 0 := by omega
  constructor
  · cases hsuspended : c.suspended a with
    | true => rfl
    | false =>
        rw [hsuspended, Bool.toNat_false] at honce
        omega
  · apply List.count_eq_zero.mp
    omega
  · apply hresumes
  · left
    by_contra hne
    have := hc.heard a hne
    omega

/-- The parked awaiters of a channel that is open, after whatever has happened to it. -/
def Parking.ofRun {as : List (Channel.Label V)}
    (h : Run (Channel.step capacity) Free (initial V) as c) (hactive : c.is_active = true) :
    Parking V where
  channel := c
  nodup := by
    apply List.nodup_iff_count_le_one.mpr
    intro a
    have honce := (fresh_of_run h hactive).once a
    have hle := (c.suspended a).toNat_le
    unfold Channel.State.claims at honce
    omega
  parked := fun _ ha => (fresh_of_run h hactive).resumed ha

/-! ### Resuming an awaiter -/

variable (scheduled a) in
/-- In a closed channel an awaiter is resumed once more, and if it runs inline it gets the
exception. -/
theorem exists_resume (hclosed : c.is_active = false) :
  ∃ outcome, resume scheduled c a =
      { c with
        resumes := Function.update c.resumes a (c.resumes a + 1)
        outcome := outcome } ∧
    (outcome = c.outcome ∨ outcome = Function.update c.outcome a (some .closed))
  := by
  cases hscheduled : scheduled a with
  | true =>
      use c.outcome
      constructor
      · cases a <;> simp [resume, hscheduled, State.call, State.wake]
      · left
        rfl
  | false =>
      use Function.update c.outcome a (some .closed)
      constructor
      · cases a <;>
          simp [resume, hscheduled, State.call, State.wake, Channel.State.awaitResume, hclosed]
      · right
        rfl

theorem resumed_resume (ha : Resumed 0 c a) (hclosed : c.is_active = false) :
  Resumed 1 (resume scheduled c a) a
  := by
  obtain ⟨outcome, heq, houtcome⟩ := exists_resume scheduled a hclosed
  rw [heq]
  constructor
  · apply ha.suspended
  · apply ha.not_due
  · simp [ha.resumes]
  · obtain rfl | rfl := houtcome
    · left
      simpa using ha.outcome
    · right
      simp

theorem Resumed.of_ne {b : Awaiter} (hb : Resumed n c b) (hne : b ≠ a)
    (hclosed : c.is_active = false) :
  Resumed n (resume scheduled c a) b
  := by
  obtain ⟨outcome, heq, houtcome⟩ := exists_resume scheduled a hclosed
  rw [heq]
  constructor
  · apply hb.suspended
  · apply hb.not_due
  · simpa [hne] using hb.resumes
  · obtain rfl | rfl := houtcome
    · apply hb.outcome
    · simpa [hne] using hb.outcome

@[simp] theorem list_resume (loop : Loop) :
  loop.list (resume scheduled c a) = loop.list c
  := by
  cases hscheduled : scheduled a <;> cases a <;> cases loop <;> simp [resume, hscheduled] <;> rfl

@[simp] theorem resume_is_active :
  (resume scheduled c a).is_active = c.is_active
  := by
  cases hscheduled : scheduled a <;> cases a <;> simp [resume, hscheduled] <;> rfl

/-! ### The steps of `close` -/

/-- What `close` does in a step. -/
inductive Advances (scheduled : Awaiter → Bool) (reaction : Awaiter → List Act) (s : State V) :
    State V → Prop
  | inside {act : Act} {acts : List Act} (hinside : s.inside = act :: acts)
      (hfree : s.holds = true → act.locks = false) :
      Advances scheduled reaction s { s with inside := acts }
  | lock (hinside : s.inside = []) (hpc : s.pc = .locking) : Advances scheduled reaction s s.lock
  | resume {loop : Loop} {iterated : List Awaiter} {a : Awaiter} {todo : List Awaiter}
      (hinside : s.inside = []) (hpc : s.pc = .resuming loop iterated (a :: todo)) :
      Advances scheduled reaction s (s.resumeNext scheduled reaction loop iterated a todo)
  | clearWriters {iterated : List Awaiter} (hinside : s.inside = [])
      (hpc : s.pc = .resuming .writers iterated []) : Advances scheduled reaction s s.clearWriters
  | clearReaders {iterated : List Awaiter} (hinside : s.inside = [])
      (hpc : s.pc = .resuming .readers iterated []) : Advances scheduled reaction s s.clearReaders

theorem advances {s t : State V} (h : advance scheduled reaction s = some t) :
  Advances scheduled reaction s t
  := by
  unfold advance at h
  split at h
  · rename_i act acts hinside
    obtain ⟨hfree, rfl⟩ : ¬ (s.holds && act.locks) = true ∧ { s with inside := acts } = t := by
      simpa using h
    apply Advances.inside hinside
    intro hholds
    simpa [hholds] using hfree
  · rename_i hinside
    split at h
    · rename_i hpc
      obtain rfl := Option.some.inj h
      apply Advances.lock hinside hpc
    · rename_i loop iterated a todo hpc
      obtain rfl := Option.some.inj h
      apply Advances.resume hinside hpc
    · rename_i iterated hpc
      obtain rfl := Option.some.inj h
      apply Advances.clearWriters hinside hpc
    · rename_i iterated hpc
      obtain rfl := Option.some.inj h
      apply Advances.clearReaders hinside hpc
    · contradiction

/-- Every parked awaiter is still to be resumed, and harmless, or it has been resumed. -/
structure Good (scheduled : Awaiter → Bool) (reaction : Awaiter → List Act) (s : State V) :
    Prop where
  inactive : s.channel.is_active = false
  inside : ∀ act ∈ s.inside, act.locks = false
  iterates : ∀ loop iterated todo, s.pc = .resuming loop iterated todo →
    loop.list s.channel = iterated
  nodup : s.remaining.Nodup
  remaining : ∀ a ∈ s.remaining, Resumed 0 s.channel a ∧ Harmless scheduled reaction a
  unlocked : s.pc = .locking → s.parked = []
  woken : ∀ a ∈ s.parked, a ∉ s.remaining → Resumed 1 s.channel a

/-- Another thread makes the list of what `close` is still to resume shorter, and only before
`close` has the lock. -/
theorem remaining_step {s t : State V} {b : Channel.Label V}
    (hclosed : s.channel.is_active = false) (hb : Others s b)
    (h : Channel.step capacity s.channel b = some t.channel) (hsame : t.pc = s.pc) :
  t.remaining.Sublist s.remaining ∧ (s.pc ≠ .locking → t.remaining = s.remaining)
  := by
  have hlist := list_step hclosed hb h
  cases hpc : s.pc with
  | locking =>
      simp only [State.remaining, hsame, hpc, ne_eq, not_true_eq_false, false_implies, and_true]
      apply (hlist .writers).1.append (hlist .readers).1
  | resuming loop iterated todo =>
      have hholds : s.holds = true := by simp [State.holds, hpc]
      have heq : t.remaining = s.remaining := by
        cases loop <;> simp only [State.remaining, hsame, hpc, (hlist .readers).2 hholds]
      rw [heq]
      exact ⟨List.Sublist.refl _, fun _ => rfl⟩
  | returned => simp [State.remaining, hsame, hpc]

variable (scheduled reaction) in
/-- The next awaiter is no more to be resumed. -/
theorem remaining_resumeNext {s : State V} {loop : Loop} {iterated todo : List Awaiter}
    (hpc : s.pc = .resuming loop iterated (a :: todo)) :
  s.remaining = a :: (s.resumeNext scheduled reaction loop iterated a todo).remaining
  := by
  cases loop <;> simp [State.remaining, State.resumeNext, hpc]

theorem Others.ne {s : State V} {b : Channel.Label V} (hb : Others s b) :
  b ≠ .clean_up
  := by
  rintro rfl
  contradiction

theorem Good.start {p : Parking V}
    (hharmless : ∀ a ∈ p.channel.waiting, Harmless scheduled reaction a) :
  Good scheduled reaction (start p)
  := by
  constructor
  · rfl
  · simp [Resuming.start]
  · rintro loop iterated todo ⟨⟩
  · apply List.nodup_append_comm.mp p.nodup
  · intro a ha
    have hmem : a ∈ p.channel.waiting := List.mem_append.mpr (List.mem_append.mp ha).symm
    have h := p.parked a hmem
    exact ⟨⟨h.suspended, h.not_due, h.resumes, h.outcome⟩, hharmless a hmem⟩
  · intro _
    rfl
  · simp [Resuming.start]

/-- A list is cleared, when its awaiters have been resumed. -/
theorem Good.clear {s t : State V} (hs : Good scheduled reaction s)
    (hclosed : t.channel.is_active = false) (hremaining : t.remaining = s.remaining)
    (hinside : t.inside = s.inside) (hparked : t.parked = s.parked)
    (hresumed : ∀ n a, Resumed n s.channel a → Resumed n t.channel a)
    (hiterates : ∀ loop iterated todo, t.pc = .resuming loop iterated todo →
      loop.list t.channel = iterated)
    (hpc : t.pc ≠ .locking) :
  Good scheduled reaction t
  := by
  constructor
  · apply hclosed
  · rw [hinside]
    apply hs.inside
  · apply hiterates
  · rw [hremaining]
    apply hs.nodup
  · rw [hremaining]
    intro a ha
    obtain ⟨h, hharmless⟩ := hs.remaining a ha
    exact ⟨hresumed 0 a h, hharmless⟩
  · intro hlocking
    contradiction
  · rw [hremaining, hparked]
    intro a ha hdone
    apply hresumed 1 a (hs.woken a ha hdone)

/-- Another thread makes a step. -/
theorem Good.others {s : State V} {b : Channel.Label V} (hs : Good scheduled reaction s)
    (hb : Others s b) (h : Channel.step capacity s.channel b = some d) :
  Good scheduled reaction { s with channel := d }
  := by
  obtain ⟨hsublist, hsame⟩ :=
    remaining_step (t := { s with channel := d }) hs.inactive hb h rfl
  constructor
  · apply (refuses_step hs.inactive h).inactive
  · apply hs.inside
  · intro loop iterated todo hpc
    have hholds : s.holds = true := by
      rw [State.holds]
      simp only at hpc
      rw [hpc]
    rw [← hs.iterates loop iterated todo hpc]
    apply (list_step hs.inactive hb h loop).2 hholds
  · apply hs.nodup.sublist hsublist
  · intro a ha
    obtain ⟨hresumed, hharmless⟩ := hs.remaining a (hsublist.subset ha)
    exact ⟨hresumed.step hs.inactive hb.ne h, hharmless⟩
  · apply hs.unlocked
  · intro a ha hdone
    by_cases hpc : s.pc = .locking
    · simp [hs.unlocked hpc] at ha
    · rw [hsame hpc] at hdone
      apply (hs.woken a ha hdone).step hs.inactive hb.ne h

/-- The coroutine that has been resumed inline goes on. -/
theorem Good.inside_tail {s : State V} {act : Act} {acts : List Act}
    (hs : Good scheduled reaction s) (hinside : s.inside = act :: acts) :
  Good scheduled reaction { s with inside := acts }
  := by
  constructor
  · apply hs.inactive
  · intro act hact
    apply hs.inside
    rw [hinside]
    apply List.mem_cons_of_mem _ hact
  · apply hs.iterates
  · apply hs.nodup
  · apply hs.remaining
  · apply hs.unlocked
  · apply hs.woken

theorem Good.lock {s : State V} (hs : Good scheduled reaction s) (hpc : s.pc = .locking) :
  Good scheduled reaction s.lock
  := by
  have hsame : s.lock.remaining = s.remaining := by
    simp [State.remaining, State.lock, hpc]
  constructor
  · apply hs.inactive
  · apply hs.inside
  · rintro loop iterated todo ⟨⟩
    rfl
  · rw [hsame]
    apply hs.nodup
  · rw [hsame]
    apply hs.remaining
  · intro hlocking
    contradiction
  · intro a ha hdone
    contradiction

theorem Good.resumeNext {s : State V} {loop : Loop} {iterated todo : List Awaiter}
    (hs : Good scheduled reaction s) (hpc : s.pc = .resuming loop iterated (a :: todo)) :
  Good scheduled reaction (s.resumeNext scheduled reaction loop iterated a todo)
  := by
  have hcons := remaining_resumeNext scheduled reaction hpc
  have hnodup := hs.nodup
  have hremaining := hs.remaining
  rw [hcons] at hnodup hremaining
  obtain ⟨hfirst, hrest⟩ := List.nodup_cons.mp hnodup
  obtain ⟨hresumed, hharmless⟩ := hremaining a List.mem_cons_self
  constructor
  · rw [State.resumeNext, resume_is_active]
    apply hs.inactive
  · intro act hact
    simp only [State.resumeNext] at hact
    split at hact
    · contradiction
    · rename_i hscheduled
      obtain hyes | hfree := hharmless
      · contradiction
      · apply hfree act hact
  · rintro loop' iterated' todo' ⟨⟩
    rw [State.resumeNext, list_resume]
    apply hs.iterates _ _ _ hpc
  · apply hrest
  · intro b hb
    have hne : b ≠ a := by
      rintro rfl
      contradiction
    obtain ⟨hresumed', hharmless'⟩ := hremaining b (List.mem_cons_of_mem _ hb)
    exact ⟨hresumed'.of_ne hne hs.inactive, hharmless'⟩
  · intro hlocking
    contradiction
  · intro b hb hdone
    by_cases heq : b = a
    · rw [heq]
      apply resumed_resume hresumed hs.inactive
    · have hdone' : b ∉ s.remaining := by
        rw [hcons]
        apply List.not_mem_cons_of_ne_of_not_mem heq hdone
      apply (hs.woken b hb hdone').of_ne heq hs.inactive

/-- Where no awaiter does harm, every step keeps what is known of them. -/
theorem Good.step {s t : State V} {a : Label V} (hs : Good scheduled reaction s)
    (h : step capacity scheduled reaction s a = some t) :
  Good scheduled reaction t
  := by
  cases a with
  | channel b =>
      simp only [Resuming.step, Option.ite_none_right_eq_some, Option.map_eq_some_iff] at h
      obtain ⟨hb, d, hstep, rfl⟩ := h
      apply hs.others hb hstep
  | advance =>
      cases advances h with
      | inside hinside hfree => apply hs.inside_tail hinside
      | lock hinside hpc => apply hs.lock hpc
      | resume hinside hpc => apply hs.resumeNext hpc
      | clearWriters hinside hpc =>
          have hsame : s.clearWriters.remaining = s.remaining := by
            simp [State.remaining, State.clearWriters, hpc]
          apply hs.clear (t := s.clearWriters) hs.inactive hsame rfl rfl
          · intro n a ha
            exact ⟨ha.suspended, ha.not_due, ha.resumes, ha.outcome⟩
          · rintro loop iterated todo ⟨⟩
            rfl
          · simp [State.clearWriters]
      | clearReaders hinside hpc =>
          have hsame : s.clearReaders.remaining = s.remaining := by
            simp [State.remaining, State.clearReaders, hpc]
          apply hs.clear (t := s.clearReaders) hs.inactive hsame rfl rfl
          · intro n a ha
            exact ⟨ha.suspended, ha.not_due, ha.resumes, ha.outcome⟩
          · rintro loop iterated todo ⟨⟩
          · simp [State.clearReaders]

/-! ### What is safe -/

/-- `close` goes on where the coroutine that it has resumed does not wait for the lock. -/
theorem advances_of_free {s : State V} (hfree : ∀ act ∈ s.inside, act.locks = false)
    (hpc : s.pc ≠ .returned) :
  ∃ t, advance scheduled reaction s = some t ∧ work reaction t < work reaction s
  := by
  cases hinside : s.inside with
  | cons act acts =>
      rw [hinside] at hfree
      use { s with inside := acts }
      constructor
      · simp [advance, hinside, hfree act List.mem_cons_self]
      · simp [work, State.remaining, hinside]
  | nil =>
      cases hat : s.pc with
      | locking =>
          use s.lock
          constructor
          · simp [advance, hinside, hat]
          · simp [work, State.remaining, State.lock, hinside, hat]
      | resuming loop iterated todo =>
          cases todo with
          | cons a todo =>
              have hcons := remaining_resumeNext scheduled reaction hat
              use s.resumeNext scheduled reaction loop iterated a todo
              constructor
              · simp [advance, hinside, hat]
              · unfold work
                rw [hcons, hinside, hat]
                generalize (s.resumeNext scheduled reaction loop iterated a todo).remaining = rest
                have hlength :
                    (if scheduled a then [] else reaction a).length < cost reaction a := by
                  unfold cost
                  split
                  · simp
                  · omega
                simp only [State.resumeNext, List.map_cons, List.sum_cons, List.length_nil]
                cases loop with
                | writers | readers =>
                    simp only
                    omega
          | nil =>
              cases loop with
              | writers =>
                  use s.clearWriters
                  constructor
                  · simp [advance, hinside, hat]
                  · simp [work, State.remaining, State.clearWriters, hinside, hat]
              | readers =>
                  use s.clearReaders
                  constructor
                  · simp [advance, hinside, hat]
                  · simp [work, State.remaining, State.clearReaders, hinside, hat]
      | returned => contradiction

theorem Good.safe {s : State V} (hs : Good scheduled reaction s) :
  Safe capacity scheduled reaction s
  := by
  have hresumed : ∀ a ∈ s.parked, ∃ n, n ≤ 1 ∧ Resumed n s.channel a := by
    intro a ha
    by_cases hmem : a ∈ s.remaining
    · exact ⟨0, Nat.zero_le 1, (hs.remaining a hmem).1⟩
    · exact ⟨1, Nat.le_refl 1, hs.woken a ha hmem⟩
  constructor
  · intro act acts hinside _
    apply hs.inside
    rw [hinside]
    apply List.mem_cons_self
  · apply hs.iterates
  · intro hpc
    apply advances_of_free hs.inside hpc
  · intro a t h
    simp only [Resuming.step, Option.ite_none_right_eq_some, Option.map_eq_some_iff] at h
    obtain ⟨hothers, d, hstep, rfl⟩ := h
    have hsublist := (remaining_step (t := { s with channel := d }) hs.inactive hothers hstep rfl).1
    have hle := (hsublist.map (cost reaction)).sum_le_sum (fun n _ => Nat.zero_le n)
    apply Nat.add_le_add_right (Nat.add_le_add_left hle _)
  · intro hpc a ha
    apply (hs.woken a ha _).resumes
    simp [State.remaining, hpc]
  · intro a ha
    obtain ⟨n, hn, h⟩ := hresumed a ha
    rw [h.resumes]
    apply hn
  · intro a ha
    obtain ⟨n, -, h⟩ := hresumed a ha
    obtain hnone | ⟨-, hclosed⟩ := h.outcome
    · simp [hnone, Channel.State.awaitResume, hs.inactive]
    · simp [hclosed]

/-! ### What `close` runs into -/

/-- `close` waits for the lock that it holds. -/
def Blocked (s : State V) : Prop :=
  s.holds = true ∧ ∃ act acts, s.inside = act :: acts ∧ act.locks = true

theorem Blocked.not_safe {s : State V} (hs : Blocked s) :
  ¬ Safe capacity scheduled reaction s
  := by
  obtain ⟨hholds, act, acts, hinside, hlocks⟩ := hs
  intro hsafe
  rw [hsafe.never_relocks act acts hinside hholds] at hlocks
  contradiction

variable (capacity scheduled reaction) in
/-- A coroutine that is resumed inline runs into the lock, or to its end. -/
theorem exists_run_inside :
  ∀ {acts : List Act} {s : State V}, s.holds = true → s.inside = acts →
    ∃ bs t, Run (step capacity scheduled reaction) Free s bs t ∧
      (Blocked t ∨ (∀ act ∈ acts, act.locks = false) ∧ t = { s with inside := [] })
  | [], ⟨channel, pc, [], parked⟩, _, rfl => ⟨[], _, .nil _, .inr ⟨by simp, rfl⟩⟩
  | act :: acts, s, hholds, hinside => by
      cases hlocks : act.locks with
      | true => exact ⟨[], s, .nil s, .inl ⟨hholds, act, acts, hinside, hlocks⟩⟩
      | false =>
          have hstep : step capacity scheduled reaction s .advance =
              some { s with inside := acts } := by
            simp [step, advance, hinside, hlocks]
          obtain ⟨bs, t, hrun, hends⟩ := exists_run_inside
            (s := { s with inside := acts }) hholds rfl
          refine ⟨_, t, (Run.single hstep trivial).trans hrun, ?_⟩
          obtain hblocked | ⟨hfree, rfl⟩ := hends
          · left
            apply hblocked
          · right
            exact ⟨List.forall_mem_cons.mpr ⟨hlocks, hfree⟩, rfl⟩

variable (capacity scheduled reaction) in
/-- A loop runs into the lock, or all its awaiters are harmless and it resumes them all. -/
theorem exists_run_loop {loop : Loop} {iterated : List Awaiter} :
  ∀ {todo : List Awaiter} {s : State V}, s.pc = .resuming loop iterated todo → s.inside = [] →
    ∃ bs t, Run (step capacity scheduled reaction) Free s bs t ∧
      (Blocked t ∨ (∀ a ∈ todo, Harmless scheduled reaction a) ∧
        t = { s with
          channel := todo.foldl (resume scheduled) s.channel
          pc := .resuming loop iterated [] })
  | [], ⟨channel, _, inside, parked⟩, rfl, hinside => ⟨[], _, .nil _, .inr ⟨by simp, rfl⟩⟩
  | a :: todo, ⟨channel, _, _, parked⟩, rfl, rfl => by
      let s : State V := ⟨channel, .resuming loop iterated (a :: todo), [], parked⟩
      have hstep : step capacity scheduled reaction s .advance =
          some (s.resumeNext scheduled reaction loop iterated a todo) := rfl
      obtain ⟨bs, u, hrun, hends⟩ := exists_run_inside capacity scheduled reaction
        (s := s.resumeNext scheduled reaction loop iterated a todo) rfl rfl
      have hfirst := (Run.single hstep trivial).trans hrun
      obtain hblocked | ⟨hfree, rfl⟩ := hends
      · exact ⟨_, u, hfirst, .inl hblocked⟩
      · obtain ⟨cs, t, hrest, hends⟩ := exists_run_loop
          (s := { s.resumeNext scheduled reaction loop iterated a todo with inside := [] }) rfl rfl
        refine ⟨_, t, hfirst.trans hrest, ?_⟩
        obtain hblocked | ⟨hharmless, rfl⟩ := hends
        · left
          apply hblocked
        · right
          have ha : Harmless scheduled reaction a := by
            cases hscheduled : scheduled a with
            | true =>
                left
                apply hscheduled
            | false =>
                right
                simpa [State.resumeNext, hscheduled] using hfree
          exact ⟨List.forall_mem_cons.mpr ⟨ha, hharmless⟩, rfl⟩

/-- What `close` leaves of a channel when it has resumed the writers, and then the readers. -/
def closed (scheduled : Awaiter → Bool) (c : Channel.State V) : Channel.State V :=
  let woken := (Loop.writers.list c).foldl (resume scheduled) c
  { (Loop.readers.list c).foldl (resume scheduled) { woken with writer_list := [] } with
    reader_list := [], buffer := [], closing := false }

@[simp] theorem list_foldl_resume (loop : Loop) :
  ∀ (todo : List Awaiter) (c : Channel.State V),
    loop.list (todo.foldl (resume scheduled) c) = loop.list c
  | [], _ => rfl
  | a :: todo, c => by rw [List.foldl_cons, list_foldl_resume loop todo, list_resume]

variable (capacity scheduled reaction) in
/-- `close` runs into the lock, or all parked awaiters are harmless, and it returns. -/
theorem exists_run_close (p : Parking V) :
  ∃ bs t, Run (step capacity scheduled reaction) Free (start p) bs t ∧
    (Blocked t ∨ (∀ a ∈ p.channel.waiting, Harmless scheduled reaction a) ∧
      t.pc = .returned ∧ t.channel = closed scheduled (start p).channel)
  := by
  have hlock : step capacity scheduled reaction (start p) .advance = some (start p).lock := rfl
  obtain ⟨bs, _, hrun, hends⟩ := exists_run_loop capacity scheduled reaction
    (s := (start p).lock) rfl rfl
  have hfirst := (Run.single hlock trivial).trans hrun
  obtain hblocked | ⟨hwriters, rfl⟩ := hends
  · exact ⟨_, _, hfirst, .inl hblocked⟩
  · let u : State V := { (start p).lock with
      channel := (Loop.writers.list (start p).channel).foldl (resume scheduled) (start p).channel
      pc := .resuming .writers (Loop.writers.list (start p).channel) [] }
    have hclear : step capacity scheduled reaction u .advance = some u.clearWriters := rfl
    obtain ⟨cs, _, hrun, hends⟩ := exists_run_loop capacity scheduled reaction
      (s := u.clearWriters) rfl rfl
    have hsecond := (hfirst.trans (Run.single hclear trivial)).trans hrun
    obtain hblocked | ⟨hreaders, rfl⟩ := hends
    · exact ⟨_, _, hsecond, .inl hblocked⟩
    · let v : State V := { u.clearWriters with
        channel := (Loop.readers.list u.channel).foldl (resume scheduled) u.clearWriters.channel
        pc := .resuming .readers (Loop.readers.list u.channel) [] }
      have hreturn : step capacity scheduled reaction v .advance = some v.clearReaders := rfl
      have hlist : Loop.readers.list u.channel = Loop.readers.list (start p).channel := by
        apply list_foldl_resume
      refine ⟨_, v.clearReaders, hsecond.trans (Run.single hreturn trivial), .inr ⟨?_, rfl, ?_⟩⟩
      · intro a ha
        obtain hreader | hwriter := List.mem_append.mp ha
        · apply hreaders
          rw [hlist]
          apply hreader
        · apply hwriters a hwriter
      · simp only [State.clearReaders, v, hlist]
        rfl

/-- Clearing the list of writers first makes no difference to the readers. -/
theorem foldl_wake {writers : List (Writer V)} :
  ∀ (readers : List Reader) (c : Channel.State V),
    readers.foldl Channel.State.wake { c with writer_list := writers } =
      { readers.foldl Channel.State.wake c with writer_list := writers }
  | [], _ => rfl
  | r :: readers, c => foldl_wake readers (c.wake r)

/-- Where every awaiter has a scheduler, `close` does to the channel what `cleanUp` does. -/
theorem closed_eq_cleanUp (hscheduled : ∀ a, scheduled a = true) (c : Channel.State V) :
  closed scheduled c = cleanUp c
  := by
  have hwriter : ∀ (c : Channel.State V) w,
      resume scheduled c (.writer w) = c.call (.writer w) := by
    intro c w
    simp [resume, hscheduled]
  have hreader : ∀ (c : Channel.State V) r, resume scheduled c (.reader r) = c.wake r := by
    intro c r
    simp [resume, hscheduled]
  simp only [closed, cleanUp, Loop.list, List.foldl_map, hwriter, hreader, foldl_wake]

/-- Where no awaiter does harm, all states are safe. -/
theorem safe_of_harmless {p : Parking V} {bs : List (Label V)} {s : State V}
    (hharmless : ∀ a ∈ p.channel.waiting, Harmless scheduled reaction a)
    (hrun : Run (step capacity scheduled reaction) Free (start p) bs s) :
  Safe capacity scheduled reaction s
  := by
  apply Good.safe
  apply hrun.invariant (Good scheduled reaction) _ (Good.start hharmless)
  intro s a t hs _ e
  apply hs.step e

/-- Where every awaiter has a scheduler, `close` on its own does to the channel what its step
`clean_up` does. -/
theorem exists_run_cleanUp (p : Parking V) (hscheduled : ∀ a, scheduled a = true) :
  ∃ bs t, Run (step capacity scheduled reaction) Free (start p) bs t ∧ t.pc = .returned ∧
    t.channel = cleanUp (start p).channel
  := by
  obtain ⟨bs, t, hrun, hblocked | ⟨-, hpc, hchannel⟩⟩ :=
    exists_run_close capacity scheduled reaction p
  · apply absurd (safe_of_harmless _ hrun) hblocked.not_safe
    intro a _
    left
    apply hscheduled
  · use bs, t, hrun, hpc
    rw [hchannel, closed_eq_cleanUp hscheduled]

/-- Whatever the other threads do, `close` returns, and every awaiter parked at the channel is
resumed once and gets the exception, exactly when each of them has a scheduler or a coroutine that
does not take the lock when it is resumed. -/
theorem safe_iff_harmless (p : Parking V) :
  (∀ bs s, Run (step capacity scheduled reaction) Free (start p) bs s →
      Safe capacity scheduled reaction s) ↔
    ∀ a ∈ p.channel.waiting, Harmless scheduled reaction a
  := by
  constructor
  · intro hsafe
    obtain ⟨bs, t, hrun, hblocked | ⟨hharmless, -⟩⟩ :=
      exists_run_close capacity scheduled reaction p
    · apply absurd (hsafe bs t hrun) hblocked.not_safe
    · apply hharmless
  · intro hharmless bs s hrun
    apply safe_of_harmless hharmless hrun

/-- A reader without a scheduler is parked at the channel.  It is resumed inline, its `co_await`
throws, and the awaiter is destroyed: `remove_reader` waits for the lock that `close` holds. -/
theorem waits_for_itself :
  ¬ ∀ (capacity : ℕ) (scheduled : Awaiter → Bool) (reaction : Awaiter → List Act)
      (p : Parking ℕ) (bs : List (Label ℕ)) (s : State ℕ),
    Run (step capacity scheduled reaction) Free (start p) bs s →
    Safe capacity scheduled reaction s
  := by
  intro hsafe
  have hparked : Run (Channel.step 0) Free (initial ℕ) [.try_push_reader 0]
      ((initial ℕ).parkReader 0) := by
    apply run_of_exec
    rfl
  let p : Parking ℕ := Parking.ofRun hparked rfl
  let scheduled : Awaiter → Bool := fun _ => false
  let reaction : Awaiter → List Act := fun a => [.remove a]
  let s : State ℕ := ((start p).lock.clearWriters).resumeNext scheduled reaction .readers
    [.reader 0] (.reader 0) []
  have hrun : Run (step 0 scheduled reaction) Free (start p) [.advance, .advance, .advance] s := by
    apply run_of_exec
    rfl
  have hblocked : Blocked s := ⟨rfl, .remove (.reader 0), [], rfl, rfl⟩
  apply hblocked.not_safe (hsafe 0 scheduled reaction p _ s hrun)

end Resuming

end Koroutine.Channel
