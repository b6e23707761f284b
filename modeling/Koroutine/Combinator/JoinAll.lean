import Koroutine.Combinator.Basic
import Koroutine.Transition.Monitor
import Koroutine.Transition.Parties

/-!
# `Runtime::join_all`

The calling thread creates one wrapper coroutine for each task, starts them, and waits on a
condition variable until the counter `remaining` is `0`.  A wrapper awaits its task and then
decrements `remaining`; the wrapper that takes it from `1` to `0` calls `cv.notify_one`.  After
a task that succeeded this happens without the mutex, after a task that failed with the mutex
held.

A step of the model is one atomic action of one thread: one locked section's entry, one
update of shared data, one `fetch_sub`, one notification, one unlocking.  The number `n` of
tasks and their outcomes are arbitrary.
-/

open Transition

namespace Koroutine

namespace JoinAll

/-- The stages of a wrapper coroutine. -/
inductive Stage
  /-- The wrapper has not been created. -/
  | unborn
  /-- Suspended at the initial suspend point. -/
  | created
  /-- Started: in the scheduler's queue. -/
  | queued
  /-- In the `co_await` of its task. -/
  | awaiting
  /-- The `co_await` has ended, with the task's value or exception. -/
  | resumed
  /-- In the `catch` block, holding `mtx`. -/
  | locked
  /-- In the `catch` block, the exception recorded. -/
  | pushed
  /-- `remaining.fetch_sub(1)` is done; `last` says that it returned `1`. -/
  | counted (last : Bool)
  /-- The notification, where there is one, has been issued. -/
  | notified
  /-- The body has ended; `return_void` is next. -/
  | finishing
  /-- The result is stored; `final_suspend` is next. -/
  | returned
  /-- Suspended at the final suspend point. -/
  | final
  deriving DecidableEq

/-- The stages of the calling thread. -/
inductive Caller
  | entering
  | building (k : ℕ)
  | starting (k : ℕ)
  | waiting (w : Waiter)
  | left
  deriving DecidableEq

/-- The threads that lock `mtx`. -/
inductive Party (n : ℕ)
  | caller
  | wrapper (i : Fin n)
  deriving DecidableEq

/-- The local variables of `join_all`, the wrappers, the calling thread, and what the call
returned: nothing, or the list an `AggregateException` carries. -/
structure State (E : Type*) (n : ℕ) where
  remaining : ℕ
  exceptions : List E
  mtx : Option (Party n)
  wrappers : Fin n → Stage
  caller : Caller
  outcome : Option (Except (List E) Unit)

/-- A step is one of the calling thread, a spurious wake-up of it, or one of a wrapper. -/
inductive Label (n : ℕ)
  | caller
  | spurious
  | wrapper (i : Fin n)
  deriving DecidableEq

variable {V E : Type*} {n : ℕ}

/-- The state before the call. -/
def initial (E : Type*) (n : ℕ) : State E n where
  remaining := n
  exceptions := []
  mtx := none
  wrappers := fun _ => .unborn
  caller := .entering
  outcome := none

namespace State

/-- Wrapper `i` goes on to stage `st`. -/
def goto (s : State E n) (i : Fin n) (st : Stage) : State E n :=
  { s with wrappers := Function.update s.wrappers i st }

/-- Wrapper `i` enters the `catch` block and locks `mtx`. -/
def lock (s : State E n) (i : Fin n) : State E n :=
  { s with wrappers := Function.update s.wrappers i .locked, mtx := some (.wrapper i) }

/-- `exceptions.push_back(std::current_exception())` -/
def push (s : State E n) (i : Fin n) (e : E) : State E n :=
  { s with
    wrappers := Function.update s.wrappers i .pushed
    exceptions := s.exceptions ++ [e] }

/-- `remaining.fetch_sub(1) == 1` -/
def decrement (s : State E n) (i : Fin n) : State E n :=
  { s with
    wrappers := Function.update s.wrappers i (.counted (s.remaining = 1))
    remaining := fetchSub s.remaining }

/-- Wrapper `i` leaves the `catch` block and unlocks `mtx`. -/
def unlock (s : State E n) (i : Fin n) : State E n :=
  { s with wrappers := Function.update s.wrappers i .finishing, mtx := none }

/-- The caller goes on to stage `c`. -/
def goes (s : State E n) (c : Caller) : State E n :=
  { s with caller := c }

/-- The caller moves while it waits, taking or releasing the mutex. -/
def move (s : State E n) (w : Waiter) : State E n :=
  { s with caller := .waiting w, mtx := if w.holds then some .caller else none }

/-- The caller leaves `join_all`: it unlocks `mtx`, destroys its local variables, among them
the wrappers, and throws when an exception was recorded. -/
def leave (s : State E n) : State E n :=
  { s with
    caller := .left
    mtx := none
    outcome := some (if s.exceptions.isEmpty then .ok () else .error s.exceptions) }

/-- `cv.notify_one()` -/
def notifyOne (s : State E n) : State E n :=
  match s.caller with
  | .waiting w => { s with caller := .waiting w.notify }
  | _ => s

@[simp]
theorem notifyOne_wrappers (s : State E n) :
  s.notifyOne.wrappers = s.wrappers
  := by
  unfold notifyOne
  split <;> rfl

@[simp]
theorem notifyOne_remaining (s : State E n) :
  s.notifyOne.remaining = s.remaining
  := by
  unfold notifyOne
  split <;> rfl

@[simp]
theorem notifyOne_mtx (s : State E n) :
  s.notifyOne.mtx = s.mtx
  := by
  unfold notifyOne
  split <;> rfl

/-- A notification keeps the caller in the wait, in the same or in the woken stage. -/
theorem notifyOne_caller {s : State E n} {w : Waiter} (h : s.notifyOne.caller = .waiting w) :
  ∃ w', s.caller = .waiting w' ∧ w = w'.notify
  := by
  unfold notifyOne at h
  split at h
  · rename_i w' hw
    use w', hw
    injection h with h
    rw [h]
  · rename_i hne
    apply absurd h (hne w)

end State

/-- The stage of the wait the calling thread is in. -/
def Caller.waiter : Caller → Waiter
  | .waiting w => w
  | .left => .through
  | _ => .outside

/-- The move the calling thread makes next in its wait. -/
def nextMove : Waiter → Option Waiter.Move
  | .outside | .woken => some .acquire
  | .holding => some .check
  | .committed => some .block
  | .blocked | .through => none

/-- A step of the calling thread. -/
def callerStep (ov : Overload) (s : State E n) : Option (State E n) :=
  match s.caller with
  | .entering =>
      if ov = .vector ∧ n = 0 then some { s with caller := .left, outcome := some (.ok ()) }
      else some (s.goes (.building 0))
  | .building k =>
      if h : k < n then some ((s.goto ⟨k, h⟩ .created).goes (.building (k + 1)))
      else some (s.goes (.starting 0))
  | .starting k =>
      if h : k < n then some ((s.goto ⟨k, h⟩ .queued).goes (.starting (k + 1)))
      else some (s.goes (.waiting .outside))
  | .waiting .through => some s.leave
  | .waiting w =>
      (nextMove w).bind fun m => (w.step (s.mtx = none) (s.remaining = 0) m).map s.move
  | .left => none

/-- A step of wrapper `i`, whose task has the outcome `r`. -/
def wrapperStep (r : Except E V) (s : State E n) (i : Fin n) : Option (State E n) :=
  match s.wrappers i, r with
  | .queued, _ => some (s.goto i .awaiting)
  | .awaiting, _ => some (s.goto i .resumed)
  | .resumed, .error _ => if s.mtx = none then some (s.lock i) else none
  | .locked, .error e => some (s.push i e)
  | .resumed, .ok _ | .pushed, .error _ => some (s.decrement i)
  | .counted true, _ => some (s.notifyOne.goto i .notified)
  | .counted false, _ => some (s.goto i .notified)
  | .notified, .ok _ => some (s.goto i .finishing)
  | .notified, .error _ => some (s.unlock i)
  | .finishing, _ => some (s.goto i .returned)
  | .returned, _ => some (s.goto i .final)
  | _, _ => none

/-- The step function of a call of `join_all` on tasks with the given outcomes. -/
def step (ov : Overload) (outcomes : Fin n → Except E V) (s : State E n) :
    Label n → Option (State E n)
  | .caller => callerStep ov s
  | .spurious =>
      match s.caller with
      | .waiting .blocked => some (s.goes (.waiting .woken))
      | _ => none
  | .wrapper i => wrapperStep (outcomes i) s i

/-! ### What a step of a wrapper does -/

/-- `1` before the wrapper's `fetch_sub`, `0` after it. -/
def Stage.uncounted : Stage → ℕ
  | .unborn | .created | .queued | .awaiting | .resumed | .locked | .pushed => 1
  | .counted _ | .notified | .finishing | .returned | .final => 0

/-- `1` between the `fetch_sub` that returned `1` and the notification it entails. -/
def Stage.signalling : Stage → ℕ
  | .counted true => 1
  | _ => 0

/-- The stages in which a wrapper whose task has the outcome `r` holds `mtx`. -/
def Stage.locks (r : Except E V) : Stage → Bool
  | .locked | .pushed | .counted _ | .notified => !r.isOk
  | _ => false

/-- The effects a step of wrapper `i` can have on the state. -/
inductive Effect (r : Except E V) (s : State E n) (i : Fin n) : State E n → Prop
  | quiet {st st' : Stage} (before : s.wrappers i = st) (uncounted : st'.uncounted = st.uncounted)
      (signalling : st'.signalling = st.signalling) (locks : st'.locks r = st.locks r) :
      Effect r s i (s.goto i st')
  | lock (before : s.wrappers i = .resumed) (free : s.mtx = none) : Effect r s i (s.lock i)
  | push {e : E} (before : s.wrappers i = .locked) : Effect r s i (s.push i e)
  | decrement {st : Stage} (before : s.wrappers i = st) (uncounted : st.uncounted = 1)
      (locks : ∀ b, (Stage.counted b).locks r = st.locks r) : Effect r s i (s.decrement i)
  | notify (before : s.wrappers i = .counted true) : Effect r s i (s.notifyOne.goto i .notified)
  | unlock (before : s.wrappers i = .notified) (locks : Stage.notified.locks r = true) :
      Effect r s i (s.unlock i)

/-- Every step of a wrapper has one of the effects. -/
theorem wrapperStep_effect {r : Except E V} {s t : State E n} {i : Fin n}
    (h : wrapperStep r s i = some t) :
  Effect r s i t
  := by
  cases hst : s.wrappers i with
  | unborn | created | final => simp [wrapperStep, hst] at h
  | queued | awaiting | finishing | returned =>
      simp only [wrapperStep, hst, Option.some.injEq] at h
      subst h
      apply Effect.quiet hst <;> rfl
  | resumed =>
      cases r with
      | ok v =>
          simp only [wrapperStep, hst, Option.some.injEq] at h
          subst h
          apply Effect.decrement hst <;> intros <;> rfl
      | error e =>
          simp only [wrapperStep, hst, Option.ite_none_right_eq_some, Option.some.injEq] at h
          obtain ⟨hfree, rfl⟩ := h
          apply Effect.lock hst hfree
  | locked =>
      cases r with
      | ok v => simp [wrapperStep, hst] at h
      | error e =>
          simp only [wrapperStep, hst, Option.some.injEq] at h
          subst h
          apply Effect.push hst
  | pushed =>
      cases r with
      | ok v => simp [wrapperStep, hst] at h
      | error e =>
          simp only [wrapperStep, hst, Option.some.injEq] at h
          subst h
          apply Effect.decrement hst <;> intros <;> rfl
  | counted last =>
      cases last with
      | true =>
          simp only [wrapperStep, hst, Option.some.injEq] at h
          subst h
          apply Effect.notify hst
      | false =>
          simp only [wrapperStep, hst, Option.some.injEq] at h
          subst h
          apply Effect.quiet hst <;> rfl
  | notified =>
      cases r with
      | ok v =>
          simp only [wrapperStep, hst, Option.some.injEq] at h
          subst h
          apply Effect.quiet hst <;> rfl
      | error e =>
          simp only [wrapperStep, hst, Option.some.injEq] at h
          subst h
          apply Effect.unlock hst rfl

/-! ### The invariant -/

/-- `remaining` counts the wrappers that have not decremented it, at most one wrapper is about
to notify, and `mtx` names the thread that is in one of its locked sections. -/
structure Inv (outcomes : Fin n → Except E V) (s : State E n) : Prop where
  counting : Countdown Stage.uncounted Stage.signalling s.wrappers s.remaining
  wrapper_holds : Owned (fun i st => st.locks (outcomes i)) Party.wrapper s.wrappers s.mtx
  caller_holds : ∀ w, s.caller = .waiting w → w.holds = true → s.mtx = some .caller

theorem wrapper_injective :
  Function.Injective (Party.wrapper (n := n))
  := by
  intro i j h
  injection h

theorem Inv.initial (outcomes : Fin n → Except E V) :
  Inv outcomes (initial E n)
  := by
  constructor
  · constructor <;> simp [JoinAll.initial, Stage.uncounted, Stage.signalling]
  · intro i hi
    simp [JoinAll.initial, Stage.locks] at hi
  · intro w hw
    simp [JoinAll.initial] at hw

/-- A wrapper that goes on to another stage, without a change of its weights, of the counter
or of `mtx`, preserves the invariant. -/
theorem Inv.goto {outcomes : Fin n → Except E V} {s : State E n} {i : Fin n} {st : Stage}
    (hs : Inv outcomes s) (hu : st.uncounted = (s.wrappers i).uncounted)
    (hg : st.signalling ≤ (s.wrappers i).signalling)
    (hl : st.locks (outcomes i) = (s.wrappers i).locks (outcomes i)) :
  Inv outcomes (s.goto i st)
  := by
  constructor
  · apply hs.counting.update hu hg
  · apply hs.wrapper_holds.update
    intro h
    rw [← hl, h]
  · apply hs.caller_holds

/-- A wrapper that locks the free `mtx` preserves the invariant. -/
theorem Inv.lock {outcomes : Fin n → Except E V} {s : State E n} {i : Fin n}
    (hs : Inv outcomes s) (hst : s.wrappers i = .resumed) (hfree : s.mtx = none) :
  Inv outcomes (s.lock i)
  := by
  obtain ⟨hcount, hwrap, hcaller⟩ := hs
  rw [hfree] at hwrap hcaller
  constructor
  · apply hcount.update <;> simp [hst, Stage.uncounted, Stage.signalling]
  · apply hwrap.acquire
  · intro w hw hh
    apply absurd (hcaller w hw hh)
    simp

/-- A wrapper that unlocks `mtx` preserves the invariant. -/
theorem Inv.unlock {outcomes : Fin n → Except E V} {s : State E n} {i : Fin n}
    (hs : Inv outcomes s) (hst : s.wrappers i = .notified)
    (hl : Stage.notified.locks (outcomes i) = true) :
  Inv outcomes (s.unlock i)
  := by
  obtain ⟨hcount, hwrap, hcaller⟩ := hs
  have hheld : s.mtx = some (.wrapper i) := by
    apply hwrap i
    simpa [hst] using hl
  constructor
  · apply hcount.update <;> simp [hst, Stage.uncounted, Stage.signalling]
  · apply hwrap.release wrapper_injective
    · simpa [hst] using hl
    · rfl
  · intro w hw hh
    have := hcaller w hw hh
    simp [hheld] at this

/-- The wrapper that decrements `remaining` from `1` is the only one about to notify. -/
theorem Inv.decrement {outcomes : Fin n → Except E V} {s : State E n} {i : Fin n}
    (hs : Inv outcomes s) (hu : (s.wrappers i).uncounted = 1)
    (hl : ∀ b, (Stage.counted b).locks (outcomes i) = (s.wrappers i).locks (outcomes i)) :
  Inv outcomes (s.decrement i)
  := by
  obtain ⟨hcount, hwrap, hcaller⟩ := hs
  obtain ⟨k, hk⟩ : ∃ k, s.remaining = k + 1 :=
    Nat.exists_eq_add_one.mpr (hcount.pending (i := i) (by omega)).1
  rw [hk] at hcount
  constructor
  · rw [State.decrement, hk]
    apply hcount.decrement hu
    · rfl
    · by_cases hzero : k = 0 <;> simp [hzero, Stage.signalling]
  · apply hwrap.update
    intro h
    rw [← hl, h]
  · apply hcaller

/-- A notification preserves the invariant. -/
theorem Inv.notifyOne {outcomes : Fin n → Except E V} {s : State E n} (hs : Inv outcomes s) :
  Inv outcomes s.notifyOne
  := by
  constructor
  · simpa using hs.counting
  · simpa using hs.wrapper_holds
  · intro w hw hh
    obtain ⟨w', hw', rfl⟩ := State.notifyOne_caller hw
    rw [State.notifyOne_mtx]
    apply hs.caller_holds w' hw'
    simpa using hh

/-- A step of a wrapper preserves the invariant. -/
theorem Inv.wrapperStep {outcomes : Fin n → Except E V} {s t : State E n} {i : Fin n}
    (hs : Inv outcomes s) (h : wrapperStep (outcomes i) s i = some t) :
  Inv outcomes t
  := by
  cases wrapperStep_effect h with
  | quiet before uncounted signalling locks =>
      subst before
      apply hs.goto uncounted signalling.le locks
  | lock before free => apply hs.lock before free
  | push before =>
      have hgoto : Inv outcomes (s.goto i .pushed) := by
        apply hs.goto <;> simp [before, Stage.uncounted, Stage.signalling, Stage.locks]
      obtain ⟨hcount, hwrap, hcaller⟩ := hgoto
      constructor
      · apply hcount
      · apply hwrap
      · apply hcaller
  | decrement before uncounted locks =>
      subst before
      apply hs.decrement uncounted locks
  | notify before =>
      apply hs.notifyOne.goto <;> simp [before, Stage.uncounted, Stage.signalling, Stage.locks]
  | unlock before locks => apply hs.unlock before locks

/-- How many wrappers the caller has created. -/
def Caller.made (n : ℕ) : Caller → ℕ
  | .entering => 0
  | .building k => k
  | .starting _ | .waiting _ | .left => n

/-- How many wrappers the caller has started. -/
def Caller.started (n : ℕ) : Caller → ℕ
  | .entering | .building _ => 0
  | .starting k => k
  | .waiting _ | .left => n

/-- The wrappers the caller has not started are in the stages it has left them in. -/
def Fresh (s : State E n) : Prop :=
  Begun .unborn .created (s.caller.made n) (s.caller.started n) s.wrappers

/-- A step of wrapper `i` changes the stage of no other, takes `i` out of a stage the caller
does not leave it in, and keeps the caller's stage, up to waking it. -/
theorem wrapperStep_frame {r : Except E V} {s t : State E n} {i : Fin n}
    (h : wrapperStep r s i = some t) :
  (∃ st, t.wrappers = Function.update s.wrappers i st) ∧
    s.wrappers i ≠ .unborn ∧ s.wrappers i ≠ .created ∧
    (t.caller = s.caller ∨ t.caller = s.notifyOne.caller)
  := by
  have hne : s.wrappers i ≠ .unborn ∧ s.wrappers i ≠ .created := by
    constructor <;> intro hst <;> simp [wrapperStep, hst] at h
  cases wrapperStep_effect h with
  | @quiet st st' => exact ⟨⟨st', rfl⟩, hne.1, hne.2, .inl rfl⟩
  | lock => exact ⟨⟨.locked, rfl⟩, hne.1, hne.2, .inl rfl⟩
  | push => exact ⟨⟨.pushed, rfl⟩, hne.1, hne.2, .inl rfl⟩
  | decrement => exact ⟨⟨_, rfl⟩, hne.1, hne.2, .inl rfl⟩
  | notify =>
      exact ⟨⟨.notified, by rw [State.goto, State.notifyOne_wrappers]⟩, hne.1, hne.2, .inr rfl⟩
  | unlock => exact ⟨⟨.finishing, rfl⟩, hne.1, hne.2, .inl rfl⟩

/-- A notification creates and starts nothing. -/
theorem State.notifyOne_begun (s : State E n) :
  s.notifyOne.caller.made n = s.caller.made n ∧ s.notifyOne.caller.started n = s.caller.started n
  := by
  unfold notifyOne
  split
  · rename_i w hw
    simp [hw, Caller.made, Caller.started]
  · simp

theorem Fresh.wrapperStep {r : Except E V} {s t : State E n} {i : Fin n} (hs : Fresh s)
    (h : wrapperStep r s i = some t) :
  Fresh t
  := by
  obtain ⟨⟨st, hw⟩, hunborn, hcreated, hcaller⟩ := wrapperStep_frame h
  have hsame : t.caller.made n = s.caller.made n ∧
      t.caller.started n = s.caller.started n := by
    obtain hc | hc := hcaller
    · simp [hc]
    · rw [hc]
      apply s.notifyOne_begun
  unfold Fresh
  rw [hw, hsame.1, hsame.2]
  apply hs.update hunborn hcreated

/-! ### What a step of the calling thread does -/

/-- The effects a step of the calling thread can have on the state. -/
inductive CallerEffect (s : State E n) : State E n → Prop
  | empty (before : s.caller = .entering) (none : n = 0) :
      CallerEffect s { s with caller := .left, outcome := some (.ok ()) }
  | enter (before : s.caller = .entering) : CallerEffect s (s.goes (.building 0))
  | build {k : ℕ} (before : s.caller = .building k) (h : k < n) :
      CallerEffect s ((s.goto ⟨k, h⟩ .created).goes (.building (k + 1)))
  | built {k : ℕ} (before : s.caller = .building k) (h : n ≤ k) :
      CallerEffect s (s.goes (.starting 0))
  | start {k : ℕ} (before : s.caller = .starting k) (h : k < n) :
      CallerEffect s ((s.goto ⟨k, h⟩ .queued).goes (.starting (k + 1)))
  | started {k : ℕ} (before : s.caller = .starting k) :
      CallerEffect s (s.goes (.waiting .outside))
  | move {w w' : Waiter} {m : Waiter.Move} (before : s.caller = .waiting w) (own : m ≠ .spurious)
      (step : w.step (s.mtx = none) (s.remaining = 0) m = some w') : CallerEffect s (s.move w')
  | leave (before : s.caller = .waiting .through) : CallerEffect s s.leave

theorem callerStep_effect {ov : Overload} {s t : State E n} (h : callerStep ov s = some t) :
  CallerEffect s t
  := by
  cases hst : s.caller with
  | entering =>
      simp only [callerStep, hst] at h
      split at h
      · rename_i hempty
        simp only [Option.some.injEq] at h
        subst h
        apply CallerEffect.empty hst hempty.2
      · simp only [Option.some.injEq] at h
        subst h
        apply CallerEffect.enter hst
  | building k =>
      simp only [callerStep, hst] at h
      split at h
      · rename_i hk
        simp only [Option.some.injEq] at h
        subst h
        apply CallerEffect.build hst hk
      · simp only [Option.some.injEq] at h
        subst h
        apply CallerEffect.built hst
        omega
  | starting k =>
      simp only [callerStep, hst] at h
      split at h
      · rename_i hk
        simp only [Option.some.injEq] at h
        subst h
        apply CallerEffect.start hst hk
      · simp only [Option.some.injEq] at h
        subst h
        apply CallerEffect.started hst
  | waiting w =>
      by_cases hthrough : w = .through
      · subst hthrough
        simp only [callerStep, hst, Option.some.injEq] at h
        subst h
        apply CallerEffect.leave hst
      · simp only [callerStep, hst] at h
        obtain ⟨m, hnext, hm⟩ := Option.bind_eq_some_iff.mp h
        obtain ⟨w', hw', rfl⟩ := Option.map_eq_some_iff.mp hm
        apply CallerEffect.move hst _ hw'
        rintro rfl
        cases w <;> simp [nextMove] at hnext
  | left => simp [callerStep, hst] at h

/-- No wrapper is in a locked section while the mutex is free or the caller's. -/
theorem Inv.no_wrapper_holds {outcomes : Fin n → Except E V} {s : State E n}
    (hs : Inv outcomes s) (h : ∀ i, s.mtx ≠ some (.wrapper i)) (owner : Option (Party n)) :
  Owned (fun i st => st.locks (outcomes i)) Party.wrapper s.wrappers owner
  := by
  intro i hi
  apply absurd (hs.wrapper_holds i hi) (h i)

/-- The caller, moving in its wait, preserves the invariant. -/
theorem Inv.move {outcomes : Fin n → Except E V} {s : State E n} {w w' : Waiter}
    {m : Waiter.Move} (hs : Inv outcomes s) (hw : s.caller = .waiting w) (hown : m ≠ .spurious)
    (hm : w.step (s.mtx = none) (s.remaining = 0) m = some w') :
  Inv outcomes (s.move w')
  := by
  have hmine : ∀ i, s.mtx ≠ some (.wrapper i) := by
    intro i hi
    obtain ⟨-, -, hfree, -⟩ | ⟨-, rfl, -, -⟩ | ⟨-, rfl, -, -⟩ | ⟨-, rfl, -⟩ | ⟨rfl, -, -⟩ :=
      Monitor.waiter_step_cases hm
    · simp [hi] at hfree
    · simp [hs.caller_holds _ hw rfl] at hi
    · simp [hs.caller_holds _ hw rfl] at hi
    · simp [hs.caller_holds _ hw rfl] at hi
    · apply hown rfl
  constructor
  · apply hs.counting
  · apply hs.no_wrapper_holds hmine
  · intro w'' hw'' hh
    simp only [State.move, Caller.waiting.injEq] at hw'' ⊢
    simp [hw'', hh]

/-- The caller, going on to a stage that does not hold the mutex, preserves the invariant. -/
theorem Inv.goes {outcomes : Fin n → Except E V} {s : State E n} {c : Caller}
    (hs : Inv outcomes s) (hc : ∀ w, c = .waiting w → w.holds = false) :
  Inv outcomes (s.goes c)
  := by
  constructor
  · apply hs.counting
  · apply hs.wrapper_holds
  · intro w hw hh
    rw [hc w hw] at hh
    contradiction

/-- The caller, leaving, preserves the invariant. -/
theorem Inv.leave {outcomes : Fin n → Except E V} {s : State E n} (hs : Inv outcomes s)
    (hw : s.caller = .waiting .through) :
  Inv outcomes s.leave
  := by
  have hmine : s.mtx = some .caller := hs.caller_holds _ hw rfl
  constructor
  · apply hs.counting
  · apply hs.no_wrapper_holds
    simp [hmine]
  · simp [State.leave]

/-- A step of the caller preserves the invariant, and leaves the wrappers it has not started in
the stages `Fresh` says. -/
theorem Inv.callerStep {ov : Overload} {outcomes : Fin n → Except E V} {s t : State E n}
    (hs : Inv outcomes s) (hf : Fresh s) (h : callerStep ov s = some t) :
  Inv outcomes t ∧ Fresh t
  := by
  unfold Fresh at hf ⊢
  cases callerStep_effect h with
  | empty before none =>
      constructor
      · obtain ⟨hcount, hwrap, -⟩ := hs
        constructor
        · apply hcount
        · apply hwrap
        · simp
      · apply Begun.done
  | enter before =>
      rw [before] at hf
      constructor
      · apply hs.goes
        simp
      · apply hf
  | @build k before hk =>
      rw [before] at hf
      have hunborn : s.wrappers ⟨k, hk⟩ = .unborn := hf.unmade _ le_rfl
      constructor
      · apply Inv.goes
        · apply hs.goto <;> simp [hunborn, Stage.uncounted, Stage.signalling, Stage.locks]
        · simp
      · apply hf.make
  | @built k before hk =>
      rw [before] at hf
      constructor
      · apply hs.goes
        simp
      · apply hf.made_all hk
  | @start k before hk =>
      rw [before] at hf
      have hcreated : s.wrappers ⟨k, hk⟩ = .created := hf.unstarted _ hk le_rfl
      constructor
      · apply Inv.goes
        · apply hs.goto <;> simp [hcreated, Stage.uncounted, Stage.signalling, Stage.locks]
        · simp
      · apply hf.start
  | started before =>
      constructor
      · apply hs.goes
        simp [Waiter.holds]
      · apply Begun.done
  | move before own step =>
      constructor
      · apply hs.move before own step
      · apply Begun.done
  | leave before =>
      constructor
      · apply hs.leave before
      · apply Begun.done

/-! ### Runs -/

/-- What holds of every state of a call of `join_all`. -/
structure Valid (outcomes : Fin n → Except E V) (s : State E n) : Prop where
  inv : Inv outcomes s
  fresh : Fresh s

theorem Valid.initial (outcomes : Fin n → Except E V) :
  Valid outcomes (initial E n)
  := by
  constructor
  · apply Inv.initial
  · constructor
    · intro i _
      rfl
    · intro i hi
      simp [JoinAll.initial, Caller.made] at hi

/-- Every step preserves `Valid`. -/
theorem Valid.step {ov : Overload} {outcomes : Fin n → Except E V} {s t : State E n}
    {a : Label n} (hs : Valid outcomes s) (h : step ov outcomes s a = some t) :
  Valid outcomes t
  := by
  obtain ⟨hinv, hfresh⟩ := hs
  cases a with
  | caller =>
      obtain ⟨hi, hf⟩ := hinv.callerStep hfresh h
      constructor
      · apply hi
      · apply hf
  | spurious =>
      simp only [JoinAll.step] at h
      split at h
      · simp only [Option.some.injEq] at h
        subst h
        constructor
        · apply hinv.goes
          simp [Waiter.holds]
        · apply Begun.done
      · simp at h
  | wrapper i =>
      constructor
      · apply hinv.wrapperStep h
      · apply hfresh.wrapperStep h

end JoinAll

end Koroutine
