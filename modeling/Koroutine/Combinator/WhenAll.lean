import Koroutine.Combinator.Basic
import Koroutine.Combinator.Registration
import Koroutine.Transition.Parties

/-!
# `when_all`

The coroutine of `when_all` creates one wrapper coroutine for each task, starts them, and awaits
their completion: `await_ready` continues at once when `remaining` is `0`; otherwise the
coroutine is suspended, `await_suspend` stores its handle in `state->continuation`, reads
`remaining` once more, and schedules the handle itself when it finds `0`.

A wrapper awaits its task, records the value or the exception under `state->mtx`, decrements
`remaining`, and the one that decrements it from `1` reads `state->continuation` and schedules
it if it is set.  It holds the mutex while it does so, unless its task succeeded in the variadic
overload, which unlocks before it decrements.

The variadic overload also calls `cv.notify_one`, on a condition variable nobody waits on.  A
default scheduler is assumed to be set, so that `state->scheduler` is never null.
-/

open Transition

namespace Koroutine

namespace WhenAll

/-- The stages of a wrapper coroutine. -/
inductive Stage
  /-- The wrapper has not been created. -/
  | unborn
  /-- Suspended at the initial suspend point. -/
  | created
  /-- Started: in the scheduler's queue. -/
  | queued
  /-- In the `co_await` of its task. -/
  | awaiting
  /-- The `co_await` has ended, with the task's value or exception. -/
  | resumed
  /-- Holding `state->mtx`. -/
  | locked
  /-- The value or the exception is recorded. -/
  | stored
  /-- The value is recorded and the mutex unlocked, in the variadic overload. -/
  | unlocked
  /-- `remaining.fetch_sub(1)` is done; `last` says that it returned `1`. -/
  | counted (last : Bool)
  /-- `state->continuation` has been read and is not null. -/
  | dispatching
  /-- The continuation has been scheduled, or there was nothing to schedule. -/
  | settled
  /-- The body has ended; `return_void` is next. -/
  | finishing
  /-- The result is stored; `final_suspend` is next. -/
  | returned
  /-- Suspended at the final suspend point. -/
  | final
  deriving DecidableEq

/-- The stages of the coroutine of `when_all`. -/
inductive Body
  | entering
  | building (k : ℕ)
  | starting (k : ℕ)
  /-- About to call `await_ready`. -/
  | checking
  | suspended
  /-- About to call `await_resume`. -/
  | resuming
  /-- The result is determined; the local variables are still alive. -/
  | leaving
  | left
  deriving DecidableEq

/-- The shared state, the wrappers, the coroutine of `when_all` with its `await_suspend`, and
the result it leaves with.  `dispatched` is how often the coroutine has been put on the
scheduler, `queue` how many of these requests have not been executed. -/
structure State (V E : Type*) (n : ℕ) where
  results : Fin n → Option V
  remaining : ℕ
  mtx : Option (Fin n)
  exceptions : List E
  continuation : Bool
  dispatched : ℕ
  queue : ℕ
  wrappers : Fin n → Stage
  suspend : Suspend
  body : Body
  outcome : Option (Except E (Fin n → Option V))

/-- A step is one of the coroutine's body, of its `await_suspend`, the execution of a request to
resume it, or a step of a wrapper. -/
inductive Label (n : ℕ)
  | body
  | suspend
  | resume
  | wrapper (i : Fin n)
  deriving DecidableEq

variable {V E : Type*} {n : ℕ}

/-- The state before the coroutine is started. -/
def initial (V E : Type*) (n : ℕ) : State V E n where
  results := fun _ => none
  remaining := n
  mtx := none
  exceptions := []
  continuation := false
  dispatched := 0
  queue := 0
  wrappers := fun _ => .unborn
  suspend := .uncalled
  body := .entering
  outcome := none

namespace State

/-- Wrapper `i` goes on to stage `st`. -/
def goto (s : State V E n) (i : Fin n) (st : Stage) : State V E n :=
  { s with wrappers := Function.update s.wrappers i st }

/-- Wrapper `i` locks `state->mtx`. -/
def lock (s : State V E n) (i : Fin n) : State V E n :=
  { s with wrappers := Function.update s.wrappers i .locked, mtx := some i }

/-- `state->results[i] = std::move(result)` -/
def store (s : State V E n) (i : Fin n) (v : V) : State V E n :=
  { s with
    wrappers := Function.update s.wrappers i .stored
    results := Function.update s.results i (some v) }

/-- `state->exceptions.push_back(std::current_exception())` -/
def push (s : State V E n) (i : Fin n) (e : E) : State V E n :=
  { s with
    wrappers := Function.update s.wrappers i .stored
    exceptions := s.exceptions ++ [e] }

/-- Wrapper `i` unlocks `state->mtx` and goes on to stage `st`. -/
def unlock (s : State V E n) (i : Fin n) (st : Stage) : State V E n :=
  { s with wrappers := Function.update s.wrappers i st, mtx := none }

/-- `state->remaining.fetch_sub(1) == 1` -/
def decrement (s : State V E n) (i : Fin n) : State V E n :=
  { s with
    wrappers := Function.update s.wrappers i (.counted (s.remaining = 1))
    remaining := fetchSub s.remaining }

/-- Wrapper `i` schedules the continuation. -/
def dispatch (s : State V E n) (i : Fin n) : State V E n :=
  { s with
    wrappers := Function.update s.wrappers i .settled
    dispatched := s.dispatched + 1
    queue := s.queue + 1 }

/-- The coroutine goes on to stage `b`. -/
def goes (s : State V E n) (b : Body) : State V E n :=
  { s with body := b }

/-- `await_suspend` goes on to stage `st`. -/
def suspends (s : State V E n) (st : Suspend) : State V E n :=
  { s with suspend := st }

/-- `await_resume`: the first recorded exception is rethrown, else the results are returned,
`none` standing for an empty optional that is dereferenced. -/
def awaitResume (s : State V E n) : Except E (Fin n → Option V) :=
  match s.exceptions with
  | [] => .ok s.results
  | e :: _ => .error e

end State

/-- A step of the body. -/
def bodyStep (ov : Overload) (s : State V E n) : Option (State V E n) :=
  match s.body with
  | .entering =>
      if ov = .vector ∧ n = 0 then
        some { s with body := .leaving, outcome := some (.ok s.results) }
      else some (s.goes (.building 0))
  | .building k =>
      if h : k < n then some ((s.goto ⟨k, h⟩ .created).goes (.building (k + 1)))
      else some (s.goes (.starting 0))
  | .starting k =>
      if h : k < n then some ((s.goto ⟨k, h⟩ .queued).goes (.starting (k + 1)))
      else some (s.goes .checking)
  | .checking =>
      if s.remaining = 0 then some (s.goes .resuming)
      else some { s with body := .suspended, suspend := .entered }
  | .resuming => some { s with body := .leaving, outcome := some s.awaitResume }
  | .leaving => some (s.goes .left)
  | .suspended | .left => none

/-- A step of `await_suspend`. -/
def suspendStep (s : State V E n) : Option (State V E n) :=
  match s.suspend with
  | .entered => some { s with suspend := .stored, continuation := true }
  | .stored => some (s.suspends (if s.remaining = 0 then .dispatching else .returned))
  | .dispatching =>
      some { s with
        suspend := .returned
        dispatched := s.dispatched + 1
        queue := s.queue + 1 }
  | .uncalled | .returned => none

/-- The wrapper of a task with the outcome `r` unlocks the mutex before it decrements
`remaining`. -/
def unlocksFirst (ov : Overload) (r : Except E V) : Bool :=
  ov = .variadic && r.isOk

/-- A step of wrapper `i`, whose task has the outcome `r`. -/
def wrapperStep (ov : Overload) (r : Except E V) (s : State V E n) (i : Fin n) :
    Option (State V E n) :=
  match s.wrappers i with
  | .queued => some (s.goto i .awaiting)
  | .awaiting => some (s.goto i .resumed)
  | .resumed => if s.mtx = none then some (s.lock i) else none
  | .locked =>
      match r with
      | .ok v => some (s.store i v)
      | .error e => some (s.push i e)
  | .stored => some (if unlocksFirst ov r then s.unlock i .unlocked else s.decrement i)
  | .unlocked => some (s.decrement i)
  | .counted true => some (s.goto i (if s.continuation then .dispatching else .settled))
  | .counted false => some (s.goto i .settled)
  | .dispatching => some (s.dispatch i)
  | .settled => some (if unlocksFirst ov r then s.goto i .finishing else s.unlock i .finishing)
  | .finishing => some (s.goto i .returned)
  | .returned => some (s.goto i .final)
  | .unborn | .created | .final => none

/-- The step function of `when_all` on tasks with the given outcomes.  A request to resume the
coroutine is executed while it is suspended; executing one at any other time has no defined
meaning. -/
def step (ov : Overload) (outcomes : Fin n → Except E V) (s : State V E n) :
    Label n → Option (State V E n)
  | .body => bodyStep ov s
  | .suspend => suspendStep s
  | .resume =>
      if s.body = .suspended ∧ 0 < s.queue then
        some { s with body := .resuming, queue := s.queue - 1 }
      else none
  | .wrapper i => wrapperStep ov (outcomes i) s i

/-! ### What a step of a wrapper does -/

/-- `1` before the wrapper's `fetch_sub`, `0` after it. -/
def Stage.uncounted : Stage → ℕ
  | .unborn | .created | .queued | .awaiting | .resumed | .locked | .stored | .unlocked => 1
  | .counted _ | .dispatching | .settled | .finishing | .returned | .final => 0

/-- `1` between the `fetch_sub` that returned `1` and the reading of the continuation. -/
def Stage.deciding : Stage → ℕ
  | .counted true => 1
  | _ => 0

/-- `1` between the reading of a continuation that is set and its scheduling. -/
def Stage.dispatches : Stage → ℕ
  | .dispatching => 1
  | _ => 0

/-- `1` for the wrapper that has yet to deal with the continuation. -/
def Stage.signalling (st : Stage) : ℕ := st.deciding + st.dispatches

/-- The next step of a wrapper in this stage is its `fetch_sub`. -/
def Stage.decrements (ov : Overload) (r : Except E V) : Stage → Bool
  | .stored => !unlocksFirst ov r
  | .unlocked => true
  | _ => false

/-- A step of wrapper `i` to stage `st` that touches neither the counter nor the continuation:
it is not counted, and keeps the weights of the wrapper. -/
structure Quiet (s t : State V E n) (i : Fin n) (st : Stage) : Prop where
  wrappers : t.wrappers = Function.update s.wrappers i st
  remaining : t.remaining = s.remaining
  continuation : t.continuation = s.continuation
  dispatched : t.dispatched = s.dispatched
  queue : t.queue = s.queue
  suspend : t.suspend = s.suspend
  body : t.body = s.body
  uncounted : st.uncounted = (s.wrappers i).uncounted
  deciding : st.deciding = (s.wrappers i).deciding
  dispatches : st.dispatches = (s.wrappers i).dispatches

/-- The effects a step of wrapper `i` can have on the counter and the continuation. -/
inductive Effect (ov : Overload) (r : Except E V) (s : State V E n) (i : Fin n) :
    State V E n → Prop
  | quiet {t : State V E n} {st : Stage} (before : (s.wrappers i).decrements ov r = false)
      (quiet : Quiet s t i st) : Effect ov r s i t
  | decrement (before : (s.wrappers i).decrements ov r = true)
      (uncounted : (s.wrappers i).uncounted = 1) : Effect ov r s i (s.decrement i)
  | decide (before : s.wrappers i = .counted true) :
      Effect ov r s i (s.goto i (if s.continuation then .dispatching else .settled))
  | dispatch (before : s.wrappers i = .dispatching) : Effect ov r s i (s.dispatch i)

/-- A wrapper that goes on, or locks or unlocks the mutex, or records its outcome, is quiet if its
weights are the same before and after. -/
theorem Effect.of_quiet {ov : Overload} {r : Except E V} {s t : State V E n} {i : Fin n}
    {st st' : Stage} (hst : s.wrappers i = st) (hd : st.decrements ov r = false)
    (ht : t.wrappers = Function.update s.wrappers i st' ∧ t.remaining = s.remaining ∧
      t.continuation = s.continuation ∧ t.dispatched = s.dispatched ∧ t.queue = s.queue ∧
      t.suspend = s.suspend ∧ t.body = s.body)
    (hweights : st'.uncounted = st.uncounted ∧ st'.deciding = st.deciding ∧
      st'.dispatches = st.dispatches) :
  Effect ov r s i t
  := by
  subst hst
  obtain ⟨hu, hdec, hdis⟩ := hweights
  obtain ⟨hw, hr, hc, hd', hq, hs, hb⟩ := ht
  apply Effect.quiet hd ⟨hw, hr, hc, hd', hq, hs, hb, hu, hdec, hdis⟩

/-- Every step of a wrapper has one of the effects. -/
theorem wrapperStep_effect {ov : Overload} {r : Except E V} {s t : State V E n} {i : Fin n}
    (h : wrapperStep ov r s i = some t) :
  Effect ov r s i t
  := by
  cases hst : s.wrappers i with
  | unborn | created | final => simp [wrapperStep, hst] at h
  | queued | awaiting | finishing | returned =>
      simp only [wrapperStep, hst, Option.some.injEq] at h
      subst h
      exact Effect.of_quiet hst rfl ⟨rfl, rfl, rfl, rfl, rfl, rfl, rfl⟩ ⟨rfl, rfl, rfl⟩
  | resumed =>
      simp only [wrapperStep, hst, Option.ite_none_right_eq_some, Option.some.injEq] at h
      obtain ⟨-, rfl⟩ := h
      exact Effect.of_quiet hst rfl ⟨rfl, rfl, rfl, rfl, rfl, rfl, rfl⟩ ⟨rfl, rfl, rfl⟩
  | locked =>
      cases r with
      | ok v | error e =>
          simp only [wrapperStep, hst, Option.some.injEq] at h
          subst h
          exact Effect.of_quiet hst rfl ⟨rfl, rfl, rfl, rfl, rfl, rfl, rfl⟩ ⟨rfl, rfl, rfl⟩
  | stored =>
      simp only [wrapperStep, hst, Option.some.injEq] at h
      split at h
      · rename_i hfirst
        subst h
        exact Effect.of_quiet hst (by simp [Stage.decrements, hfirst])
          ⟨rfl, rfl, rfl, rfl, rfl, rfl, rfl⟩ ⟨rfl, rfl, rfl⟩
      · rename_i hfirst
        subst h
        apply Effect.decrement
        · simp [hst, Stage.decrements, hfirst]
        · rw [hst]
          rfl
  | unlocked =>
      simp only [wrapperStep, hst, Option.some.injEq] at h
      subst h
      apply Effect.decrement
      · rw [hst]
        rfl
      · rw [hst]
        rfl
  | counted last =>
      cases last with
      | true =>
          simp only [wrapperStep, hst, Option.some.injEq] at h
          subst h
          apply Effect.decide hst
      | false =>
          simp only [wrapperStep, hst, Option.some.injEq] at h
          subst h
          exact Effect.of_quiet hst rfl ⟨rfl, rfl, rfl, rfl, rfl, rfl, rfl⟩ ⟨rfl, rfl, rfl⟩
  | dispatching =>
      simp only [wrapperStep, hst, Option.some.injEq] at h
      subst h
      apply Effect.dispatch hst
  | settled =>
      simp only [wrapperStep, hst, Option.some.injEq] at h
      split at h
      · subst h
        exact Effect.of_quiet hst rfl ⟨rfl, rfl, rfl, rfl, rfl, rfl, rfl⟩ ⟨rfl, rfl, rfl⟩
      · subst h
        exact Effect.of_quiet hst rfl ⟨rfl, rfl, rfl, rfl, rfl, rfl, rfl⟩ ⟨rfl, rfl, rfl⟩

/-! ### The invariant -/

/-- How many wrappers the body has created. -/
def Body.made (n : ℕ) : Body → ℕ
  | .entering => 0
  | .building k => k
  | .starting _ | .checking | .suspended | .resuming | .leaving | .left => n

/-- How many wrappers the body has started. -/
def Body.started (n : ℕ) : Body → ℕ
  | .entering | .building _ => 0
  | .starting k => k
  | .checking | .suspended | .resuming | .leaving | .left => n

/-- The body has not called `await_ready` yet. -/
def Body.early : Body → Bool
  | .entering | .building _ | .starting _ | .checking => true
  | .suspended | .resuming | .leaving | .left => false

/-- `remaining` counts the wrappers that have not decremented it, at most one of them deals with
the continuation, which is set once `await_suspend` has stored it. -/
structure Valid (s : State V E n) : Prop where
  counting : Countdown Stage.uncounted Stage.signalling s.wrappers s.remaining
  fresh : Begun .unborn .created (s.body.made n) (s.body.started n) s.wrappers
  registered : s.continuation = s.suspend.registered
  uncalled : s.body.early = true → s.suspend = .uncalled

theorem Valid.initial :
  Valid (initial V E n)
  := by
  constructor
  · constructor <;> simp [WhenAll.initial, Stage.uncounted, Stage.signalling, Stage.deciding,
      Stage.dispatches]
  · constructor
    · intro i _
      rfl
    · intro i hi
      simp [WhenAll.initial, Body.made] at hi
  · rfl
  · intro _
    rfl

/-- A step of a wrapper that keeps its weights preserves `Valid`. -/
theorem Valid.quiet {s t : State V E n} {i : Fin n} {st : Stage} (hs : Valid s)
    (h : Quiet s t i st) (hunborn : s.wrappers i ≠ .unborn) (hcreated : s.wrappers i ≠ .created) :
  Valid t
  := by
  obtain ⟨hcounting, hfresh, hregistered, huncalled⟩ := hs
  obtain ⟨hw, hr, hc, -, -, hsus, hb, hu, hdec, hdis⟩ := h
  constructor
  · rw [hw, hr]
    apply hcounting.update hu
    rw [Stage.signalling, Stage.signalling, hdec, hdis]
  · rw [hw, hb]
    apply hfresh.update hunborn hcreated
  · rw [hc, hsus, hregistered]
  · rw [hb, hsus]
    apply huncalled

/-- Every step of a wrapper preserves `Valid`. -/
theorem Valid.wrapperStep {ov : Overload} {r : Except E V} {s t : State V E n} {i : Fin n}
    (hs : Valid s) (h : wrapperStep ov r s i = some t) :
  Valid t
  := by
  have hunborn : s.wrappers i ≠ .unborn := by
    intro hst
    simp [WhenAll.wrapperStep, hst] at h
  have hcreated : s.wrappers i ≠ .created := by
    intro hst
    simp [WhenAll.wrapperStep, hst] at h
  have hvalid := hs
  obtain ⟨hcounting, hfresh, hregistered, huncalled⟩ := hs
  cases wrapperStep_effect h with
  | quiet before quiet => apply hvalid.quiet quiet hunborn hcreated
  | decrement before uncounted =>
      obtain ⟨k, hk⟩ : ∃ k, s.remaining = k + 1 :=
        Nat.exists_eq_add_one.mpr (hcounting.pending (i := i) (by omega)).1
      constructor
      · rw [hk] at hcounting
        rw [State.decrement, hk]
        apply hcounting.decrement uncounted
        · rfl
        · by_cases hzero : k = 0 <;>
            simp [hzero, Stage.signalling, Stage.deciding, Stage.dispatches]
      · apply hfresh.update hunborn hcreated
      · apply hregistered
      · apply huncalled
  | decide before =>
      constructor
      · apply hcounting.update
        · rw [before]
          split <;> rfl
        · rw [before]
          split <;> decide
      · apply hfresh.update hunborn hcreated
      · apply hregistered
      · apply huncalled
  | dispatch before =>
      constructor
      · apply hcounting.update
        · rw [before]
          rfl
        · rw [before]
          decide
      · apply hfresh.update hunborn hcreated
      · apply hregistered
      · apply huncalled

/-! ### What a step of the coroutine does -/

/-- The effects a step of the body can have. -/
inductive BodyEffect (s : State V E n) : State V E n → Prop
  | empty (before : s.body = .entering) (none : n = 0) :
      BodyEffect s { s with body := .leaving, outcome := some (.ok s.results) }
  | enter (before : s.body = .entering) : BodyEffect s (s.goes (.building 0))
  | build {k : ℕ} (before : s.body = .building k) (h : k < n) :
      BodyEffect s ((s.goto ⟨k, h⟩ .created).goes (.building (k + 1)))
  | built {k : ℕ} (before : s.body = .building k) (h : n ≤ k) :
      BodyEffect s (s.goes (.starting 0))
  | start {k : ℕ} (before : s.body = .starting k) (h : k < n) :
      BodyEffect s ((s.goto ⟨k, h⟩ .queued).goes (.starting (k + 1)))
  | started {k : ℕ} (before : s.body = .starting k) : BodyEffect s (s.goes .checking)
  | pass (before : s.body = .checking) (ready : s.remaining = 0) :
      BodyEffect s (s.goes .resuming)
  | suspend (before : s.body = .checking) (ready : s.remaining ≠ 0) :
      BodyEffect s { s with body := .suspended, suspend := .entered }
  | resume (before : s.body = .resuming) :
      BodyEffect s { s with body := .leaving, outcome := some s.awaitResume }
  | leave (before : s.body = .leaving) : BodyEffect s (s.goes .left)

/-- Every step of the body has one of the effects. -/
theorem bodyStep_effect {ov : Overload} {s t : State V E n} (h : bodyStep ov s = some t) :
  BodyEffect s t
  := by
  cases hst : s.body with
  | entering =>
      simp only [bodyStep, hst] at h
      split at h
      · rename_i hempty
        simp only [Option.some.injEq] at h
        subst h
        apply BodyEffect.empty hst hempty.2
      · simp only [Option.some.injEq] at h
        subst h
        apply BodyEffect.enter hst
  | building k =>
      simp only [bodyStep, hst] at h
      split at h
      · rename_i hk
        simp only [Option.some.injEq] at h
        subst h
        apply BodyEffect.build hst hk
      · rename_i hk
        simp only [Option.some.injEq] at h
        subst h
        apply BodyEffect.built hst (by omega)
  | starting k =>
      simp only [bodyStep, hst] at h
      split at h
      · rename_i hk
        simp only [Option.some.injEq] at h
        subst h
        apply BodyEffect.start hst hk
      · simp only [Option.some.injEq] at h
        subst h
        apply BodyEffect.started hst
  | checking =>
      simp only [bodyStep, hst] at h
      split at h
      · rename_i hready
        simp only [Option.some.injEq] at h
        subst h
        apply BodyEffect.pass hst hready
      · rename_i hready
        simp only [Option.some.injEq] at h
        subst h
        apply BodyEffect.suspend hst hready
  | resuming =>
      simp only [bodyStep, hst, Option.some.injEq] at h
      subst h
      apply BodyEffect.resume hst
  | leaving =>
      simp only [bodyStep, hst, Option.some.injEq] at h
      subst h
      apply BodyEffect.leave hst
  | suspended | left => simp [bodyStep, hst] at h

/-- A wrapper that is created or started is as uncounted, and as quiet, as before. -/
theorem Valid.hire {s : State V E n} {i : Fin n} {st : Stage} (hs : Valid s)
    (hst : st.uncounted = (s.wrappers i).uncounted) (hsig : st.signalling = 0) :
  Countdown Stage.uncounted Stage.signalling (Function.update s.wrappers i st) s.remaining
  := by
  apply hs.counting.update hst
  rw [hsig]
  apply Nat.zero_le

/-- Every step of the body preserves `Valid`. -/
theorem Valid.bodyStep {ov : Overload} {s t : State V E n} (hs : Valid s)
    (h : bodyStep ov s = some t) :
  Valid t
  := by
  have hfresh := hs.fresh
  have huncalled := hs.uncalled
  cases bodyStep_effect h with
  | empty before none =>
      rw [before] at huncalled
      constructor
      · apply hs.counting
      · apply Begun.done
      · apply hs.registered
      · simp [Body.early]
  | enter before =>
      rw [before] at hfresh huncalled
      exact ⟨hs.counting, hfresh, hs.registered, huncalled⟩
  | build before hk =>
      rw [before] at hfresh huncalled
      have hunborn := hfresh.unmade ⟨_, hk⟩ le_rfl
      constructor
      · apply hs.hire <;> simp [hunborn, Stage.uncounted, Stage.signalling, Stage.deciding,
          Stage.dispatches]
      · apply hfresh.make
      · apply hs.registered
      · apply huncalled
  | built before hk =>
      rw [before] at hfresh huncalled
      constructor
      · apply hs.counting
      · apply hfresh.made_all hk
      · apply hs.registered
      · apply huncalled
  | start before hk =>
      rw [before] at hfresh huncalled
      have hcreated := hfresh.unstarted ⟨_, hk⟩ hk le_rfl
      constructor
      · apply hs.hire <;> simp [hcreated, Stage.uncounted, Stage.signalling, Stage.deciding,
          Stage.dispatches]
      · apply hfresh.start
      · apply hs.registered
      · apply huncalled
  | started before =>
      rw [before] at huncalled
      exact ⟨hs.counting, Begun.done _, hs.registered, huncalled⟩
  | suspend before ready =>
      have hnot := hs.registered
      rw [huncalled (by rw [before]; rfl)] at hnot
      constructor
      · apply hs.counting
      · apply Begun.done
      · apply hnot
      · simp [Body.early]
  | pass before | resume before | leave before =>
      constructor
      · apply hs.counting
      · apply Begun.done
      · apply hs.registered
      · simp [State.goes, Body.early]

/-- Every step preserves `Valid`. -/
theorem Valid.step {ov : Overload} {outcomes : Fin n → Except E V} {s t : State V E n}
    {a : Label n} (hs : Valid s) (h : step ov outcomes s a = some t) :
  Valid t
  := by
  obtain ⟨hcounting, hfresh, hregistered, huncalled⟩ := hs
  cases a with
  | body => apply Valid.bodyStep ⟨hcounting, hfresh, hregistered, huncalled⟩ h
  | wrapper i => apply Valid.wrapperStep ⟨hcounting, hfresh, hregistered, huncalled⟩ h
  | suspend =>
      have hlate : s.suspend ≠ .uncalled → s.body.early = false := by
        intro hne
        cases he : s.body.early with
        | false => rfl
        | true => apply absurd (huncalled he) hne
      cases hst : s.suspend with
      | uncalled | returned => simp [WhenAll.step, suspendStep, hst] at h
      | entered =>
          simp only [WhenAll.step, suspendStep, hst, Option.some.injEq] at h
          subst h
          constructor
          · apply hcounting
          · apply hfresh
          · rfl
          · simp [hlate, hst]
      | dispatching =>
          simp only [WhenAll.step, suspendStep, hst, Option.some.injEq] at h
          subst h
          rw [hst] at hregistered
          constructor
          · apply hcounting
          · apply hfresh
          · apply hregistered
          · simp [hlate, hst]
      | stored =>
          simp only [WhenAll.step, suspendStep, hst, Option.some.injEq] at h
          subst h
          constructor
          · apply hcounting
          · apply hfresh
          · rw [hst] at hregistered
            by_cases hr : s.remaining = 0 <;>
              simp [State.suspends, hr, hregistered, Suspend.registered]
          · simp [State.suspends, hlate, hst]
  | resume =>
      simp only [WhenAll.step, Option.ite_none_right_eq_some, Option.some.injEq] at h
      obtain ⟨-, rfl⟩ := h
      constructor
      · apply hcounting
      · apply Begun.done
      · apply hregistered
      · simp [Body.early]

/-- Every state that a run reaches from the start of the coroutine is valid. -/
theorem Valid.run {ov : Overload} {outcomes : Fin n → Except E V} {t : State V E n}
    {P : State V E n → Label n → State V E n → Prop} {as : List (Label n)}
    (h : Run (WhenAll.step ov outcomes) P (WhenAll.initial V E n) as t) :
  Valid t
  := by
  apply h.invariant Valid _ Valid.initial
  intro s a u hs _ e
  apply hs.step e

end WhenAll

end Koroutine
