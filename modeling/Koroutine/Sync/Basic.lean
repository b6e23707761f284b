import Mathlib.Data.List.Basic
import Mathlib.Logic.Function.Basic

/-!
# `AsyncMutex` and `AsyncConditionVariable`

The coroutines `ι` share one mutex and the condition variables `κ` that are used with it.  A step
of the model is one section under an `internal_mutex`, one call of `resume` on another coroutine's
awaiter, or the resumption of a scheduled coroutine.

`AsyncConditionVariable::wait` unlocks the mutex and then, under the mutex of the condition
variable, enqueues itself.  `notify_one` and `notify_all` take waiters under that mutex, and then
wake them one after the other: each is marked by `acquire_for_notify`, which sets `_locked`, and
resumed.

A coroutine calls `unlock` and `wait` only while it owns the mutex.  `owns` records who does.
-/

namespace Koroutine

namespace Sync

/-- `notify_one` and `notify_all`. -/
inductive Notify
  | one
  | all
  deriving DecidableEq

/-- Where a coroutine is. -/
inductive Stage (ι κ : Type*)
  /-- Running its own code. -/
  | running
  /-- In `lock`, with the mutex taken, about to resume itself. -/
  | acquired
  /-- In the list `waiters` of the mutex. -/
  | queued
  /-- Taken from that list by `unlock` of `i`, and not yet resumed. -/
  | granted (i : ι)
  /-- In `unlock`, about to resume `next`, as a part of `wait` on a condition variable or not. -/
  | handing (next : ι) (wait : Option κ)
  /-- In `wait`, with the mutex unlocked, about to enqueue itself. -/
  | releasing (k : κ)
  /-- In the list `waiters` of condition variable `k`. -/
  | waiting (k : κ)
  /-- Taken from that list by a notification of `i`. -/
  | taken (i : ι)
  /-- Given the mutex by `acquire_for_notify`, and not yet resumed. -/
  | notified (i : ι)
  /-- In `notify_one` or `notify_all`, about to take waiters of `k`. -/
  | calling (kind : Notify) (k : κ)
  /-- In `notify_one` or `notify_all`, with these waiters still to wake. -/
  | notifying (ws : List ι)
  /-- The same, about to resume `w`. -/
  | waking (w : ι) (ws : List ι)
  /-- On the scheduler, after `lock` or after `wait`. -/
  | scheduled (waited : Bool)
  deriving DecidableEq

/-- The mutex, the condition variables, and the coroutines with the flag of their `WaitAwaiter`.
`owed i j` records that `j` had released the mutex in `wait` on the condition variable when `i`
began the notification it is about to make, and has not been taken since. -/
structure State (ι κ : Type*) where
  locked : Bool
  waiters : List ι
  cv_waiters : κ → List ι
  owns_mutex_on_resume : ι → Bool
  stage : ι → Stage ι κ
  owns : ι → Bool
  owed : ι → ι → Bool

/-- The calls a running coroutine makes, and the next step of a coroutine otherwise. -/
inductive Label (ι κ : Type*)
  | lock (i : ι)
  | try_lock (i : ι)
  | unlock (i : ι)
  | wait (i : ι) (k : κ)
  | notify (i : ι) (kind : Notify) (k : κ)
  | proceed (i : ι)
  deriving DecidableEq

variable {ι κ : Type*} [DecidableEq ι] [DecidableEq κ]

/-- All coroutines run, and the mutex is free. -/
def initial (ι κ : Type*) : State ι κ where
  locked := false
  waiters := []
  cv_waiters := fun _ => []
  owns_mutex_on_resume := fun _ => false
  stage := fun _ => .running
  owns := fun _ => false
  owed := fun _ _ => false

/-- A coroutine in `wait` on `k` that has released the mutex and has not been notified. -/
def Stage.inWait (k : κ) : Stage ι κ → Bool
  | .handing _ (some k') | .releasing k' | .waiting k' => k = k'
  | _ => false

/-- The first part of `inWait`, before the coroutine has enqueued itself. -/
def Stage.beforeEnqueue (k : κ) : Stage ι κ → Bool
  | .handing _ (some k') | .releasing k' => k = k'
  | _ => false

/-- How a coroutine goes on after `unlock`. -/
def afterUnlock : Option κ → Stage ι κ
  | none => .running
  | some k => .releasing k

/-- The waiters a notification takes. -/
def Notify.takes : Notify → List ι → List ι
  | .one, ws => ws.take 1
  | .all, ws => ws

/-- The waiters a notification leaves. -/
def Notify.leaves : Notify → List ι → List ι
  | .one, ws => ws.drop 1
  | .all, _ => []

namespace State

/-- The coroutine goes on to another stage. -/
def goTo (s : State ι κ) (i : ι) (x : Stage ι κ) : State ι κ :=
  { s with stage := Function.update s.stage i x }

/-- A new `WaitAwaiter`. -/
def newAwaiter (s : State ι κ) (i : ι) : State ι κ :=
  { s with owns_mutex_on_resume := Function.update s.owns_mutex_on_resume i false }

/-- `_locked = true`, for coroutine `i`. -/
def acquire (s : State ι κ) (i : ι) : State ι κ :=
  { s with locked := true, owns := Function.update s.owns i true }

/-- `mutex->waiters.push_back(this)` -/
def enqueue (s : State ι κ) (i : ι) : State ι κ :=
  { s with waiters := s.waiters ++ [i], stage := Function.update s.stage i .queued }

/-- The section of `unlock`, with nobody waiting. -/
def release (s : State ι κ) (i : ι) (wait : Option κ) : State ι κ :=
  { s with
    locked := false
    owns := Function.update s.owns i false
    stage := Function.update s.stage i (afterUnlock wait) }

/-- The section of `unlock`, with `next` at the front of `waiters`. -/
def handOver (s : State ι κ) (i : ι) (wait : Option κ) (next : ι) (waiters : List ι) :
    State ι κ :=
  { s with
    waiters := waiters
    owns := Function.update (Function.update s.owns i false) next true
    stage := Function.update (Function.update s.stage next (.granted i)) i (.handing next wait) }

/-- `cv->waiters.push_back(this)` -/
def enqueueCv (s : State ι κ) (i : ι) (k : κ) : State ι κ :=
  { s with
    cv_waiters := Function.update s.cv_waiters k (s.cv_waiters k ++ [i])
    stage := Function.update s.stage i (.waiting k) }

/-- A call of `notify_one` or `notify_all` begins. -/
def beginNotify (s : State ι κ) (i : ι) (kind : Notify) (k : κ) : State ι κ :=
  { s with
    owed := Function.update s.owed i fun j => (s.stage j).inWait k
    stage := Function.update s.stage i (.calling kind k) }

/-- The section of `notify_one` or `notify_all`. -/
def take (s : State ι κ) (i : ι) (kind : Notify) (k : κ) : State ι κ :=
  let ws := kind.takes (s.cv_waiters k)
  { s with
    cv_waiters := Function.update s.cv_waiters k (kind.leaves (s.cv_waiters k))
    owed := fun j j' => if j = i ∨ j' ∈ ws then false else s.owed j j'
    stage := Function.update (fun j => if j ∈ ws then .taken i else s.stage j) i (.notifying ws) }

/-- `w->mutex->acquire_for_notify()` and `w->owns_mutex_on_resume = true` -/
def acquireForNotify (s : State ι κ) (i w : ι) (ws : List ι) : State ι κ :=
  { s with
    locked := true
    owns := Function.update s.owns w true
    owns_mutex_on_resume := Function.update s.owns_mutex_on_resume w true
    stage := Function.update (Function.update s.stage w (.notified i)) i (.waking w ws) }

/-- `resume` puts another coroutine on the scheduler. -/
def wake (s : State ι κ) (i : ι) (x : Stage ι κ) (j : ι) (waited : Bool) : State ι κ :=
  { s with stage := Function.update (Function.update s.stage j (.scheduled waited)) i x }

end State

/-- `unlock` of coroutine `i`, as a part of `wait` or not. -/
def unlock (s : State ι κ) (i : ι) (wait : Option κ) : State ι κ :=
  match s.waiters with
  | [] => s.release i wait
  | next :: waiters => s.handOver i wait next waiters

/-- The next step of a coroutine that does not run its own code.  A coroutine that is resumed after
`wait` without owning the mutex spins on `try_lock`. -/
def proceed (s : State ι κ) (i : ι) : Option (State ι κ) :=
  match s.stage i with
  | .acquired => some (s.goTo i (.scheduled false))
  | .handing next wait => some (s.wake i (afterUnlock wait) next false)
  | .releasing k => some (s.enqueueCv i k)
  | .calling kind k => some (s.take i kind k)
  | .notifying [] => some (s.goTo i .running)
  | .notifying (w :: ws) => some (s.acquireForNotify i w ws)
  | .waking w ws => some (s.wake i (.notifying ws) w true)
  | .scheduled waited =>
      if waited = false ∨ s.owns_mutex_on_resume i then some (s.goTo i .running)
      else if s.locked then some s
      else some ((s.acquire i).goTo i .running)
  | .running | .queued | .granted _ | .waiting _ | .taken _ | .notified _ => none

/-- The step function. -/
def step (s : State ι κ) : Label ι κ → Option (State ι κ)
  | .lock i =>
      if s.stage i = .running then
        if s.locked then some (s.enqueue i) else some ((s.acquire i).goTo i .acquired)
      else none
  | .try_lock i =>
      if s.stage i = .running then if s.locked then some s else some (s.acquire i) else none
  | .unlock i => if s.stage i = .running ∧ s.owns i then some (unlock s i none) else none
  | .wait i k =>
      if s.stage i = .running ∧ s.owns i then
        some (unlock (s.newAwaiter i) i (some k))
      else none
  | .notify i kind k =>
      if s.stage i = .running then some (s.beginNotify i kind k) else none
  | .proceed i => proceed s i

end Sync

end Koroutine
