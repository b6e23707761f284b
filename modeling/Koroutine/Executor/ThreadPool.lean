import Mathlib.Data.Fintype.Basic
import Mathlib.Data.List.Basic
import Mathlib.Logic.Function.Basic

/-!
# `ThreadPoolExecutor`

`execute` puts a function into `tasks_`, from which the workers take and run it.  `execute_delayed`
puts one into `delayed_tasks_`, from which the timer thread takes it when it is due, and passes it
to `execute`.

A step of the model is one section under `queue_mutex_` or `timer_mutex_`, one notification, or the
end of a function that a worker runs.  A thread that finds nothing to do keeps its mutex from the
evaluation of its predicate until it waits, and these are two steps.  A section of `execute` reads
`stop_` once, and may be taken to happen when it does: nobody else can see `tasks_` before it ends.

Functions are run for their effects on the executor, which are calls of `execute` and
`execute_delayed` like those from outside.  Whether a function returns or throws makes no
difference to its worker.

`accepted`, `taken` and `finished` record the functions that entered `tasks_`, left it, and have
been run.  `executed` and `delayed` record those accepted by `execute` as called from outside the
executor's timer and by `execute_delayed`, and `dropped` those that the timer thread passed to
`execute` in vain.
-/

namespace Koroutine

namespace ThreadPool

/-- How many workers the constructor starts. -/
def workerCount (threads : ℕ) : ℕ := if threads = 0 then 1 else threads

/-- Where a worker is in its loop. -/
inductive Worker (F : Type*)
  /-- About to lock `queue_mutex_` and evaluate the predicate. -/
  | entering
  /-- Holding `queue_mutex_`, about to wait. -/
  | checked
  /-- In `condition_.wait`. -/
  | blocked
  | running (f : F)
  | exited

/-- Where the timer thread is in its loop. -/
inductive Timer (F : Type*)
  /-- About to lock `timer_mutex_`. -/
  | entering
  /-- Holding `timer_mutex_`, about to wait. -/
  | checked
  /-- In `timer_cv_.wait`. -/
  | waiting
  /-- Holding `timer_mutex_`, about to wait until `next_time`. -/
  | postponing (next_time : ℤ)
  /-- In `timer_cv_.wait_until`. -/
  | sleeping (next_time : ℤ)
  /-- About to pass a function to `execute`. -/
  | holding (f : F)
  | exited

/-- Where the call of `shutdown` is that sets `stop_`. -/
inductive Shutdown
  | uncalled
  | stopping
  | locked_queue
  | notified_workers
  | locked_timer
  | joining
  | returned
  deriving DecidableEq

/-- A pool of `n` workers.  `notifies` and `timer_notifies` are the calls of `notify_one` on
`condition_` and `timer_cv_` that are still to be made. -/
structure State (n : ℕ) (F : Type*) where
  tasks : List F
  stop : Bool
  delayed_tasks : List (ℤ × F)
  worker : Fin n → Worker F
  timer : Timer F
  shutdown : Shutdown
  notifies : ℕ
  timer_notifies : ℕ
  now : ℤ
  accepted : List F
  taken : List F
  finished : List F
  executed : List F
  delayed : List F
  dropped : List F

/-- The steps.  `timer k` is a step of the timer thread, with the `k`-th of the delayed functions as
the top of the heap where it looks at it; `execute_delayed` carries the time at which it was
called. -/
inductive Label (n : ℕ) (F : Type*)
  | execute (f : F)
  | execute_delayed (f : F) (called_at ms : ℤ)
  | notify (w : Option (Fin n))
  | notify_timer
  | worker (w : Fin n)
  | finish (w : Fin n) (threw : Bool)
  | wake (w : Fin n)
  | timer (k : ℕ)
  | wake_timer
  | tick (ms : ℕ)
  | call_shutdown
  | shutdown

variable {n : ℕ} {F : Type*}

/-- A new executor, with its threads started. -/
def initial (n : ℕ) (F : Type*) : State n F where
  tasks := []
  stop := false
  delayed_tasks := []
  worker := fun _ => .entering
  timer := .entering
  shutdown := .uncalled
  notifies := 0
  timer_notifies := 0
  now := 0
  accepted := []
  taken := []
  finished := []
  executed := []
  delayed := []
  dropped := []

def Worker.isChecked : Worker F → Bool
  | .checked => true
  | _ => false

def Worker.isBlocked : Worker F → Bool
  | .blocked => true
  | _ => false

def Worker.isExited : Worker F → Bool
  | .exited => true
  | _ => false

def Timer.isExited : Timer F → Bool
  | .exited => true
  | _ => false

/-- The timer thread holds `timer_mutex_` until it waits. -/
def Timer.locks : Timer F → Bool
  | .checked | .postponing _ => true
  | _ => false

/-- A worker that is waiting leaves the wait. -/
def Worker.wake : Worker F → Worker F
  | .blocked => .entering
  | w => w

/-- The timer thread, if it is waiting, leaves the wait. -/
def Timer.wake : Timer F → Timer F
  | .waiting | .sleeping _ => .entering
  | t => t

namespace State

/-- `queue_mutex_` is free. -/
def queueFree (s : State n F) : Prop := ∀ w, (s.worker w).isChecked = false

instance (s : State n F) : Decidable s.queueFree :=
  inferInstanceAs (Decidable (∀ w, (s.worker w).isChecked = false))

/-- Worker `w` goes on. -/
def goTo (s : State n F) (w : Fin n) (x : Worker F) : State n F :=
  { s with worker := Function.update s.worker w x }

/-- `tasks_.emplace(std::move(func))`, with a notification to follow. -/
def accept (s : State n F) (f : F) : State n F :=
  { s with tasks := s.tasks ++ [f], accepted := s.accepted ++ [f], notifies := s.notifies + 1 }

/-- `execute`, called from outside the timer thread. -/
def execute (s : State n F) (f : F) : State n F :=
  if s.stop then s else { s.accept f with executed := s.executed ++ [f] }

/-- `execute_delayed`. -/
def executeDelayed (s : State n F) (f : F) (execute_at : ℤ) : State n F :=
  if s.stop then s
  else { s with
    delayed_tasks := s.delayed_tasks ++ [(execute_at, f)]
    delayed := s.delayed ++ [f]
    timer_notifies := s.timer_notifies + 1 }

/-- A worker takes the first function. -/
def take (s : State n F) (w : Fin n) (f : F) (tasks : List F) : State n F :=
  { s.goTo w (.running f) with tasks := tasks, taken := s.taken ++ [f] }

/-- The section of the timer thread that looks at the `k`-th of the delayed functions. -/
def look (s : State n F) (k : ℕ) : Option (State n F) :=
  match s.delayed_tasks[k]? with
  | some (next_time, f) =>
      if ∀ x ∈ s.delayed_tasks, next_time ≤ x.1 then
        if next_time ≤ s.now then
          some { s with delayed_tasks := s.delayed_tasks.eraseIdx k, timer := .holding f }
        else some { s with timer := .postponing next_time }
      else none
  | none => none

/-- `execute`, called from the timer thread. -/
def pass (s : State n F) (f : F) : State n F :=
  if s.stop then { s with timer := .entering, dropped := s.dropped ++ [f] }
  else { s.accept f with timer := .entering }

end State

/-- A step of worker `w` that is not running a function. -/
def workerStep (s : State n F) (w : Fin n) : Option (State n F) :=
  match s.worker w with
  | .entering =>
      if s.queueFree then
        match s.tasks with
        | f :: tasks => some (s.take w f tasks)
        | [] => some (s.goTo w (if s.stop then .exited else .checked))
      else none
  | .checked => some (s.goTo w .blocked)
  | .blocked | .running _ | .exited => none

/-- A step of the timer thread. -/
def timerStep (s : State n F) (k : ℕ) : Option (State n F) :=
  match s.timer with
  | .entering =>
      match s.delayed_tasks with
      | [] => some { s with timer := if s.stop then .exited else .checked }
      | _ :: _ => s.look k
  | .checked => some { s with timer := .waiting }
  | .postponing next_time => some { s with timer := .sleeping next_time }
  | .holding f => if s.queueFree then some (s.pass f) else none
  | .waiting | .sleeping _ | .exited => none

/-- A step of the call of `shutdown` that has set `stop_`. -/
def shutdownStep (s : State n F) : Option (State n F) :=
  match s.shutdown with
  | .stopping => if s.queueFree then some { s with shutdown := .locked_queue } else none
  | .locked_queue =>
      some { s with worker := fun w => (s.worker w).wake, shutdown := .notified_workers }
  | .notified_workers => if s.timer.locks then none else some { s with shutdown := .locked_timer }
  | .locked_timer => some { s with timer := s.timer.wake, shutdown := .joining }
  | .joining =>
      if (∀ w, (s.worker w).isExited = true) ∧ s.timer.isExited = true then
        some { s with shutdown := .returned }
      else none
  | .uncalled | .returned => none

/-- The step function. -/
def step (s : State n F) : Label n F → Option (State n F)
  | .execute f => if s.queueFree then some (s.execute f) else none
  | .execute_delayed f called_at ms =>
      if called_at ≤ s.now ∧ s.timer.locks = false then some (s.executeDelayed f (called_at + ms))
      else none
  | .notify none =>
      if 0 < s.notifies ∧ ∀ w, (s.worker w).isBlocked = false then
        some { s with notifies := s.notifies - 1 }
      else none
  | .notify (some w) =>
      if 0 < s.notifies ∧ (s.worker w).isBlocked = true then
        some { s.goTo w .entering with notifies := s.notifies - 1 }
      else none
  | .notify_timer =>
      if 0 < s.timer_notifies then
        some { s with timer := s.timer.wake, timer_notifies := s.timer_notifies - 1 }
      else none
  | .worker w => workerStep s w
  | .finish w _ =>
      match s.worker w with
      | .running f => some { s.goTo w .entering with finished := s.finished ++ [f] }
      | _ => none
  | .wake w => if (s.worker w).isBlocked then some (s.goTo w .entering) else none
  | .timer k => timerStep s k
  | .wake_timer => some { s with timer := s.timer.wake }
  | .tick ms => some { s with now := s.now + ms }
  | .call_shutdown => if s.stop then some s else some { s with stop := true, shutdown := .stopping }
  | .shutdown => shutdownStep s

/-! ### What the threads do -/

/-- What a worker does that is not running a function. -/
inductive WorkerEffect (s : State n F) (w : Fin n) : State n F → Prop
  | take (f : F) (tasks : List F) (hw : s.worker w = .entering) (htasks : s.tasks = f :: tasks) :
      WorkerEffect s w (s.take w f tasks)
  | exit (hw : s.worker w = .entering) (htasks : s.tasks = []) (hstop : s.stop = true) :
      WorkerEffect s w (s.goTo w .exited)
  | check (hw : s.worker w = .entering) (htasks : s.tasks = []) (hstop : s.stop = false) :
      WorkerEffect s w (s.goTo w .checked)
  | wait (hw : s.worker w = .checked) :
      WorkerEffect s w (s.goTo w .blocked)

/-- What the timer thread does. -/
inductive TimerEffect (s : State n F) (k : ℕ) : State n F → Prop
  | goTo (x : Timer F) (hbefore : s.timer.isExited = false) (hempty : ∀ f, s.timer ≠ .holding f)
      (hafter : ∀ f, x ≠ .holding f)
      (hexited : x.isExited = true → s.stop = true ∧ s.delayed_tasks = []) :
      TimerEffect s k { s with timer := x }
  | look (next_time : ℤ) (f : F) (htimer : s.timer = .entering)
      (hk : s.delayed_tasks[k]? = some (next_time, f))
      (hfirst : ∀ x ∈ s.delayed_tasks, next_time ≤ x.1) (hdue : next_time ≤ s.now) :
      TimerEffect s k { s with delayed_tasks := s.delayed_tasks.eraseIdx k, timer := .holding f }
  | pass (f : F) (htimer : s.timer = .holding f) (hfree : s.queueFree) :
      TimerEffect s k (s.pass f)

/-- What the call of `shutdown` does that has set `stop_`. -/
inductive ShutdownEffect (s : State n F) : State n F → Prop
  | goTo (shutdown : Shutdown) (h : shutdown ≠ .returned) :
      ShutdownEffect s { s with shutdown := shutdown }
  | notifyWorkers :
      ShutdownEffect s
        { s with worker := fun w => (s.worker w).wake, shutdown := .notified_workers }
  | notifyTimer :
      ShutdownEffect s { s with timer := s.timer.wake, shutdown := .joining }
  | join (hworkers : ∀ w, (s.worker w).isExited = true) (htimer : s.timer.isExited = true) :
      ShutdownEffect s { s with shutdown := .returned }

variable {s t : State n F}

theorem workerStep_effect {w : Fin n} (h : workerStep s w = some t) :
  WorkerEffect s w t
  := by
  unfold workerStep at h
  cases hw : s.worker w with
  | blocked | running f | exited => simp [hw] at h
  | checked =>
      simp only [hw, Option.some.injEq] at h
      rw [← h]
      apply WorkerEffect.wait hw
  | entering =>
      simp only [hw, Option.ite_none_right_eq_some] at h
      obtain ⟨-, h⟩ := h
      cases htasks : s.tasks with
      | cons f tasks =>
          simp only [htasks, Option.some.injEq] at h
          rw [← h]
          apply WorkerEffect.take f tasks hw htasks
      | nil =>
          simp only [htasks, Option.some.injEq] at h
          rw [← h]
          split
          · rename_i hstop
            apply WorkerEffect.exit hw htasks hstop
          · rename_i hstop
            apply WorkerEffect.check hw htasks (Bool.eq_false_iff.mpr hstop)

theorem timerStep_effect {k : ℕ} (h : timerStep s k = some t) :
  TimerEffect s k t
  := by
  unfold timerStep at h
  cases htimer : s.timer with
  | waiting | sleeping next_time | exited => simp [htimer] at h
  | checked | postponing next_time =>
      simp only [htimer, Option.some.injEq] at h
      rw [← h]
      apply TimerEffect.goTo <;> simp [htimer, Timer.isExited]
  | holding f =>
      simp only [htimer, Option.ite_none_right_eq_some, Option.some.injEq] at h
      obtain ⟨hfree, rfl⟩ := h
      apply TimerEffect.pass f htimer hfree
  | entering =>
      simp only [htimer] at h
      split at h
      · rename_i hheap
        obtain rfl := Option.some.inj h
        apply TimerEffect.goTo
        · simp [htimer, Timer.isExited]
        · simp [htimer]
        · intro f
          split <;> simp
        · intro hexited
          refine ⟨?_, hheap⟩
          by_contra hstop
          simp [hstop, Timer.isExited] at hexited
      · simp only [State.look] at h
        split at h
        · rename_i next_time f hk
          simp only [Option.ite_none_right_eq_some] at h
          obtain ⟨hfirst, h⟩ := h
          split at h
          · rename_i hdue
            obtain rfl := Option.some.inj h
            apply TimerEffect.look next_time f htimer hk hfirst hdue
          · obtain rfl := Option.some.inj h
            apply TimerEffect.goTo <;> simp [htimer, Timer.isExited]
        · contradiction

theorem shutdownStep_effect (h : shutdownStep s = some t) :
  ShutdownEffect s t
  := by
  unfold shutdownStep at h
  split at h
  · simp only [Option.ite_none_right_eq_some, Option.some.injEq] at h
    obtain ⟨-, rfl⟩ := h
    exact .goTo _ (by simp)
  · obtain rfl := Option.some.inj h
    apply ShutdownEffect.notifyWorkers
  · simp only [Option.ite_none_left_eq_some, Option.some.injEq] at h
    obtain ⟨-, rfl⟩ := h
    exact .goTo _ (by simp)
  · obtain rfl := Option.some.inj h
    apply ShutdownEffect.notifyTimer
  · simp only [Option.ite_none_right_eq_some, Option.some.injEq] at h
    obtain ⟨⟨hworkers, htimer⟩, rfl⟩ := h
    apply ShutdownEffect.join hworkers htimer
  · contradiction
  · contradiction

end ThreadPool

end Koroutine
