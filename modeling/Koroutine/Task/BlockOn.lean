import Koroutine.Task.Frames
import Koroutine.Transition.Monitor

/-!
# `Runtime::block_on`

`block_on` creates a wrapper coroutine that awaits the task and stores its value in `result` or its
exception in `exception_ptr`, puts it on the scheduler, and waits on a condition variable until
`is_completed`.  The `FinalAwaiter` of the wrapper sets the flag and notifies, with the mutex
locked.

The wrapper is the first coroutine of a chain of awaits, and the result of its promise stands for
`result` and `exception_ptr`.  For a `Task<void>` the task that `block_on` awaits is one that
awaits the given task and returns zero.
-/

open Transition

namespace Koroutine

namespace BlockOn

variable {τ ω V E : Type}

/-- `FinalAwaiter::await_suspend` of the wrapper. -/
inductive Signal
  | idle
  | locked
  | stored
  | notified
  | unlocked
  deriving DecidableEq

/-- The mutex is locked. -/
def Signal.holds : Signal → Bool
  | .locked | .stored | .notified => true
  | .idle | .unlocked => false

/-- The coroutines, the last steps of the wrapper, and the calling thread. -/
structure State (τ ω V E : Type) where
  tasks : Tasks.State τ ω V E
  signal : Signal
  is_completed : Bool
  waiter : Waiter
  returned : Option (Except E V)

/-- The steps: one of the coroutines, of the wrapper's `FinalAwaiter`, or of the calling thread,
which moves in `cv.wait`, or leaves. -/
inductive Label (τ V E : Type)
  | tasks (a : Tasks.Label τ V E)
  | signal
  | waiter (m : Waiter.Move)
  | leave

/-- The next step of the wrapper's `FinalAwaiter`, once the wrapper is suspended at its end. -/
def signalStep (s : State τ ω V E) : Option (State τ ω V E) :=
  match s.signal with
  | .idle =>
      match s.tasks.frames with
      | ⟨_, .final⟩ :: _ => if s.waiter.holds then none else some { s with signal := .locked }
      | _ => none
  | .locked => some { s with signal := .stored, is_completed := true }
  | .stored => some { s with signal := .notified, waiter := s.waiter.notify }
  | .notified => some { s with signal := .unlocked }
  | .unlocked => none

/-- The calling thread destroys the wrapper, and returns `*result` or rethrows `exception_ptr`. -/
def leave (s : State τ ω V E) : Option (State τ ω V E) :=
  if s.waiter = .through ∧ s.returned = none then
    match (s.tasks.promise 0).result with
    | none => none
    | some r =>
        some { s with
          tasks := { s.tasks.destroy s.tasks.frames with frames := [] }
          returned := some r }
  else none

/-- The step function. -/
def step [DecidableEq τ] (cancelledException : E) (s : State τ ω V E) :
    Label τ V E → Option (State τ ω V E)
  | .tasks a =>
      match Tasks.step cancelledException s.tasks a with
      | none => none
      | some tasks => some { s with tasks := tasks }
  | .signal => signalStep s
  | .waiter m =>
      match s.waiter.step (!s.signal.holds) s.is_completed m with
      | none => none
      | some waiter => some { s with waiter := waiter }
  | .leave => leave s

/-- The body of the wrapper. -/
def wrapper (token : Option τ) (task : Body τ ω V E) : Body τ ω V E :=
  .coAwait token task .ofOutcome

/-- `block_on` has put the wrapper on the scheduler. -/
def initial (token : Option τ) (task : Body τ ω V E) : State τ ω V E where
  tasks := Tasks.initial τ (wrapper token task)
  signal := .idle
  is_completed := false
  waiter := .outside
  returned := none

/-- The overloads of `block_on`, for a `Task<ResultType>` and for a `Task<void>`, with the `0` that
the latter returns. -/
inductive Overload (V : Type)
  | value
  | void (zero : V)

/-- The task that is awaited. -/
def Overload.task : Overload V → Program V E → Program V E
  | .value, p => p
  | .void zero, p => .coAwait p fun _ => .coReturn zero

/-- What `block_on` gives its caller, for a task with the given outcome. -/
def Overload.outcome : Overload V → Except E V → Except E V
  | .value, r => r
  | .void _, .error e => .error e
  | .void zero, .ok _ => .ok zero

/-- The awaited task has the outcome that `block_on` gives. -/
theorem Overload.value_task (ov : Overload V) (p : Program V E) :
  (ov.task p).value = ov.outcome p.value
  := by
  cases ov with
  | value => rfl
  | void zero =>
      simp only [Overload.task, Program.value, Program.exec]
      cases p.exec.outcome <;> rfl

end BlockOn

end Koroutine
