import Koroutine.Task.AwaitTransform
import Mathlib.Data.Nat.Notation
import Mathlib.Logic.Function.Basic

/-!
# `TaskManager`

`submit_to_group` gives a task the token of a new source, starts it, and adds it to a group.
`join_group` scans a group until no task in it is unfinished, and removes the finished ones in
between; the empty name stands for all groups.  `cancel_group` cancels the tokens of a group and
joins it, and `shutdown` cancels all groups.

A step of the model is one section under `mtx_`, one token cancelled in the section of
`cancel_group`, a worker that resumes a task, or a running task that reaches a `co_await` or its
end.  Nobody awaits the tasks, so that the callback `with_cancellation` has registered for a token
resumes nothing.

`targets` records the tasks whose tokens a call of `cancel_group` cancels, `steps` the steps a task
has taken since its token was cancelled, and `passed` the `co_await`s that `await_transform` has let
it pass since then.
-/

namespace Koroutine

namespace Manager

open AwaitTransform

/-- Where a task is. -/
inductive Stage (β V E : Type*)
  | unsubmitted
  /-- On the scheduler. -/
  | scheduled
  | running (b : β)
  | suspended (rest : Except E V → β)
  | done

/-- `is_done` -/
def Stage.isDone {β V E : Type*} : Stage β V E → Bool
  | .done => true
  | _ => false

/-- Where a call of `shutdown`, `cancel_group` or `join_group` is. -/
inductive Pc (ι : Type*)
  | idle
  /-- At the beginning of `shutdown`. -/
  | shuttingDown
  /-- At the beginning of `cancel_group`. -/
  | cancelling (name : String)
  /-- Holding `mtx_`, in the loop over the entries of the group. -/
  | cancelLoop (name : String) (todo : List ι)
  /-- At the beginning of the loop of `join_group`. -/
  | scanning (name : String)
  /-- About to remove the finished tasks. -/
  | erasing (name : String) (active : List ι)
  /-- In `co_await SleepAwaiter(20)`. -/
  | sleeping (name : String) (active : List ι)
  | returned

/-- The manager, the calls made to it, the tasks, and their tokens. -/
structure State (ι β V E : Type*) where
  entries : List (String × ι)
  is_shutdown : Bool
  mtx : Option ℕ
  call : ℕ → Pc ι
  stage : ι → Stage β V E
  cancelled : ι → Bool
  targets : ℕ → List ι
  steps : ι → ℕ
  passed : ι → ℕ

/-- The steps.  A call goes on where nothing is to be chosen, or cancels the `k`-th token it has
still to cancel; a worker starts a task, or resumes it with the outcome of what it awaits. -/
inductive Label (ι χ V E : Type*)
  | submit (name : String) (i : ι)
  | shutdown (c : ℕ)
  | cancelGroup (c : ℕ) (name : String)
  | joinGroup (c : ℕ) (name : String)
  | go (c : ℕ)
  | cancel (c k : ℕ)
  | start (i : ι)
  | reach (i : ι) (x : χ)
  | resume (i : ι) (r : Except E V)

/-- A manager without tasks. -/
def initial {ι β V E : Type*} : State ι β V E where
  entries := []
  is_shutdown := false
  mtx := none
  call := fun _ => .idle
  stage := fun _ => .unsubmitted
  cancelled := fun _ => false
  targets := fun _ => []
  steps := fun _ => 0
  passed := fun _ => 0

variable {ι β χ V E : Type*}

/-- The entry is in the group; every entry is in the one with the empty name. -/
def inGroup (name : String) (entry : String × ι) : Bool := name = "" || entry.1 = name

namespace State

/-- The tasks in a group. -/
def tasks (s : State ι β V E) (name : String) : List ι :=
  (s.entries.filter (inGroup name)).map Prod.snd

/-- The tasks in a group that are not done. -/
def active (s : State ι β V E) (name : String) : List ι :=
  (s.tasks name).filter fun i => !(s.stage i).isDone

/-- A call goes on. -/
def goTo (s : State ι β V E) (c : ℕ) (pc : Pc ι) : State ι β V E :=
  { s with call := Function.update s.call c pc }

end State

/-- The next step of a call, where nothing is to be chosen. -/
def goStep (s : State ι β V E) (c : ℕ) : Option (State ι β V E) :=
  match s.call c with
  | .idle | .returned | .cancelLoop _ (_ :: _) => none
  | .shuttingDown =>
      if s.mtx = none then
        some (if s.is_shutdown then s.goTo c .returned
          else { s.goTo c (.cancelling "") with is_shutdown := true })
      else none
  | .cancelling name =>
      if s.mtx = none then
        some { s.goTo c (.cancelLoop name (s.tasks name)) with
          mtx := some c
          targets := Function.update s.targets c (s.tasks name) }
      else none
  | .cancelLoop name [] => some { s.goTo c (.scanning name) with mtx := none }
  | .scanning name =>
      if s.mtx = none then
        some (s.goTo c (if s.active name = [] then .returned else .erasing name (s.active name)))
      else none
  | .erasing name active =>
      if s.mtx = none then
        some { s.goTo c (.sleeping name active) with
          entries := s.entries.filter fun entry =>
            !(inGroup name entry && (s.stage entry.2).isDone) }
      else none
  | .sleeping name _ => some (s.goTo c (.scanning name))

variable [DecidableEq ι]

/-- A task takes a step. -/
def State.move (s : State ι β V E) (i : ι) (stage : Stage β V E) : State ι β V E :=
  { s with
    stage := Function.update s.stage i stage
    steps := Function.update s.steps i (s.steps i + (s.cancelled i).toNat) }

/-- A running task reaches its end, or a `co_await`. -/
def reachStep (s : State ι β V E) (P : Bodies ι β χ V E) (i : ι) (b : β) (x : χ) :
    State ι β V E :=
  match P.reach b x with
  | .coReturn _ | .throw _ => s.move i .done
  | .coAwait operand rest =>
      match awaitTransform (some (s.cancelled i)) operand.overload with
      | .ok () =>
          { s.move i (.suspended rest) with
            passed := Function.update s.passed i (s.passed i + (s.cancelled i).toNat) }
      | .error _ => s.move i (.running (rest (.error P.cancelled)))

/-- A call is made. -/
def State.begin (s : State ι β V E) (c : ℕ) (pc : Pc ι) : Option (State ι β V E) :=
  match s.call c with
  | .idle => some (s.goTo c pc)
  | _ => none

/-- The step function. -/
def step (P : Bodies ι β χ V E) (s : State ι β V E) : Label ι χ V E → Option (State ι β V E)
  | .submit name i =>
      match s.mtx, s.stage i with
      | none, .unsubmitted =>
          some (if s.is_shutdown then s
            else { s with
              entries := s.entries ++ [(name, i)]
              stage := Function.update s.stage i .scheduled })
      | _, _ => none
  | .shutdown c => s.begin c .shuttingDown
  | .cancelGroup c name => s.begin c (.cancelling name)
  | .joinGroup c name => s.begin c (.scanning name)
  | .go c => goStep s c
  | .cancel c k =>
      match s.call c with
      | .cancelLoop name todo =>
          match todo[k]? with
          | some i =>
              if k = 0 ∨ name = "" then
                some { s.goTo c (.cancelLoop name (todo.eraseIdx k)) with
                  cancelled := Function.update s.cancelled i true }
              else none
          | none => none
      | _ => none
  | .start i =>
      match s.stage i with
      | .scheduled => some (s.move i (.running (P.start i)))
      | _ => none
  | .reach i x =>
      match s.stage i with
      | .running b => some (reachStep s P i b x)
      | _ => none
  | .resume i r =>
      match s.stage i with
      | .suspended rest => some (s.move i (.running (rest r)))
      | _ => none

end Manager

end Koroutine
