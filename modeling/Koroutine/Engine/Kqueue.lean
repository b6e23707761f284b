import Koroutine.Engine.IoUring

/-!
# `KqueueIOEngine`

`submit` pushes an operation to `pending_ops_` and triggers the wake-up event.  `run` drains
`pending_ops_` under `ops_mutex_`, registers each operation with the kernel for one event of its
filter, and records it in `active_ops_` under its descriptor.  It then waits for events, and
completes the operation it finds under the descriptor of each.

A step of the model is one section of `submit` or `stop`, one operation taken from `pending_ops_`,
one return of `kevent` with a batch of events, or one event of the batch.

Every operation is submitted once.  `awaiting` records which operation has asked for the next event
of a descriptor and filter.  `ready` records the operations whose event has been handled, with its
error flag and the result of the system call, `closed` those whose descriptor has been closed,
`served` the filters of the events on which operations were completed, and `overwritten` the
operations that were replaced in `active_ops_`.
-/

namespace Koroutine

namespace Kqueue

open IoUring (OpType)

/-- `MAX_EVENTS` -/
def maxEvents : ℕ := 64

/-- `EVFILT_READ` and `EVFILT_WRITE`. -/
inductive Filter
  | read
  | write
  deriving DecidableEq

/-- The filter an operation of this type waits for. -/
def filterOf : OpType → Option Filter
  | .read | .accept | .recvfrom => some .read
  | .write | .connect | .sendto => some .write
  | .close | .open => none

/-- The `error` of an operation. -/
inductive ErrorCode
  | none
  | operation_canceled
  | not_supported
  | io_error
  | errno (n : ℤ)
  deriving DecidableEq

/-- An `AsyncIOOp`: its type and descriptor, the results it is given, and how often `complete` has
been called on it. -/
structure Op where
  type : OpType
  fd : ℤ
  error : ErrorCode
  actual_size : ℕ
  completions : ℕ
  deriving DecidableEq

/-- A descriptor and a filter. -/
abbrev Key := ℤ × Filter

/-- An event that `kevent` returns. -/
inductive Event
  | wakeup
  | ready (key : Key) (error : Bool)
  deriving DecidableEq

/-- What an event is the event of. -/
def Event.key : Event → Option Key
  | .wakeup => none
  | .ready key _ => some key

/-- Where the thread in `run` is. -/
inductive Pc
  /-- About to store `true` in `running_`. -/
  | starting
  /-- About to load `running_`. -/
  | checking
  /-- Holding `ops_mutex_`, in the loop over `pending_ops_`. -/
  | draining
  /-- In `kevent`. -/
  | waiting
  /-- In the loop over the events. -/
  | handling (events : List Event)
  /-- `run` has returned. -/
  | returned
  /-- `run` has thrown. -/
  | threw
  deriving DecidableEq

/-- The engine, the operations, the kernel's registrations, whether the wake-up event is triggered,
and the number of threads about to trigger it. -/
structure State (ι : Type*) where
  pc : Pc
  running : Bool
  pending_ops : List ι
  active_ops : ℤ → Option ι
  op : ι → Op
  registered : Key → Bool
  wakeup : Bool
  triggering : ℕ
  submitted : List ι
  awaiting : Key → Option ι
  ready : List (ι × Bool × ℤ)
  closed : List ι
  served : List (ι × Filter)
  overwritten : List ι

/-- The steps.  `process` carries the `errno` of the system call that may fail, `handle` its
result. -/
inductive Label (ι : Type*)
  | submit (o : ι)
  | trigger
  | stop
  | run
  | process (errno : Option ℤ)
  | deliver (events : List Event)
  | handle (res : ℤ)
  | interrupt
  | fail
  deriving DecidableEq

/-- An engine whose `run` is about to begin, and operations of the given types on the given
descriptors. -/
def initial {ι : Type*} (type : ι → OpType) (fd : ι → ℤ) : State ι where
  pc := .starting
  running := false
  pending_ops := []
  active_ops := fun _ => none
  op := fun o => ⟨type o, fd o, .none, 0, 0⟩
  registered := fun _ => false
  wakeup := false
  triggering := 0
  submitted := []
  awaiting := fun _ => none
  ready := []
  closed := []
  served := []
  overwritten := []

namespace Op

/-- `complete(op)`, after the operation has been given an error. -/
def completeWith (op : Op) (error : ErrorCode) : Op :=
  { op with error := error, completions := op.completions + 1 }

/-- The system call of an operation, with the given result, on an event with or without
`EV_ERROR`, and `complete(op)`.  `CONNECT` asks for `SO_ERROR`, which is its result. -/
def finish (op : Op) (error : Bool) (res : ℤ) : Op :=
  if error then { op.completeWith .io_error with actual_size := 0 }
  else match op.type with
    | .connect =>
        if res < 0 then op.completeWith (.errno (-res))
        else { op with actual_size := 0, completions := op.completions + 1 }
    | .read | .write | .accept | .recvfrom | .sendto =>
        if res < 0 then { op.completeWith (.errno (-res)) with actual_size := 0 }
        else { op with actual_size := res.toNat, completions := op.completions + 1 }
    | .close | .open => { op with completions := op.completions + 1 }

end Op

variable {ι : Type*} [DecidableEq ι]

namespace State

/-- `complete(op)`, after operation `o` has been given an error. -/
def completeWith (s : State ι) (o : ι) (error : ErrorCode) : State ι :=
  { s with op := Function.update s.op o ((s.op o).completeWith error) }

/-- An operation is registered for one event, and recorded under its descriptor. -/
def watch (s : State ι) (o : ι) (filter : Filter) (errno : Option ℤ) : State ι :=
  match errno with
  | some n => s.completeWith o (.errno n)
  | none =>
      { s with
        registered := Function.update s.registered ((s.op o).fd, filter) true
        active_ops := Function.update s.active_ops (s.op o).fd (some o)
        awaiting := Function.update s.awaiting ((s.op o).fd, filter) (some o)
        overwritten := s.overwritten ++ (s.active_ops (s.op o).fd).toList }

/-- The operation recorded under a descriptor that is closed is canceled. -/
def cancel (s : State ι) (fd : ℤ) : State ι :=
  match s.active_ops fd with
  | none => s
  | some o =>
      { s.completeWith o .operation_canceled with
        active_ops := Function.update s.active_ops fd none }

end State

/-- `process_read` -/
def processRead (s : State ι) (o : ι) (errno : Option ℤ) : State ι :=
  s.watch o .read errno

/-- `process_write` -/
def processWrite (s : State ι) (o : ι) (errno : Option ℤ) : State ι :=
  s.watch o .write errno

/-- `process_close` -/
def processClose (s : State ι) (o : ι) (errno : Option ℤ) : State ι :=
  let fd := (s.op o).fd
  let s' := s.cancel fd
  { s' with
    op := Function.update s'.op o
      { s'.op o with
        error := (errno.map .errno).getD (s'.op o).error
        completions := (s'.op o).completions + 1 }
    registered := fun key => if key.1 = fd then false else s.registered key
    awaiting := fun key => if key.1 = fd then none else s.awaiting key
    closed := s.closed ++
      ((s.awaiting (fd, .read)).toList ++ (s.awaiting (fd, .write)).toList ++ [o]) }

/-- The switch over the type of a pending operation. -/
def processOp (s : State ι) (o : ι) (errno : Option ℤ) : State ι :=
  match (s.op o).type with
  | .read | .accept | .recvfrom => processRead s o errno
  | .write | .connect | .sendto => processWrite s o errno
  | .close => processClose s o errno
  | .open => s.completeWith o .not_supported

/-- The body of the loop over the events. -/
def handleEvent (s : State ι) (event : Event) (res : ℤ) : State ι :=
  match event with
  | .wakeup => s
  | .ready key error =>
      let s' := { s with
        awaiting := Function.update s.awaiting key none
        ready := s.ready ++ (s.awaiting key).toList.map fun o => (o, error, res) }
      match s.active_ops key.1 with
      | none => s'
      | some o =>
          { s' with
            op := Function.update s.op o ((s.op o).finish error res)
            active_ops := Function.update s.active_ops key.1 none
            served := s.served ++ [(o, key.2)] }

/-- What `kevent` may return: events that are registered or triggered, each once. -/
def delivers (s : State ι) (events : List Event) : Prop :=
  events.length ≤ maxEvents ∧ (events.map Event.key).Nodup ∧
    ∀ event ∈ events, (event.key.elim s.wakeup s.registered) = true

instance (s : State ι) (events : List Event) : Decidable (delivers s events) :=
  inferInstanceAs (Decidable (_ ∧ _ ∧ ∀ _ ∈ events, _))

/-- The next step of the thread in `run`, other than those that carry a result. -/
def runStep (s : State ι) : Option (State ι) :=
  match s.pc with
  | .starting => some { s with running := true, pc := .checking }
  | .checking => some { s with pc := if s.running then .draining else .returned }
  | .draining => if s.pending_ops = [] then some { s with pc := .waiting } else none
  | .handling [] => some { s with pc := .checking }
  | .waiting | .handling (_ :: _) | .returned | .threw => none

/-- The step function. -/
def step (s : State ι) : Label ι → Option (State ι)
  | .submit o =>
      if s.pc ≠ .draining ∧ o ∉ s.submitted then
        some { s with
          pending_ops := s.pending_ops ++ [o]
          submitted := s.submitted ++ [o]
          triggering := s.triggering + 1 }
      else none
  | .trigger =>
      if 0 < s.triggering then some { s with wakeup := true, triggering := s.triggering - 1 }
      else none
  | .stop => some { s with running := false, triggering := s.triggering + 1 }
  | .run => runStep s
  | .process errno =>
      match s.pc, s.pending_ops with
      | .draining, o :: pending => some (processOp { s with pending_ops := pending } o errno)
      | _, _ => none
  | .deliver events =>
      if s.pc = .waiting ∧ events ≠ [] ∧ delivers s events then
        some { s with
          pc := .handling events
          registered := fun key => s.registered key && !(events.map Event.key).contains (some key)
          wakeup := s.wakeup && !(events.map Event.key).contains none }
      else none
  | .handle res =>
      match s.pc with
      | .handling (event :: events) => some { handleEvent s event res with pc := .handling events }
      | _ => none
  | .interrupt => if s.pc = .waiting then some { s with pc := .checking } else none
  | .fail => if s.pc = .waiting then some { s with pc := .threw } else none

end Kqueue

end Koroutine
