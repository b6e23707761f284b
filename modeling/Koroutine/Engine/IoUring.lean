import Mathlib.Algebra.Ring.Nat
import Mathlib.Data.Int.Notation
import Mathlib.Data.List.Count
import Mathlib.Logic.Function.Basic

/-!
# `IoUringIOEngine`

`submit` pushes an operation to `pending_ops_` and writes to the eventfd.  `run` keeps a read of
the eventfd in the ring; when it completes, `run` drains `pending_ops_`, prepares an entry of the
submission ring for each operation, and one more for the next read of the eventfd.

The submission ring `sq` holds the entries taken since the last submit.  The kernel completes the
entries it has accepted in any order, each by one entry of `cq` with its user data.  A read of the
eventfd that succeeds resets the counter.

A step of the model is one section of `submit` or `stop`, one completion, or one step of the thread
in `run`.
-/

namespace Koroutine

namespace IoUring

/-- `IO_URING_QUEUE_DEPTH` -/
def queueDepth : ℕ := 256

/-- The type of an operation. -/
inductive OpType
  | read
  | write
  | close
  | connect
  | accept
  | «open»
  | recvfrom
  | sendto
  deriving DecidableEq

/-- The types `process_op` has a case for. -/
def OpType.supported : OpType → Bool
  | .open => false
  | _ => true

/-- The `error` of an operation. -/
inductive ErrorCode
  | none
  | no_buffer_space
  | operation_not_supported
  | errno (n : ℤ)
  deriving DecidableEq

/-- An `AsyncIOOp`: its type, the `error` and `actual_size` it is given, and how often `complete`
has been called on it. -/
structure Op where
  type : OpType
  error : ErrorCode
  actual_size : ℕ
  completions : ℕ
  deriving DecidableEq

/-- The user data of an entry: `WAKEUP_USER_DATA`, an operation, or null. -/
inductive UserData (ι : Type*)
  | wakeup
  | op (o : ι)
  | null
  deriving DecidableEq

/-- An entry of the completion ring. -/
structure Cqe (ι : Type*) where
  user_data : UserData ι
  res : ℤ
  deriving DecidableEq

/-- Where the thread in `run` is. -/
inductive Pc (ι : Type*)
  /-- About to store `true` in `running_`. -/
  | starting
  /-- About to submit the first read of the eventfd. -/
  | arming
  /-- About to load `running_`. -/
  | checking
  /-- About to call `io_uring_submit_and_wait`. -/
  | waiting
  /-- In this call, with the entries submitted. -/
  | blocked
  /-- In the loop over the completion ring. -/
  | reaping
  /-- At a wake-up, with these operations still to process. -/
  | processing (batch : List ι)
  /-- `run` has returned. -/
  | returned
  deriving DecidableEq

/-- The engine, the operations, the ring, the counter of the eventfd, and the threads in `submit`
and `stop` that have not written to it. -/
structure State (ι : Type*) where
  pc : Pc ι
  running : Bool
  pending_ops : List ι
  in_flight_ops : ι → Bool
  op : ι → Op
  sq : List (UserData ι)
  kernel : List (UserData ι)
  cq : List (Cqe ι)
  event : ℕ
  submitting : List ι
  stopping : ℕ

/-- The steps: the two of `submit` and the two of `stop`, the kernel completes its `k`-th entry,
the thread in `run` goes on, or its call to wait is interrupted or fails. -/
inductive Label (ι : Type*)
  | push (o : ι)
  | signal (o : ι)
  | stop
  | signalStop
  | complete (k : ℕ) (res : ℤ)
  | run
  | interrupt
  | fail
  deriving DecidableEq

/-- An engine whose `run` is about to begin, and operations of the given types. -/
def initial {ι : Type*} (type : ι → OpType) : State ι where
  pc := .starting
  running := false
  pending_ops := []
  in_flight_ops := fun _ => false
  op := fun o => ⟨type o, .none, 0, 0⟩
  sq := []
  kernel := []
  cq := []
  event := 0
  submitting := []
  stopping := 0

/-- `write(event_fd_, &val, sizeof(val))` with the value one, which fails at the greatest value. -/
def eventWrite (event : ℕ) : ℕ := min (event + 1) (2 ^ 64 - 2)

variable {ι : Type*} [DecidableEq ι]

namespace State

/-- `io_uring_get_sqe`, with the user data the entry is given: null when all entries are taken. -/
def getSqe (s : State ι) (data : UserData ι) : Option (State ι) :=
  if s.sq.length < queueDepth then some { s with sq := s.sq ++ [data] } else none

/-- The kernel accepts the entries taken. -/
def submit (s : State ι) : State ι :=
  { s with kernel := s.kernel ++ s.sq, sq := [] }

/-- `complete(op)`, after the operation has been given an error. -/
def completeWith (s : State ι) (o : ι) (error : ErrorCode) : State ι :=
  { s with
    op := Function.update s.op o
      { s.op o with error := error, completions := (s.op o).completions + 1 } }

/-- The read of the eventfd is put into the submission ring, if there is room. -/
def arm (s : State ι) : State ι :=
  (s.getSqe .wakeup).getD s

end State

/-- `process_op` -/
def processOp (s : State ι) (o : ι) : State ι :=
  match s.getSqe (if (s.op o).type.supported then .op o else .null) with
  | none => s.completeWith o .no_buffer_space
  | some t =>
      if (s.op o).type.supported then
        { t with in_flight_ops := Function.update s.in_flight_ops o true }
      else t.completeWith o .operation_not_supported

/-- The completion of a user operation. -/
def finishOp (s : State ι) (o : ι) (res : ℤ) : State ι :=
  if s.in_flight_ops o then
    { s with
      in_flight_ops := Function.update s.in_flight_ops o false
      op := Function.update s.op o
        { s.op o with
          error := if res < 0 then .errno (-res) else .none
          actual_size := if res < 0 then 0 else res.toNat
          completions := (s.op o).completions + 1 } }
  else s

/-- The body of the loop over the completion ring. -/
def reap (s : State ι) (cqe : Cqe ι) : State ι :=
  match cqe.user_data with
  | .wakeup => { s with pc := .processing s.pending_ops, pending_ops := [] }
  | .op o => finishOp s o cqe.res
  | .null => s

/-- The next step of the thread in `run`. -/
def runStep (s : State ι) : Option (State ι) :=
  match s.pc with
  | .starting => some { s with running := true, pc := .arming }
  | .arming => some { s.arm.submit with pc := .checking }
  | .checking => some { s with pc := if s.running then .waiting else .returned }
  | .waiting => some { s.submit with pc := .blocked }
  | .blocked => if s.cq = [] then none else some { s with pc := .reaping }
  | .reaping =>
      match s.cq with
      | [] => some { s with pc := .checking }
      | cqe :: cq => some (reap { s with cq := cq } cqe)
  | .processing [] => some { s.arm with pc := .reaping }
  | .processing (o :: batch) => some { processOp s o with pc := .processing batch }
  | .returned => none

/-- The kernel completes an entry.  A read of the eventfd succeeds only if the counter is not
zero. -/
def complete (s : State ι) (k : ℕ) (res : ℤ) : Option (State ι) :=
  match s.kernel[k]? with
  | none => none
  | some .wakeup =>
      if res < 0 then
        some { s with kernel := s.kernel.eraseIdx k, cq := s.cq ++ [⟨.wakeup, res⟩] }
      else if 0 < s.event then
        some { s with
          kernel := s.kernel.eraseIdx k, cq := s.cq ++ [⟨.wakeup, res⟩], event := 0 }
      else none
  | some data => some { s with kernel := s.kernel.eraseIdx k, cq := s.cq ++ [⟨data, res⟩] }

/-- The step function. -/
def step (s : State ι) : Label ι → Option (State ι)
  | .push o =>
      some { s with pending_ops := s.pending_ops ++ [o], submitting := s.submitting ++ [o] }
  | .signal o =>
      if o ∈ s.submitting then
        some { s with submitting := s.submitting.erase o, event := eventWrite s.event }
      else none
  | .stop => some { s with running := false, stopping := s.stopping + 1 }
  | .signalStop =>
      if 0 < s.stopping then
        some { s with stopping := s.stopping - 1, event := eventWrite s.event }
      else none
  | .complete k res => complete s k res
  | .run => runStep s
  | .interrupt => if s.pc = .blocked then some { s with pc := .checking } else none
  | .fail => if s.pc = .blocked then some { s with pc := .returned } else none

end IoUring

end Koroutine
