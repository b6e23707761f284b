import Koroutine.Engine.IoUring

/-!
# `IOCPIOEngine`

`submit` registers an operation in `in_flight_ops_` and makes the call that its type asks for.  A
call that has succeeded or is pending is answered by one packet of the completion port, from which
`run` takes the operation out of `in_flight_ops_` and completes it.  `stop` completes what it finds
there.

A step of the model is one load or store of `running_`, one section under `ops_mutex_`, one call of
the system with what follows it outside that mutex, or one completion.  Where a call has failed,
`submit` erases the operation under the mutex and completes it; nobody else can reach it in between,
and this is one step.
-/

namespace Koroutine

namespace Iocp

open IoUring (OpType)

/-- The `error` of an operation. -/
inductive ErrorCode
  | none
  | operation_canceled
  | function_not_supported
  | operation_not_supported
  | io_error
  deriving DecidableEq

/-- An `AsyncIOOp`: its type, whether it has a `coro_handle`, the results it is given, and how often
`complete` has been called on it. -/
structure Op where
  type : OpType
  coro_handle : Bool
  error : ErrorCode
  actual_size : ℕ
  accept_sock : Option ℕ
  completions : ℕ
  deriving DecidableEq

/-- The functions that `load_mswsock_funcs` has found. -/
structure Extensions where
  lpAcceptEx : Bool
  lpConnectEx : Bool
  lpGetAcceptExSockaddrs : Bool
  deriving DecidableEq

/-- A packet of the completion port, with a null `OVERLAPPED` where `stop` has posted it. -/
structure Packet (ι : Type*) where
  overlapped : Option ι
  result : Bool
  bytes_transferred : ℕ
  deriving DecidableEq

/-- Where an operation is in `submit`. -/
inductive Stage
  | unsubmitted
  /-- `running_` was true, and the operation is about to be registered. -/
  | admitted
  /-- Registered, and about to make its call. -/
  | registered
  /-- Its call has failed. -/
  | failing
  /-- `submit` has returned, and not completed the operation. -/
  | submitted
  /-- `submit` has completed the operation and returned. -/
  | completed
  deriving DecidableEq

/-- Where the thread in `run` is. -/
inductive Pc (ι : Type*)
  /-- About to load `running_`. -/
  | checking
  /-- In `GetQueuedCompletionStatus`. -/
  | waiting
  /-- About to look for the operation in `in_flight_ops_`. -/
  | looking (o : ι) (packet : Packet ι)
  /-- About to complete the operation, which has been erased. -/
  | completing (o : ι) (packet : Packet ι)
  /-- `run` has returned. -/
  | returned
  deriving DecidableEq

/-- The engine, the operations, the calls that are pending in the system, the completion port, and
the number of threads in `stop`. -/
structure State (ι : Type*) where
  extensions : Extensions
  running : Bool
  in_flight_ops : ι → Bool
  op : ι → Op
  stage : ι → Stage
  pending : ι → Bool
  port : List (Packet ι)
  pc : Pc ι
  stopping : ℕ

/-- The steps of `submit`, of the system, of the thread in `run` and of `stop`.  A call carries the
result of `socket`, where it is an `ACCEPT`, and whether it has succeeded or is pending. -/
inductive Label (ι : Type*)
  | submit (o : ι)
  | register (o : ι)
  | call (o : ι) (accept_sock : Option ℕ) (started : Bool)
  | fail (o : ι)
  | answer (o : ι) (result : Bool) (bytes_transferred : ℕ)
  | run
  | timeout
  | stop
  | cancel
  deriving DecidableEq

/-- An engine as the constructor leaves it, where `WSAStartup` has succeeded or not, and operations
to be submitted. -/
def initial {ι : Type*} (extensions : Extensions) (startup : Bool) (type : ι → OpType)
    (coro_handle : ι → Bool) : State ι where
  extensions := extensions
  running := startup
  in_flight_ops := fun _ => false
  op := fun o => ⟨type o, coro_handle o, .none, 0, none, 0⟩
  stage := fun _ => .unsubmitted
  pending := fun _ => false
  port := []
  pc := .checking
  stopping := 0

/-- `op->complete()`, after the operation has been given an error. -/
def Op.completeWith (op : Op) (error : ErrorCode) : Op :=
  { op with error := error, completions := op.completions + 1 }

/-- The completion of an operation in `run`. -/
def Op.finish {ι : Type*} (op : Op) (packet : Packet ι) : Op :=
  if packet.result then
    { op with
      error := .none
      actual_size :=
        if op.type = .accept then op.accept_sock.getD 0 else packet.bytes_transferred
      completions := op.completions + 1 }
  else { op with error := .io_error, actual_size := 0, completions := op.completions + 1 }

variable {ι : Type*} [DecidableEq ι]

namespace State

/-- Operation `o` goes on in `submit`. -/
def goTo (s : State ι) (o : ι) (x : Stage) : State ι :=
  { s with stage := Function.update s.stage o x }

/-- `submit` completes operation `o` and returns. -/
def giveUp (s : State ι) (o : ι) (error : ErrorCode) : State ι :=
  { s with
    op := Function.update s.op o ((s.op o).completeWith error)
    stage := Function.update s.stage o .completed }

/-- The call has been made, and has failed or will be answered. -/
def attempt (s : State ι) (o : ι) (started : Bool) : State ι :=
  if started then
    { s with
      pending := Function.update s.pending o true
      stage := Function.update s.stage o .submitted }
  else s.goTo o .failing

/-- `op->accept_sock = socket(family, SOCK_STREAM, IPPROTO_TCP)` -/
def setSocket (s : State ι) (o : ι) (accept_sock : Option ℕ) : State ι :=
  { s with op := Function.update s.op o { s.op o with accept_sock := accept_sock } }

/-- `CLOSE`, which posts its own packet. -/
def close (s : State ι) (o : ι) : State ι :=
  { s.goTo o .submitted with
    port := if (s.op o).coro_handle then s.port ++ [⟨some o, true, 0⟩] else s.port }

end State

/-- The switch over the type of an operation. -/
def call (s : State ι) (o : ι) (accept_sock : Option ℕ) (started : Bool) : State ι :=
  match (s.op o).type with
  | .read | .write | .recvfrom | .sendto => s.attempt o started
  | .accept =>
      if s.extensions.lpAcceptEx = false ∨ s.extensions.lpGetAcceptExSockaddrs = false then
        s.giveUp o .function_not_supported
      else if accept_sock = none then (s.setSocket o none).giveUp o .io_error
      else (s.setSocket o accept_sock).attempt o started
  | .connect =>
      if s.extensions.lpConnectEx = false then s.giveUp o .function_not_supported
      else s.attempt o started
  | .close => s.close o
  | .open => s.giveUp o .operation_not_supported

/-- The next step of the thread in `run`. -/
def runStep (s : State ι) : Option (State ι) :=
  match s.pc with
  | .checking => some { s with pc := if s.running then .waiting else .returned }
  | .waiting =>
      match s.port with
      | [] => none
      | packet :: port =>
          match packet.overlapped with
          | none => some { s with port := port, pc := .checking }
          | some o => some { s with port := port, pc := .looking o packet }
  | .looking o packet =>
      if s.in_flight_ops o then
        some { s with
          in_flight_ops := Function.update s.in_flight_ops o false, pc := .completing o packet }
      else some { s with pc := .checking }
  | .completing o packet =>
      some { s with op := Function.update s.op o ((s.op o).finish packet), pc := .checking }
  | .returned => none

/-- The section of `stop`. -/
def cancelAll (s : State ι) : State ι :=
  { s with
    op := fun o =>
      if s.in_flight_ops o then (s.op o).completeWith .operation_canceled else s.op o
    in_flight_ops := fun _ => false
    stopping := s.stopping - 1 }

/-- The step function. -/
def step (s : State ι) : Label ι → Option (State ι)
  | .submit o =>
      if s.stage o = .unsubmitted then
        some (if s.running then s.goTo o .admitted else s.giveUp o .operation_canceled)
      else none
  | .register o =>
      if s.stage o = .admitted then
        some { s.goTo o .registered with
          in_flight_ops := Function.update s.in_flight_ops o true }
      else none
  | .call o accept_sock started =>
      if s.stage o = .registered then some (call s o accept_sock started) else none
  | .fail o =>
      if s.stage o = .failing then
        some { s.giveUp o .io_error with
          in_flight_ops := Function.update s.in_flight_ops o false }
      else none
  | .answer o result bytes_transferred =>
      if s.pending o then
        some { s with
          pending := Function.update s.pending o false
          port := s.port ++ [⟨some o, result, bytes_transferred⟩] }
      else none
  | .run => runStep s
  | .timeout => if s.pc = .waiting then some { s with pc := .checking } else none
  | .stop =>
      some { s with
        running := false, port := s.port ++ [⟨none, true, 0⟩], stopping := s.stopping + 1 }
  | .cancel => if 0 < s.stopping then some (cancelAll s) else none

end Iocp

end Koroutine
