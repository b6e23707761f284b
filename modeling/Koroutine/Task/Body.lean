import Mathlib.Data.Nat.Notation
import Mathlib.Tactic.Common

/-!
# Programs and coroutine bodies

A `Program` is a task as it is written: blocks with `co_return`, `throw`, `try` with a handler, and
`co_await` of a task created on the spot.  Its direct evaluation runs an awaited task like a
function call.

A `Body` is what a coroutine has still to do at a point where it can suspend: how it ends, or what
it awaits, and how it goes on with the outcome, a value or an exception.  `Program.body` is the
body of a program.
-/

namespace Koroutine

/-- A task with values in `V` and exceptions in `E`. -/
inductive Program (V E : Type)
  | coReturn (v : V)
  | throw (e : E)
  /-- The end of a block, where its variables have value `v`. -/
  | leave (v : V)
  | coAwait (task : Program V E) (next : V → Program V E)
  /-- `try` the first block, `catch` its exceptions, and go on at the end of either. -/
  | tryCatch (block : Program V E) (handler : E → Program V E) (next : V → Program V E)

/-- How a block ends. -/
inductive Exit (V E : Type)
  | returned (v : V)
  | thrown (e : E)
  | left (v : V)

variable {V E : Type}

/-- What a caller obtains from a task that ends so. -/
def Exit.outcome : Exit V E → Except E V
  | .returned v | .left v => .ok v
  | .thrown e => .error e

/-- The direct evaluation of a block. -/
def Program.exec : Program V E → Exit V E
  | .coReturn v => .returned v
  | .throw e => .thrown e
  | .leave v => .left v
  | .coAwait task next =>
      match task.exec.outcome with
      | .ok v => (next v).exec
      | .error e => .thrown e
  | .tryCatch block handler next =>
      match block.exec with
      | .returned v => .returned v
      | .left v => (next v).exec
      | .thrown e =>
          match (handler e).exec with
          | .left v => (next v).exec
          | exit => exit

/-- The direct evaluation of a task. -/
def Program.value (p : Program V E) : Except E V := p.exec.outcome

/-- What a coroutine has still to do.  It may give a task it awaits a cancellation token of `τ`,
and may suspend until an event of `ω`, which brings it a value or an exception; `checks` says
whether `await_transform` looks at the token of the coroutine, as it does not for a duration. -/
inductive Body (τ ω V E : Type)
  | coReturn (v : V)
  | throw (e : E)
  | coAwait (token : Option τ) (task : Body τ ω V E) (rest : Except E V → Body τ ω V E)
  | coSuspend (event : ω) (checks : Bool) (rest : Except E V → Body τ ω V E)

variable {τ ω : Type}

/-- The body that ends with the given outcome. -/
def Body.ofOutcome : Except E V → Body τ ω V E
  | .ok v => .coReturn v
  | .error e => .throw e

/-- The body of a block, and how it goes on at the end of the block and with an exception. -/
def Program.block : Program V E → (V → Body τ ω V E) → (E → Body τ ω V E) → Body τ ω V E
  | .coReturn v, _, _ => .coReturn v
  | .throw e, _, onThrow => onThrow e
  | .leave v, onLeave, _ => onLeave v
  | .coAwait task next, onLeave, onThrow =>
      .coAwait none (task.block .coReturn .throw) fun r =>
        match r with
        | .ok v => (next v).block onLeave onThrow
        | .error e => onThrow e
  | .tryCatch block handler next, onLeave, onThrow =>
      block.block (fun v => (next v).block onLeave onThrow) fun e =>
        (handler e).block (fun v => (next v).block onLeave onThrow) onThrow

/-- The body of a task. -/
def Program.body (p : Program V E) : Body τ ω V E := p.block .coReturn .throw

/-- The outcome of a body that awaits tasks only, each evaluated directly. -/
def Body.eval : Body τ Empty V E → Except E V
  | .coReturn v => .ok v
  | .throw e => .error e
  | .coAwait _ task rest => (rest task.eval).eval

/-- The outcome of a block, and what follows it. -/
theorem Program.eval_block (p : Program V E) (onLeave : V → Body τ Empty V E)
    (onThrow : E → Body τ Empty V E) :
  (p.block onLeave onThrow).eval =
    match p.exec with
    | .returned v => .ok v
    | .left v => (onLeave v).eval
    | .thrown e => (onThrow e).eval
  := by
  induction p generalizing onLeave onThrow with
  | coReturn v => rfl
  | throw e => rfl
  | leave v => rfl
  | coAwait task next ih ihnext =>
      have htask : (task.block .coReturn .throw : Body τ Empty V E).eval = task.exec.outcome := by
        rw [ih]
        cases task.exec <;> rfl
      simp only [block, Body.eval, htask, exec]
      cases task.exec.outcome with
      | ok v => apply ihnext
      | error e => rfl
  | tryCatch block handler next ih ihhandler ihnext =>
      rw [Program.block, ih, exec]
      cases block.exec with
      | returned v => rfl
      | left v => apply ihnext
      | thrown e =>
          simp only
          rw [ihhandler]
          cases (handler e).exec with
          | returned v => rfl
          | thrown e' => rfl
          | left v => apply ihnext

/-- The body of a task has the outcome of its direct evaluation. -/
theorem Program.eval_body (p : Program V E) :
  (p.body : Body τ Empty V E).eval = p.value
  := by
  rw [body, eval_block, value]
  cases p.exec <;> rfl

end Koroutine
