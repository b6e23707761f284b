import Mathlib.Tactic.Common

/-!
# `await_transform`

`await_transform` has four overloads.  Which one a `co_await` calls is decided by the type of its
operand; two of them look at the cancellation token of the task, and throw
`OperationCancelledException` where it has been cancelled.

The coroutines here may go on forever: `Bodies` gives, for a point of a body, the next `co_await` it
reaches from there, or its end.
-/

namespace Koroutine.AwaitTransform

/-- The operand of a `co_await`: a `Task` or a duration that is not an lvalue, as an lvalue of these
types cannot be awaited; an awaiter derived from `AwaiterBase`; or another awaitable. -/
inductive Operand
  | task
  | duration
  | awaiter (lvalue : Bool)
  | awaitable
  deriving DecidableEq

/-- The overloads of `await_transform`, by the type of their parameter. -/
inductive Overload
  /-- `Task<_ResultType>&&` -/
  | task
  /-- `std::chrono::duration<_Rep, _Period>&&` -/
  | duration
  /-- `AwaiterImpl&&`, for types derived from `AwaiterBase`. -/
  | awaiter
  /-- `Awaitable&&` -/
  | generic
  deriving DecidableEq

/-- The overload that is called.  For an lvalue, `AwaiterImpl` is a reference type, which has no
`ResultType`. -/
def Operand.overload : Operand → Overload
  | .task => .task
  | .duration => .duration
  | .awaiter lvalue => if lvalue then .generic else .awaiter
  | .awaitable => .generic

/-- `OperationCancelledException` -/
structure OperationCancelledException

/-- `cancel_token_ && cancel_token_->is_cancelled()` -/
def isCancelled (cancel_token : Option Bool) : Bool := cancel_token.getD false

/-- `await_transform`, in a task with or without a cancellation token, which has been cancelled or
not. -/
def awaitTransform (cancel_token : Option Bool) : Overload → Except OperationCancelledException Unit
  | .task => .ok ()
  | .duration => .ok ()
  | .awaiter => if isCancelled cancel_token then .error ⟨⟩ else .ok ()
  | .generic => if isCancelled cancel_token then .error ⟨⟩ else .ok ()

/-- What a body reaches: its end, or a `co_await`, and how it goes on with the outcome of that. -/
inductive Reach (β V E : Type*)
  | coReturn (v : V)
  | throw (e : E)
  | coAwait (operand : Operand) (rest : Except E V → β)

/-- The bodies of a family of tasks.  From the point `b`, and with what it finds in memory until
then, a body reaches `reach b x`. -/
structure Bodies (ι β χ V E : Type*) where
  start : ι → β
  reach : β → χ → Reach β V E
  /-- `OperationCancelledException`, as an exception. -/
  cancelled : E

namespace Bodies

variable {ι β χ V E : Type*}

/-- The points of the body of a task, each `co_await` having any outcome. -/
inductive Point (P : Bodies ι β χ V E) (i : ι) : β → Prop
  | start : Point P i (P.start i)
  | rest {b : β} {x : χ} {operand : Operand} {rest : Except E V → β} (point : Point P i b)
      (reaches : P.reach b x = .coAwait operand rest) (r : Except E V) : Point P i (rest r)

/-- The body never awaits a `Task` or a duration. -/
def Checked (P : Bodies ι β χ V E) (i : ι) : Prop :=
  ∀ b, P.Point i b → ∀ x operand rest, P.reach b x = .coAwait operand rest →
    operand ≠ .task ∧ operand ≠ .duration

/-- The body does not catch `OperationCancelledException`. -/
def Uncaught (P : Bodies ι β χ V E) (i : ι) : Prop :=
  ∀ b, P.Point i b → ∀ x operand rest, P.reach b x = .coAwait operand rest →
    ∀ x', P.reach (rest (.error P.cancelled)) x' = .throw P.cancelled

end Bodies

/-- A cancelled body passes a `co_await` of a `Task` or a duration, and no other. -/
theorem awaitTransform_cancelled (operand : Operand) :
  awaitTransform (some true) operand.overload =
    if operand = .task ∨ operand = .duration then .ok () else .error ⟨⟩
  := by
  cases operand with
  | task | duration | awaitable => rfl
  | awaiter lvalue => cases lvalue <;> rfl

/-- A body that is not cancelled passes every `co_await`. -/
theorem awaitTransform_uncancelled (operand : Operand) :
  awaitTransform (some false) operand.overload = .ok ()
  := by
  cases operand with
  | task | duration | awaitable => rfl
  | awaiter lvalue => cases lvalue <;> rfl

end Koroutine.AwaitTransform
