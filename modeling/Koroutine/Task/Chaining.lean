import Koroutine.Task.Evaluation
import Koroutine.Transition.Run

/-!
# `then`, `catching` and `finally`

Each of `then`, `catching` and `finally` makes a coroutine that awaits the task it is called on.
There are separate copies for a `Task<void>` and for a task with a value, and `then` has one more
for either kind of its callback's result.

A callback is called with nothing, with a value or with an exception, and what it does may depend on
the calls of callbacks that were made before.  These calls are the log, which values and exceptions
carry along.

The results are about chains of any length:

* a chain is the left fold of its links, provided that no callback of `finally` throws,
* in a chain of `finally` alone every callback is called once if and only if the task throws or no
  callback does.
-/

open Transition

namespace Koroutine

namespace Chaining

variable {V E : Type}

/-- `Task<void>`, or a task with a value. -/
inductive Kind
  | void
  | value
  deriving DecidableEq

/-- What a task returns. -/
inductive Value (V : Type)
  | void
  | value (v : V)
  deriving DecidableEq

/-- The kind of the task that returns it. -/
def Value.kind : Value V → Kind
  | .void => .void
  | .value _ => .value

/-- What a callback is called with: `func()`, `func(result)` or `func(e)`. -/
inductive Argument (V E : Type)
  | nothing
  | result (v : Value V)
  | exception (e : E)
  deriving DecidableEq

/-- The call of a callback. -/
structure Invocation (V E : Type) where
  callback : ℕ
  argument : Argument V E
  deriving DecidableEq

/-- The calls made so far, the first of them first. -/
abbrev Log (V E : Type) := List (Invocation V E)

/-- A callback, and what it returns or throws after the given calls. -/
structure Callback (V E α : Type) where
  id : ℕ
  run : Log V E → Argument V E → Except E α

/-- The log after the callback has been called. -/
def Callback.enter {α : Type} (func : Callback V E α) (arg : Argument V E) (log : Log V E) :
    Log V E :=
  log ++ [⟨func.id, arg⟩]

/-- A task that calls callbacks. -/
abbrev Coroutine (V E : Type) := Program (Value V × Log V E) (E × Log V E)

/-- The outcome of such a task, with the calls made until its end. -/
abbrev Outcome (V E : Type) := Except (E × Log V E) (Value V × Log V E)

/-- The coroutines of such a task. -/
abbrev Coroutines (V E : Type) := Tasks.State Empty Empty (Value V × Log V E) (E × Log V E)

/-- Their steps. -/
abbrev Label (V E : Type) := Tasks.Label Empty (Value V × Log V E) (E × Log V E)

/-- A task that calls no callback. -/
def logged : Program (Value V) E → Coroutine V E
  | .coReturn v => .coReturn (v, [])
  | .throw e => .throw (e, [])
  | .leave v => .leave (v, [])
  | .coAwait task next => .coAwait (logged task) fun x => logged (next x.1)
  | .tryCatch block handler next =>
      .tryCatch (logged block) (fun x => logged (handler x.1)) fun x => logged (next x.1)

/-- The call of a callback in a body. -/
def Callback.call {α : Type} (func : Callback V E α) (arg : Argument V E) (log : Log V E)
    (next : α → Log V E → Coroutine V E) : Coroutine V E :=
  match func.run log arg with
  | .ok a => next a (func.enter arg log)
  | .error e => .throw (e, func.enter arg log)

/-! ### The coroutines -/

namespace Task

/-- `Task<ResultType>::then`, where the callback returns nothing. -/
def thenVoid (prev_handle : Coroutine V E) (func : Callback V E Unit) : Coroutine V E :=
  .coAwait prev_handle fun (result, log) =>
    func.call (.result result) log fun _ log => .leave (.void, log)

/-- `Task<ResultType>::then`, where the callback returns a value. -/
def thenValue (prev_handle : Coroutine V E) (func : Callback V E V) : Coroutine V E :=
  .coAwait prev_handle fun (result, log) =>
    func.call (.result result) log fun v log => .coReturn (.value v, log)

/-- `TaskBase::catching`.  Exceptions of types derived from `std::exception` are those in `std`. -/
def catching (std : E → Bool) (ResultType : Kind) (prev_handle : Coroutine V E)
    (func : Callback V E Unit) : Coroutine V E :=
  .tryCatch
    (match ResultType with
      | .void => .coAwait prev_handle fun (_, log) => .leave (.void, log)
      | .value => .coAwait prev_handle .coReturn)
    (fun (e, log) =>
      if std e then func.call (.exception e) log fun _ log => .throw (e, log)
      else .throw (e, log))
    .leave

/-- `TaskBase::finally` -/
def «finally» (ResultType : Kind) (prev_handle : Coroutine V E) (func : Callback V E Unit) :
    Coroutine V E :=
  .tryCatch
    (match ResultType with
      | .void =>
          .coAwait prev_handle fun (_, log) =>
            func.call .nothing log fun _ log => .leave (.void, log)
      | .value =>
          .coAwait prev_handle fun (result, log) =>
            func.call .nothing log fun _ log => .coReturn (result, log))
    (fun (e, log) => func.call .nothing log fun _ log => .throw (e, log))
    .leave

end Task

namespace TaskVoid

/-- `Task<void>::then`, where the callback returns nothing. -/
def thenVoid (prev_handle : Coroutine V E) (func : Callback V E Unit) : Coroutine V E :=
  .coAwait prev_handle fun (_, log) =>
    func.call .nothing log fun _ log => .leave (.void, log)

/-- `Task<void>::then`, where the callback returns a value. -/
def thenValue (prev_handle : Coroutine V E) (func : Callback V E V) : Coroutine V E :=
  .coAwait prev_handle fun (_, log) =>
    func.call .nothing log fun v log => .coReturn (.value v, log)

/-- `Task<void>::catching` -/
def catching (std : E → Bool) (prev_handle : Coroutine V E) (func : Callback V E Unit) :
    Coroutine V E :=
  .tryCatch
    (.coAwait prev_handle fun (_, log) => .leave (.void, log))
    (fun (e, log) =>
      if std e then func.call (.exception e) log fun _ log => .throw (e, log)
      else .throw (e, log))
    .leave

/-- `Task<void>::finally` -/
def «finally» (prev_handle : Coroutine V E) (func : Callback V E Unit) : Coroutine V E :=
  .tryCatch
    (.coAwait prev_handle fun (_, log) =>
      func.call .nothing log fun _ log => .leave (.void, log))
    (fun (e, log) => func.call .nothing log fun _ log => .throw (e, log))
    .leave

end TaskVoid

/-! ### Chains -/

/-- A call of `then`, `catching` or `finally`, by the kinds of the task it is made on and of the
task it gives. -/
inductive Link (V E : Type) : Kind → Kind → Type
  | thenVoid {k : Kind} (func : Callback V E Unit) : Link V E k .void
  | thenValue {k : Kind} (func : Callback V E V) : Link V E k .value
  | catching {k : Kind} (func : Callback V E Unit) : Link V E k k
  | finally {k : Kind} (func : Callback V E Unit) : Link V E k k

/-- The task a link gives. -/
def Link.task (std : E → Bool) : {k l : Kind} → Link V E k l → Coroutine V E → Coroutine V E
  | .void, _, .thenVoid func, prev => TaskVoid.thenVoid prev func
  | .value, _, .thenVoid func, prev => Task.thenVoid prev func
  | .void, _, .thenValue func, prev => TaskVoid.thenValue prev func
  | .value, _, .thenValue func, prev => Task.thenValue prev func
  | .void, _, .catching func, prev => TaskVoid.catching std prev func
  | .value, _, .catching func, prev => Task.catching std .value prev func
  | .void, _, .finally func, prev => TaskVoid.finally prev func
  | .value, _, .finally func, prev => Task.finally .value prev func

/-- Calls one after the other, the first of them first. -/
inductive Chain (V E : Type) : Kind → Kind → Type
  | nil {k : Kind} : Chain V E k k
  | cons {k l m : Kind} (link : Link V E k l) (chain : Chain V E l m) : Chain V E k m

/-- The task a chain gives. -/
def Chain.task (std : E → Bool) : {k l : Kind} → Chain V E k l → Coroutine V E → Coroutine V E
  | _, _, .nil, prev => prev
  | _, _, .cons link chain, prev => chain.task std (link.task std prev)

/-! ### What a chain is for -/

/-- A callback of `then` on a task of kind `k` gets its value, if it has one. -/
def Kind.argument : Kind → Value V → Argument V E
  | .void, _ => .nothing
  | .value, v => .result v

/-- The call of a callback whose result makes the outcome. -/
def Callback.replace {α : Type} (func : Callback V E α) (arg : Argument V E) (log : Log V E)
    (result : α → Value V) : Outcome V E :=
  match func.run log arg with
  | .ok a => .ok (result a, func.enter arg log)
  | .error e => .error (e, func.enter arg log)

/-- The outcome with a longer log. -/
def Outcome.at (log : Log V E) : Except E (Value V) → Outcome V E
  | .ok v => .ok (v, log)
  | .error e => .error (e, log)

/-- The call of a callback that keeps an outcome unless it throws. -/
def Callback.guard (func : Callback V E Unit) (arg : Argument V E) (log : Log V E)
    (outcome : Except E (Value V)) : Outcome V E :=
  match func.run log arg with
  | .ok _ => Outcome.at (func.enter arg log) outcome
  | .error e => .error (e, func.enter arg log)

/-- A link runs its callback, or not, after the outcome of the task it is called on. -/
def Link.apply (std : E → Bool) : {k l : Kind} → Link V E k l → Outcome V E → Outcome V E
  | k, _, .thenVoid func, .ok (v, log) => func.replace (k.argument v) log fun _ => .void
  | _, _, .thenVoid _, .error x => .error x
  | k, _, .thenValue func, .ok (v, log) => func.replace (k.argument v) log .value
  | _, _, .thenValue _, .error x => .error x
  | _, _, .catching _, .ok x => .ok x
  | _, _, .catching func, .error (e, log) =>
      if std e then func.guard (.exception e) log (.error e) else .error (e, log)
  | _, _, .finally func, .ok (v, log) => func.guard .nothing log (.ok v)
  | _, _, .finally func, .error (e, log) => func.guard .nothing log (.error e)

/-- The calls that have been made. -/
def Outcome.log : Outcome V E → Log V E
  | .ok (_, log) => log
  | .error (_, log) => log

/-- The left fold of a chain over the outcome of a task. -/
def Chain.fold (std : E → Bool) : {k l : Kind} → Chain V E k l → Outcome V E → Outcome V E
  | _, _, .nil, outcome => outcome
  | _, _, .cons link chain, outcome => chain.fold std (link.apply std outcome)

/-- A task whose type is of kind `k`, and that calls no callback. -/
structure Source (V E : Type) (k : Kind) where
  program : Program (Value V) E
  typed : ∀ v, program.value = .ok v → v.kind = k

/-- Its outcome, before a callback has been called. -/
def Source.outcome {k : Kind} (source : Source V E k) : Outcome V E :=
  Outcome.at [] source.program.value

/-- The task that `chain` gives when it is applied to the source. -/
def Source.chained {k l : Kind} (source : Source V E k) (std : E → Bool) (chain : Chain V E k l) :
    Coroutine V E :=
  chain.task std (logged source.program)

/-- Callbacks of `finally` do not throw. -/
def Link.Returns : {k l : Kind} → Link V E k l → Prop
  | _, _, .finally func => ∀ log, ∃ a, func.run log .nothing = .ok a
  | _, _, _ => True

/-- No callback of `finally` in the chain throws. -/
def Chain.Returns : {k l : Kind} → Chain V E k l → Prop
  | _, _, .nil => True
  | _, _, .cons link chain => link.Returns ∧ chain.Returns

/-! ### The outcomes of the coroutines -/

theorem logged_exec (p : Program (Value V) E) :
  (logged p).exec =
    match p.exec with
    | .returned v => .returned (v, [])
    | .thrown e => .thrown (e, [])
    | .left v => .left (v, [])
  := by
  induction p with
  | coReturn v => rfl
  | throw e => rfl
  | leave v => rfl
  | coAwait task next ih ihnext =>
      simp only [logged, Program.exec, ih]
      cases task.exec with
      | returned v => apply ihnext
      | thrown e => rfl
      | left v => apply ihnext
  | tryCatch block handler next ih ihhandler ihnext =>
      simp only [logged, Program.exec, ih]
      cases block.exec with
      | returned v => rfl
      | left v => apply ihnext
      | thrown e =>
          simp only [ihhandler]
          cases (handler e).exec with
          | returned v => rfl
          | thrown e' => rfl
          | left v => apply ihnext

/-- The source calls no callback. -/
theorem Source.value_logged {k : Kind} (source : Source V E k) :
  (logged source.program).value = source.outcome
  := by
  rw [Program.value, logged_exec, Source.outcome, Program.value]
  cases source.program.exec <;> rfl

variable {α : Type} {std : E → Bool} {k l : Kind} {prev : Coroutine V E}

/-- A task that awaits another goes on with its value, or passes its exception on. -/
theorem value_coAwait {next : Value V × Log V E → Coroutine V E} :
  (Program.coAwait prev next).value =
    match prev.value with
    | .ok x => (next x).value
    | .error x => .error x
  := by
  simp only [Program.value, Program.exec]
  cases prev.exec.outcome <;> rfl

/-- A task that is a `try` block with its handler. -/
theorem value_tryCatch {block : Coroutine V E} {handler : E × Log V E → Coroutine V E} :
  (Program.tryCatch block handler .leave).value =
    match block.value with
    | .ok x => .ok x
    | .error x => (handler x).value
  := by
  simp only [Program.value, Program.exec]
  cases block.exec with
  | returned x | left x => rfl
  | thrown x =>
      simp only [Exit.outcome]
      cases (handler x).exec <;> rfl

/-- The call of a callback goes on with its result, or throws its exception. -/
theorem Callback.value_call {func : Callback V E α} {arg : Argument V E} {log : Log V E}
    {next : α → Log V E → Coroutine V E} :
  (func.call arg log next).value =
    match func.run log arg with
    | .ok a => (next a (func.enter arg log)).value
    | .error e => .error (e, func.enter arg log)
  := by
  rw [call]
  cases func.run log arg <;> rfl

/-- The call of a callback before `throw;` in a handler. -/
theorem Callback.value_call_throw {func : Callback V E Unit} {arg : Argument V E} {log : Log V E}
    {e : E} :
  (func.call arg log fun _ log => .throw (e, log)).value = func.guard arg log (.error e)
  := by
  rw [value_call, guard]
  cases func.run log arg <;> rfl

/-- The value of a task of kind `k` has kind `k`. -/
def Fits (k : Kind) (outcome : Outcome V E) : Prop :=
  ∀ v log, outcome = .ok (v, log) → v.kind = k

theorem Source.fits (source : Source V E k) :
  Fits k source.outcome
  := by
  intro v log h
  rw [Source.outcome] at h
  cases hvalue : source.program.value with
  | ok v' =>
      rw [hvalue] at h
      obtain ⟨rfl, -⟩ := Prod.mk.inj (Except.ok.inj h)
      apply source.typed v' hvalue
  | error e =>
      rw [hvalue] at h
      contradiction

/-- The value of a `Task<void>`. -/
theorem Fits.eq_void {v : Value V} {log : Log V E} (h : Fits .void (.ok (v, log))) :
  v = .void
  := by
  have hkind := h v log rfl
  cases v with
  | void => rfl
  | value v => contradiction

/-- The outcome of `finally`, whose callback is called in the handler, too, when it throws in the
`try` block. -/
theorem value_finally {func : Callback V E Unit} (hfits : Fits k prev.value) :
  ((Link.finally func : Link V E k k).task std prev).value =
    match prev.value with
    | .ok (v, log) =>
        match func.run log .nothing with
        | .ok _ => .ok (v, func.enter .nothing log)
        | .error e => func.guard .nothing (func.enter .nothing log) (.error e)
    | .error (e, log) => func.guard .nothing log (.error e)
  := by
  cases k with
  | void =>
      rw [Link.task, TaskVoid.«finally», value_tryCatch, value_coAwait]
      cases hprev : prev.value with
      | ok x =>
          obtain ⟨v, log⟩ := x
          rw [hprev] at hfits
          obtain rfl := hfits.eq_void
          simp only [Callback.value_call_throw]
          rw [Callback.value_call]
          cases func.run log .nothing with
          | ok a => rfl
          | error e => rfl
      | error x => apply Callback.value_call_throw
  | value =>
      rw [Link.task, Task.«finally», value_tryCatch, value_coAwait]
      cases prev.value with
      | ok x =>
          obtain ⟨v, log⟩ := x
          simp only [Callback.value_call_throw]
          rw [Callback.value_call]
          cases func.run log .nothing with
          | ok a => rfl
          | error e => rfl
      | error x => apply Callback.value_call_throw

/-- The outcome of `catching`. -/
theorem value_catching {func : Callback V E Unit} (hfits : Fits k prev.value) :
  ((Link.catching func : Link V E k k).task std prev).value =
    (Link.catching func : Link V E k k).apply std prev.value
  := by
  have hhandler : ∀ x : E × Log V E,
      (if std x.1 then func.call (.exception x.1) x.2 fun _ log => .throw (x.1, log)
        else .throw (x.1, x.2) : Coroutine V E).value =
      (Link.catching func : Link V E k k).apply std (.error x) := by
    rintro ⟨e, log⟩
    rw [Link.apply]
    cases std e with
    | true => apply Callback.value_call_throw
    | false => rfl
  cases k with
  | void =>
      rw [Link.task, TaskVoid.catching, value_tryCatch, value_coAwait]
      cases hprev : prev.value with
      | ok x =>
          obtain ⟨v, log⟩ := x
          rw [hprev] at hfits
          obtain rfl := hfits.eq_void
          rfl
      | error x => apply hhandler
  | value =>
      rw [Link.task, Task.catching, value_tryCatch, value_coAwait]
      cases prev.value with
      | ok x => rfl
      | error x => apply hhandler

/-- The outcome of `then`, where the callback returns nothing. -/
theorem value_thenVoid {func : Callback V E Unit} :
  ((Link.thenVoid func : Link V E k .void).task std prev).value =
    (Link.thenVoid func : Link V E k .void).apply std prev.value
  := by
  cases k with
  | void =>
      rw [Link.task, TaskVoid.thenVoid, value_coAwait]
      cases prev.value with
      | ok x => apply Callback.value_call
      | error x => rfl
  | value =>
      rw [Link.task, Task.thenVoid, value_coAwait]
      cases prev.value with
      | ok x => apply Callback.value_call
      | error x => rfl

/-- The outcome of `then`, where the callback returns a value. -/
theorem value_thenValue {func : Callback V E V} :
  ((Link.thenValue func : Link V E k .value).task std prev).value =
    (Link.thenValue func : Link V E k .value).apply std prev.value
  := by
  cases k with
  | void =>
      rw [Link.task, TaskVoid.thenValue, value_coAwait]
      cases prev.value with
      | ok x => apply Callback.value_call
      | error x => rfl
  | value =>
      rw [Link.task, Task.thenValue, value_coAwait]
      cases prev.value with
      | ok x => apply Callback.value_call
      | error x => rfl

/-- The task of a link has the outcome that the link makes. -/
theorem Link.value_task {link : Link V E k l} (hfits : Fits k prev.value)
    (hreturns : link.Returns) :
  (link.task std prev).value = link.apply std prev.value
  := by
  cases link with
  | thenVoid func => apply value_thenVoid
  | thenValue func => apply value_thenValue
  | catching func => apply value_catching hfits
  | «finally» func =>
      rw [value_finally hfits]
      cases prev.value with
      | ok x =>
          obtain ⟨a, ha⟩ := hreturns x.2
          simp only [apply, Callback.guard, ha]
          rfl
      | error x => rfl

/-- A link makes an outcome of its kind. -/
theorem Link.fits_apply {link : Link V E k l} {outcome : Outcome V E} (hfits : Fits k outcome) :
  Fits l (link.apply std outcome)
  := by
  have hguard : ∀ {func : Callback V E Unit} {arg log} {o : Except E (Value V)},
      (∀ v, o = .ok v → v.kind = k) → Fits k (func.guard arg log o) := by
    intro func arg log o ho v log' h
    rw [Callback.guard] at h
    cases hrun : func.run log arg with
    | ok a =>
        rw [hrun] at h
        cases o with
        | ok v' =>
            obtain ⟨rfl, -⟩ := Prod.mk.inj (Except.ok.inj h)
            apply ho v' rfl
        | error e => contradiction
    | error e =>
        rw [hrun] at h
        contradiction
  have hreplace : ∀ {α : Type} {func : Callback V E α} {arg log} {result : α → Value V},
      (∀ a, (result a).kind = l) → Fits l (func.replace arg log result) := by
    intro α func arg log result hresult v log' h
    rw [Callback.replace] at h
    cases hrun : func.run log arg with
    | ok a =>
        rw [hrun] at h
        obtain ⟨rfl, -⟩ := Prod.mk.inj (Except.ok.inj h)
        apply hresult
    | error e =>
        rw [hrun] at h
        contradiction
  cases link with
  | thenVoid func | thenValue func =>
      cases outcome with
      | ok x =>
          apply hreplace
          intro _
          rfl
      | error x =>
          intro v log h
          contradiction
  | catching func =>
      cases outcome with
      | ok x => apply hfits
      | error x =>
          simp only [apply]
          split
          · apply hguard
            intro v h
            contradiction
          · apply hfits
  | «finally» func =>
      cases outcome with
      | ok x =>
          apply hguard
          intro v h
          obtain rfl := Except.ok.inj h
          apply hfits x.1 x.2 rfl
      | error x =>
          apply hguard
          intro v h
          contradiction

/-- The task of a chain has the outcome of the left fold. -/
theorem Chain.value_task {chain : Chain V E k l} (hfits : Fits k prev.value)
    (hreturns : chain.Returns) :
  (chain.task std prev).value = chain.fold std prev.value
  := by
  induction chain generalizing prev with
  | nil => rfl
  | cons link chain ih =>
      have hvalue : (link.task std _).value = link.apply std _ := link.value_task hfits hreturns.1
      rw [task, fold, ih _ hreturns.2, hvalue]
      rw [hvalue]
      apply link.fits_apply hfits

/-! ### Chains of `finally` -/

/-- `finally` with each of the callbacks. -/
def wrappers : List (Callback V E Unit) → Chain V E k k
  | [] => .nil
  | func :: funcs => .cons (.finally func) (wrappers funcs)

/-- None of the callbacks throws, when each is called once, from the given log on. -/
def Quiet : List (Callback V E Unit) → Log V E → Prop
  | [], _ => True
  | func :: funcs, log =>
      (∃ a, func.run log .nothing = .ok a) ∧ Quiet funcs (func.enter .nothing log)

theorem Callback.guard_log {func : Callback V E Unit} {arg : Argument V E} {log : Log V E}
    {outcome : Except E (Value V)} :
  (func.guard arg log outcome).log = func.enter arg log
  := by
  rw [guard]
  cases func.run log arg with
  | ok a => cases outcome <;> rfl
  | error e => rfl

/-- After the callback an exception is still one. -/
theorem Callback.exists_guard (func : Callback V E Unit) (arg : Argument V E) (log : Log V E)
    (e : E) :
  ∃ e', func.guard arg log (.error e) = .error (e', func.enter arg log)
  := by
  rw [guard]
  cases func.run log arg with
  | ok a => exact ⟨e, rfl⟩
  | error e' => exact ⟨e', rfl⟩

/-- The left fold of a chain of `finally` calls every callback once. -/
theorem fold_wrappers_log {funcs : List (Callback V E Unit)} {outcome : Outcome V E} :
  ((wrappers funcs : Chain V E k k).fold std outcome).log =
    outcome.log ++ funcs.map fun func => ⟨func.id, .nothing⟩
  := by
  induction funcs generalizing outcome with
  | nil => simp [wrappers, Chain.fold]
  | cons func funcs ih =>
      have hlog : ((Link.finally func : Link V E k k).apply std outcome).log =
          func.enter .nothing outcome.log := by
        cases outcome <;> apply Callback.guard_log
      rw [wrappers, Chain.fold, ih, hlog, Callback.enter, List.map_cons]
      simp

/-- Where the task has thrown, `finally` calls its callback once. -/
theorem value_finally_error {func : Callback V E Unit} {e : E} {log : Log V E}
    (hvalue : prev.value = .error (e, log)) :
  ((Link.finally func : Link V E k k).task std prev).value =
    (Link.finally func : Link V E k k).apply std (.error (e, log))
  := by
  rw [value_finally, hvalue, Link.apply]
  rw [hvalue]
  intro v log h
  contradiction

/-- Where the task has returned and the callback returns, `finally` calls it once. -/
theorem value_finally_returns (std : E → Bool) {func : Callback V E Unit} {v : Value V}
    {log : Log V E} {a : Unit} (hfits : Fits k prev.value) (hvalue : prev.value = .ok (v, log))
    (hrun : func.run log .nothing = .ok a) :
  ((Link.finally func : Link V E k k).task std prev).value = .ok (v, func.enter .nothing log)
  := by
  rw [value_finally hfits, hvalue]
  simp only [hrun]

/-- Where the task has returned and the callback throws, `finally` calls it twice. -/
theorem value_finally_throws (std : E → Bool) {func : Callback V E Unit} {v : Value V}
    {log : Log V E} {e : E} (hfits : Fits k prev.value) (hvalue : prev.value = .ok (v, log))
    (hrun : func.run log .nothing = .error e) :
  ∃ e', ((Link.finally func : Link V E k k).task std prev).value =
    .error (e', func.enter .nothing (func.enter .nothing log))
  := by
  rw [value_finally hfits, hvalue]
  simp only [hrun]
  apply Callback.exists_guard

/-- Where the task has thrown, a chain of `finally` is the left fold. -/
theorem value_wrappers_error {funcs : List (Callback V E Unit)} {x : E × Log V E}
    (hvalue : prev.value = .error x) :
  ((wrappers funcs : Chain V E k k).task std prev).value =
    (wrappers funcs : Chain V E k k).fold std (.error x)
  := by
  induction funcs generalizing prev x with
  | nil => apply hvalue
  | cons func funcs ih =>
      obtain ⟨e, log⟩ := x
      have hlink : ((Link.finally func : Link V E k k).task std prev).value = _ :=
        value_finally_error hvalue
      obtain ⟨e', he'⟩ := func.exists_guard .nothing log e
      rw [Link.apply, he'] at hlink
      rw [wrappers, Chain.task, Chain.fold, Link.apply, he']
      apply ih hlink

/-- Where a callback throws after the task has returned, a chain of `finally` is not the left fold:
there is one call more. -/
theorem value_wrappers_throws {func : Callback V E Unit} {funcs : List (Callback V E Unit)}
    {v : Value V} {log : Log V E} {e : E} (hfits : Fits k prev.value)
    (hvalue : prev.value = .ok (v, log)) (hrun : func.run log .nothing = .error e) :
  ((wrappers (func :: funcs) : Chain V E k k).task std prev).value ≠
    (wrappers (func :: funcs) : Chain V E k k).fold std (.ok (v, log))
  := by
  intro heq
  obtain ⟨e', he'⟩ := value_finally_throws std hfits hvalue hrun
  rw [wrappers, Chain.task, value_wrappers_error he', Chain.fold, Link.apply] at heq
  have hlog := congrArg Outcome.log heq
  rw [fold_wrappers_log, fold_wrappers_log, Callback.guard_log] at hlog
  have hlength := congrArg List.length hlog
  simp only [Outcome.log, Callback.enter, List.length_append, List.length_singleton,
    List.length_map] at hlength
  omega

/-- A chain of `finally` is the left fold if and only if the task has thrown or no callback
throws. -/
theorem value_wrappers_iff (std : E → Bool) {funcs : List (Callback V E Unit)}
    (hfits : Fits k prev.value) :
  ((wrappers funcs : Chain V E k k).task std prev).value =
      (wrappers funcs : Chain V E k k).fold std prev.value ↔
    ∀ v log, prev.value = .ok (v, log) → Quiet funcs log
  := by
  induction funcs generalizing prev with
  | nil =>
      constructor
      · intro _ _ _ _
        trivial
      · intro _
        rfl
  | cons func funcs ih =>
      cases hvalue : prev.value with
      | error x =>
          constructor
          · intro _ v log h
            contradiction
          · intro _
            apply value_wrappers_error hvalue
      | ok x =>
          obtain ⟨v, log⟩ := x
          have hquiet : (∀ v' log', (.ok (v, log) : Outcome V E) = .ok (v', log') →
              Quiet (func :: funcs) log') ↔ Quiet (func :: funcs) log := by
            constructor
            · intro h
              apply h v log rfl
            · intro h v' log' heq
              obtain ⟨-, rfl⟩ := Prod.mk.inj (Except.ok.inj heq)
              apply h
          rw [hquiet]
          cases hrun : func.run log .nothing with
          | ok a =>
              have hlink := value_finally_returns std hfits hvalue hrun
              have hlinkfits : Fits k ((Link.finally func : Link V E k k).task std prev).value := by
                rw [hlink]
                intro v' log' heq
                obtain ⟨rfl, -⟩ := Prod.mk.inj (Except.ok.inj heq)
                apply hfits v log hvalue
              have happly : (Link.finally func : Link V E k k).apply std (.ok (v, log)) =
                  .ok (v, func.enter .nothing log) := by
                simp [Link.apply, Callback.guard, hrun, Outcome.at]
              have hrest := ih hlinkfits
              rw [hlink] at hrest
              rw [wrappers, Chain.task, Chain.fold, happly, hrest]
              constructor
              · intro h
                exact ⟨⟨a, hrun⟩, h _ _ rfl⟩
              · intro h v' log' heq
                obtain ⟨-, rfl⟩ := Prod.mk.inj (Except.ok.inj heq)
                apply h.2
          | error e =>
              constructor
              · intro heq
                exact absurd heq (value_wrappers_throws hfits hvalue hrun)
              · intro h
                obtain ⟨a, ha⟩ := h.1
                rw [hrun] at ha
                contradiction

/-! ### The chains as coroutines -/

/-- The coroutines that have run so far are at the end with outcome `r`, or can go on. -/
structure Ends (e : E × Log V E) (r : Outcome V E)
    (s : Coroutines V E) : Prop where
  outcome : s.frames = [⟨0, .final⟩] → (s.promise 0).result = some r
  progress : s.frames = [⟨0, .final⟩] ∨ ∃ a t, Tasks.step e s a = some t

/-- The steps of a task, in whatever order workers take requests. -/
def bound (task : Coroutine V E) : ℕ :=
  Tasks.distance (.queued 0 task.body) []

/-- The coroutines of a task end with its outcome, after a number of steps that is bounded. -/
theorem ends_of_run {task : Coroutine V E} {e : E × Log V E} {as : List (Label V E)}
    {s : Coroutines V E}
    (h : Run (Tasks.step e) Free (Tasks.initial Empty task.body) as s) :
  Ends e task.value s ∧ as.length ≤ bound task
  := by
  have hinitial := Tasks.Follows.initial task.body
  rw [Program.eval_body] at hinitial
  obtain ⟨n, ⟨p, up, hs, hn⟩, hlength⟩ := h.length_le_of_rank
    (I := fun s n => ∃ p up, Tasks.Follows task.value s p up ∧ n = Tasks.distance p up)
    (fun _ => 0)
    (fun t a u n ht _ hstep => by
      obtain ⟨p, up, hfollows, rfl⟩ := ht
      obtain ⟨p', up', hfollows', hlt⟩ := hfollows.step hstep
      exact ⟨_, ⟨p', up', hfollows', rfl⟩, hlt⟩)
    ⟨_, _, hinitial, rfl⟩
  constructor
  · constructor
    · intro hframes
      obtain ⟨r', rfl⟩ := hs.finished_of_first hframes
      apply hs.ended.2
    · obtain ⟨i, r', rfl⟩ | hstep := hs.progress e
      · left
        apply hs.ended.1
      · right
        apply hstep
  · have hcredit : (as.map fun _ => 0).sum = 0 := by simp
    rw [hcredit] at hlength
    simp only [bound]
    omega

/-- In every run the task of a chain ends with the left fold of the chain over the outcome of the
source. -/
theorem chain_folds {source : Source V E k} {chain : Chain V E k l} (hreturns : chain.Returns)
    {e : E × Log V E} {as : List (Label V E)} {s : Coroutines V E}
    (h : Run (Tasks.step e) Free (Tasks.initial Empty (source.chained std chain).body) as s) :
  Ends e (chain.fold std source.outcome) s ∧ as.length ≤ bound (source.chained std chain)
  := by
  have hvalue : (source.chained std chain).value = chain.fold std source.outcome := by
    have hfits : Fits k (logged source.program).value := by
      rw [source.value_logged]
      apply source.fits
    rw [Source.chained, Chain.value_task hfits hreturns, source.value_logged]
  rw [← hvalue]
  apply ends_of_run h

/-- A task that throws `3`. -/
def throwing : Source ℕ ℕ .value :=
  ⟨.throw 3, by
    intro v h
    contradiction⟩

/-- The callback of `catching` throws `5`. -/
def catchingThrows : Chain ℕ ℕ .value .void :=
  .cons (.thenVoid ⟨0, fun _ _ => .ok ()⟩)
    (.cons (.catching ⟨1, fun _ _ => .error 5⟩) (.cons (.finally ⟨2, fun _ _ => .ok ()⟩) .nil))

/-- The callback of `then` is not called, that of `catching` is and replaces the exception, and that
of `finally` is and keeps it. -/
theorem chain_folds_throwing :
  ∃ as s, Run (Tasks.step (0, [])) Free
      (Tasks.initial Empty (throwing.chained (fun _ => true) catchingThrows).body) as s ∧
    (s.promise 0).result = some (.error (5, [⟨1, .exception 3⟩, ⟨2, .nothing⟩])) ∧
    Ends (0, []) (.error (5, [⟨1, .exception 3⟩, ⟨2, .nothing⟩])) s
  := by
  let calls (d : ℕ) : List (Label ℕ ℕ) :=
    [.execute 0 d, .go d, .go d]
  let as : List (Label ℕ ℕ) := List.flatten
    [calls 0, [.call 0], calls 1, [.call 1], calls 2, [.call 2], calls 3, [.call 3], calls 2,
      [.go 2, .go 2, .call 4], calls 1, [.go 1, .go 1, .call 5], calls 0, [.go 0, .go 0]]
  obtain ⟨s, hrun, hresult⟩ : ∃ s : Coroutines ℕ ℕ,
      Run (Tasks.step (0, [])) Free
          (Tasks.initial Empty (throwing.chained (fun _ => true) catchingThrows).body) as s ∧
        (s.promise 0).result = some (.error (5, [⟨1, .exception 3⟩, ⟨2, .nothing⟩])) := by
    apply exists_run_of_exec
    decide +kernel
  have hreturns : catchingThrows.Returns :=
    ⟨trivial, trivial, fun _ => ⟨(), rfl⟩, trivial⟩
  have hends := (chain_folds hreturns hrun).1
  exact ⟨as, s, hrun, hresult, hends⟩

/-- The task of a chain of `finally` ends with an outcome, which is the one where every callback is
called once if and only if the source throws or no callback does. -/
theorem finally_once_iff (std : E → Bool) (source : Source V E k)
    (funcs : List (Callback V E Unit)) :
  ∃ r : Outcome V E,
    (∀ e as s,
      Run (Tasks.step e) Free (Tasks.initial Empty (source.chained std (wrappers funcs)).body) as s →
        Ends e r s ∧ as.length ≤ bound (source.chained std (wrappers funcs))) ∧
    (r = (wrappers funcs : Chain V E k k).fold std source.outcome ↔
      (∃ e, source.program.value = .error e) ∨ Quiet funcs [])
  := by
  refine ⟨(source.chained std (wrappers funcs)).value, fun e as s h => ends_of_run h, ?_⟩
  have hfits : Fits k (logged source.program).value := by
    rw [source.value_logged]
    apply source.fits
  have hiff : ((wrappers funcs : Chain V E k k).task std (logged source.program)).value = _ ↔ _ :=
    value_wrappers_iff std hfits
  rw [source.value_logged] at hiff
  rw [Source.chained, hiff, Source.outcome]
  cases hvalue : source.program.value with
  | ok v =>
      constructor
      · intro hquiet
        right
        apply hquiet v [] rfl
      · intro hquiet v' log heq
        obtain ⟨-, rfl⟩ := Prod.mk.inj (Except.ok.inj heq)
        obtain ⟨e, he⟩ | hquiet := hquiet
        · contradiction
        · apply hquiet
  | error e =>
      constructor
      · intro _
        left
        exact ⟨e, rfl⟩
      · intro _ v log heq
        contradiction

/-- A `Task<void>` that returns. -/
def returning : Source ℕ ℕ .void :=
  ⟨.coReturn .void, by
    intro v h
    obtain rfl := Except.ok.inj h
    rfl⟩

/-- A callback that throws `7`. -/
def throws : Callback ℕ ℕ Unit := ⟨0, fun _ _ => .error 7⟩

/-- The task returns, and the callback throws: it is called in the `try` block and in the handler.
-/
theorem finally_calls_twice :
  (wrappers [throws] : Chain ℕ ℕ .void .void).fold (fun _ => true) returning.outcome =
      .error (7, [⟨0, .nothing⟩]) ∧
    ∃ (as : List (Label ℕ ℕ)) (s : Coroutines ℕ ℕ), Run (Tasks.step (0, [])) Free
        (Tasks.initial Empty (returning.chained (fun _ => true) (wrappers [throws])).body) as s ∧
      (s.promise 0).result = some (.error (7, [⟨0, .nothing⟩, ⟨0, .nothing⟩]))
  := by
  constructor
  · rfl
  · let calls (d : ℕ) : List (Label ℕ ℕ) :=
      [.execute 0 d, .go d, .go d]
    refine ⟨List.flatten [calls 0, [.call 0], calls 1, [.call 1], calls 0, [.go 0, .go 0]], ?_⟩
    apply exists_run_of_exec
    decide +kernel

end Chaining

end Koroutine
