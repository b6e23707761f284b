import Koroutine.Combinator.Registration
import Koroutine.Transition.Parties

/-!
# `when_any`

The coroutine of `when_any` launches one fire-and-forget wrapper coroutine for each task and
awaits the first completion.  A wrapper awaits its task and then tries to win a compare-exchange
on `state->completed`.  The winner locks `state->mtx`, records its value or its exception, reads
`state->continuation`, and schedules it if it is set; the others have nothing to do.

The awaiter's `await_ready` and its `await_suspend` look at `completed` only.  `await_resume` locks
the mutex and returns what it finds recorded.

There are three overloads: over a vector of tasks with values, over a vector of `void` tasks,
which records the index only, and over a parameter pack, which returns an exception as
`std::unexpected`, and has at least one task, as a `std::variant` has an alternative.  A default
scheduler is assumed to be set, so that `state->scheduler` is never null.
-/

open Transition

namespace Koroutine

namespace WhenAny

/-- The overloads of `when_any`. -/
inductive Overload
  | vector
  | voidVector
  | variadic
  deriving DecidableEq

/-- The stages of a wrapper coroutine. -/
inductive Stage
  /-- The wrapper has not been launched. -/
  | unborn
  /-- In the `co_await` of its task. -/
  | awaiting
  /-- The `co_await` has ended, with the task's value or exception. -/
  | resumed
  /-- The compare-exchange has succeeded. -/
  | won
  /-- Holding `state->mtx`. -/
  | locked
  /-- The value or the exception is recorded. -/
  | stored
  /-- `state->continuation` has been read and is not null. -/
  | dispatching
  /-- The continuation has been scheduled, or there was nothing to schedule. -/
  | settled
  /-- The body has ended. -/
  | finishing (winner : Bool)
  /-- The coroutine has destroyed itself. -/
  | gone (winner : Bool)
  deriving DecidableEq

/-- The stages of the coroutine of `when_any`. -/
inductive Body
  | entering
  | launching (k : ℕ)
  /-- About to call `await_ready`. -/
  | checking
  | suspended
  /-- About to call `await_resume`. -/
  | resuming
  /-- The result is determined. -/
  | leaving
  | left
  deriving DecidableEq

/-- What `co_await when_any(..)` gives: a task's index and value, a task's exception, rethrown or
as `std::unexpected`, or an exception of `when_any` itself. -/
inductive Outcome (V E : Type*) (n : ℕ)
  | result (i : Fin n) (v : V)
  | rethrown (e : E)
  | unexpected (e : E)
  | runtimeError (what : String)
  | invalidArgument (what : String)
  deriving DecidableEq

/-- The shared state, the wrappers, the coroutine of `when_any` with its `await_suspend`, and what
it leaves with.  `dispatched` is how often the coroutine has been put on the scheduler, `queue`
how many of these requests have not been executed. -/
structure State (V E : Type*) (n : ℕ) where
  completed : Bool
  mtx : Option (Fin n)
  result : Option (Fin n × V)
  exception : Option E
  continuation : Bool
  dispatched : ℕ
  queue : ℕ
  wrappers : Fin n → Stage
  suspend : Suspend
  body : Body
  outcome : Option (Outcome V E n)

/-- A step is one of the coroutine's body, of its `await_suspend`, the execution of a request to
resume it, or a step of a wrapper. -/
inductive Label (n : ℕ)
  | body
  | suspend
  | resume
  | wrapper (i : Fin n)
  deriving DecidableEq

variable {V E : Type*} {n : ℕ}

/-- The state before the coroutine is started. -/
def initial (V E : Type*) (n : ℕ) : State V E n where
  completed := false
  mtx := none
  result := none
  exception := none
  continuation := false
  dispatched := 0
  queue := 0
  wrappers := fun _ => .unborn
  suspend := .uncalled
  body := .entering
  outcome := none

namespace State

/-- Wrapper `i` goes on to stage `st`. -/
def goto (s : State V E n) (i : Fin n) (st : Stage) : State V E n :=
  { s with wrappers := Function.update s.wrappers i st }

/-- `state->completed.compare_exchange_strong(expected, true)` succeeds. -/
def win (s : State V E n) (i : Fin n) : State V E n :=
  { s with wrappers := Function.update s.wrappers i .won, completed := true }

/-- Wrapper `i` locks `state->mtx`. -/
def lock (s : State V E n) (i : Fin n) : State V E n :=
  { s with wrappers := Function.update s.wrappers i .locked, mtx := some i }

/-- Wrapper `i` records the outcome of its task. -/
def store (s : State V E n) (i : Fin n) : Except E V → State V E n
  | .ok v => { s with wrappers := Function.update s.wrappers i .stored, result := some (i, v) }
  | .error e => { s with wrappers := Function.update s.wrappers i .stored, exception := some e }

/-- Wrapper `i` schedules the continuation. -/
def dispatch (s : State V E n) (i : Fin n) : State V E n :=
  { s with
    wrappers := Function.update s.wrappers i .settled
    dispatched := s.dispatched + 1
    queue := s.queue + 1 }

/-- Wrapper `i` unlocks `state->mtx`. -/
def unlock (s : State V E n) (i : Fin n) : State V E n :=
  { s with wrappers := Function.update s.wrappers i (.finishing true), mtx := none }

/-- The coroutine goes on to stage `b`. -/
def goes (s : State V E n) (b : Body) : State V E n :=
  { s with body := b }

/-- `await_suspend` goes on to stage `st`. -/
def suspends (s : State V E n) (st : Suspend) : State V E n :=
  { s with suspend := st }

end State

/-- The text of the exception thrown when nothing is recorded. -/
def Overload.noResult : Overload → String
  | .vector => "when_any: internal error - no result available"
  | .voidVector => "when_any(void): internal error - no result available"
  | .variadic => "when_any: no result available"

/-- How the overloads give on a task's exception. -/
def Overload.fail (ov : Overload) (e : E) : Outcome V E n :=
  match ov with
  | .vector | .voidVector => .rethrown e
  | .variadic => .unexpected e

/-- `await_resume` -/
def State.awaitResume (ov : Overload) (s : State V E n) : Outcome V E n :=
  match s.exception, s.result with
  | some e, _ => ov.fail e
  | none, some (i, v) => .result i v
  | none, none => .runtimeError ov.noResult

/-- A step of the body. -/
def bodyStep (ov : Overload) (s : State V E n) : Option (State V E n) :=
  match s.body with
  | .entering =>
      if ov ≠ .variadic ∧ n = 0 then
        some { s with
          body := .leaving
          outcome := some (.invalidArgument "when_any: empty task list") }
      else some (s.goes (.launching 0))
  | .launching k =>
      if h : k < n then some ((s.goto ⟨k, h⟩ .awaiting).goes (.launching (k + 1)))
      else some (s.goes .checking)
  | .checking =>
      if s.completed then some (s.goes .resuming)
      else some { s with body := .suspended, suspend := .entered }
  | .resuming =>
      if s.mtx = none then some { s with body := .leaving, outcome := some (s.awaitResume ov) }
      else none
  | .leaving => some (s.goes .left)
  | .suspended | .left => none

/-- A step of `await_suspend`. -/
def suspendStep (s : State V E n) : Option (State V E n) :=
  match s.suspend with
  | .entered => some { s with suspend := .stored, continuation := true }
  | .stored => some (s.suspends (if s.completed then .dispatching else .returned))
  | .dispatching =>
      some { s with
        suspend := .returned
        dispatched := s.dispatched + 1
        queue := s.queue + 1 }
  | .uncalled | .returned => none

/-- A step of wrapper `i`, whose task has the outcome `r`. -/
def wrapperStep (r : Except E V) (s : State V E n) (i : Fin n) : Option (State V E n) :=
  match s.wrappers i with
  | .awaiting => some (s.goto i .resumed)
  | .resumed => some (if s.completed then s.goto i (.finishing false) else s.win i)
  | .won => if s.mtx = none then some (s.lock i) else none
  | .locked => some (s.store i r)
  | .stored => some (s.goto i (if s.continuation then .dispatching else .settled))
  | .dispatching => some (s.dispatch i)
  | .settled => some (s.unlock i)
  | .finishing b => some (s.goto i (.gone b))
  | .unborn | .gone _ => none

/-- The step function of `when_any` on tasks with the given outcomes.  A request to resume the
coroutine is executed while it is suspended; executing one at any other time has no defined
meaning. -/
def step (ov : Overload) (outcomes : Fin n → Except E V) (s : State V E n) :
    Label n → Option (State V E n)
  | .body => bodyStep ov s
  | .suspend => suspendStep s
  | .resume =>
      if s.body = .suspended ∧ 0 < s.queue then
        some { s with body := .resuming, queue := s.queue - 1 }
      else none
  | .wrapper i => wrapperStep (outcomes i) s i

/-! ### The invariant -/

/-- `1` for a wrapper that has won the compare-exchange. -/
def Stage.winner : Stage → ℕ
  | .won | .locked | .stored | .dispatching | .settled | .finishing true | .gone true => 1
  | .unborn | .awaiting | .resumed | .finishing false | .gone false => 0

/-- The wrapper has tried the compare-exchange. -/
def Stage.raced : Stage → Bool
  | .won | .locked | .stored | .dispatching | .settled | .finishing _ | .gone _ => true
  | .unborn | .awaiting | .resumed => false

/-- `1` between winning and the reading of the continuation. -/
def Stage.deciding : Stage → ℕ
  | .won | .locked | .stored => 1
  | _ => 0

/-- `1` between the reading of a continuation that is set and its scheduling. -/
def Stage.dispatches : Stage → ℕ
  | .dispatching => 1
  | _ => 0

/-- The wrapper holds `state->mtx`. -/
def Stage.locks : Stage → Bool
  | .locked | .stored | .dispatching | .settled => true
  | _ => false

/-- The wrapper has recorded its outcome. -/
def Stage.recorded : Stage → Bool
  | .stored | .dispatching | .settled | .finishing true | .gone true => true
  | _ => false

/-- How many wrappers the body has launched. -/
def Body.made (n : ℕ) : Body → ℕ
  | .entering => 0
  | .launching k => k
  | .checking | .suspended | .resuming | .leaving | .left => n

/-- The body has not called `await_ready` yet. -/
def Body.early : Body → Bool
  | .entering | .launching _ | .checking => true
  | .suspended | .resuming | .leaving | .left => false

/-- `completed` says whether a wrapper has won, at most one does, and the continuation is set once
`await_suspend` has stored it. -/
structure Valid (s : State V E n) : Prop where
  elected : Elected Stage.winner s.wrappers s.completed
  raced : ∀ i, (s.wrappers i).raced = true → s.completed = true
  unmade : ∀ i : Fin n, s.body.made n ≤ i.val → s.wrappers i = .unborn
  registered : s.continuation = s.suspend.registered
  uncalled : s.body.early = true → s.suspend = .uncalled

theorem Valid.initial :
  Valid (initial V E n)
  := by
  constructor
  · simp [Elected, WhenAny.initial, Stage.winner]
  · intro i hi
    contradiction
  · intro i _
    rfl
  · rfl
  · intro _
    rfl

/-- A wrapper that has neither won nor raced by its step, nor before. -/
theorem Valid.goto {s : State V E n} {i : Fin n} {st : Stage} (hs : Valid s)
    (hunborn : s.wrappers i ≠ .unborn) (hw : st.winner = (s.wrappers i).winner)
    (hr : st.raced = true → s.completed = true) :
  Valid (s.goto i st)
  := by
  obtain ⟨helected, hraced, hunmade, hregistered, huncalled⟩ := hs
  constructor
  · apply helected.update hw
  · intro j hj
    by_cases hji : j = i
    · subst hji
      apply hr
      simpa [State.goto] using hj
    · apply hraced j
      simpa [State.goto, hji] using hj
  · intro j hj
    have hji : j ≠ i := by
      rintro rfl
      apply hunborn (hunmade j hj)
    simp only [State.goto, Function.update_of_ne hji]
    apply hunmade j hj
  · apply hregistered
  · apply huncalled

/-- A wrapper that has raced goes on. -/
theorem Valid.advance {s : State V E n} {i : Fin n} {st : Stage} (hs : Valid s)
    (hr : (s.wrappers i).raced = true) (hw : st.winner = (s.wrappers i).winner) :
  Valid (s.goto i st)
  := by
  apply hs.goto _ hw
  · intro _
    apply hs.raced i hr
  · intro hunborn
    simp [hunborn, Stage.raced] at hr

/-- `Valid` does not look at the mutex, the recorded outcome, the scheduler and the result. -/
theorem Valid.congr {s t : State V E n} (hs : Valid s) (hc : t.completed = s.completed)
    (hw : t.wrappers = s.wrappers) (hcont : t.continuation = s.continuation)
    (hsus : t.suspend = s.suspend) (hb : t.body = s.body) :
  Valid t
  := by
  obtain ⟨helected, hraced, hunmade, hregistered, huncalled⟩ := hs
  constructor
  · rw [hc, hw]
    apply helected
  · rw [hc, hw]
    apply hraced
  · rw [hw, hb]
    apply hunmade
  · rw [hcont, hsus, hregistered]
  · rw [hb, hsus]
    apply huncalled

/-- Winning preserves `Valid`. -/
theorem Valid.win {s : State V E n} {i : Fin n} (hs : Valid s) (hi : s.wrappers i = .resumed)
    (hc : s.completed = false) :
  Valid (s.win i)
  := by
  obtain ⟨helected, hraced, hunmade, hregistered, huncalled⟩ := hs
  rw [hc] at helected
  constructor
  · apply helected.elect rfl
  · intro j _
    rfl
  · intro j hj
    have hji : j ≠ i := by
      rintro rfl
      simp [hunmade j hj] at hi
    simp only [State.win, Function.update_of_ne hji]
    apply hunmade j hj
  · apply hregistered
  · apply huncalled

/-- Every step of a wrapper preserves `Valid`. -/
theorem Valid.wrapperStep {r : Except E V} {s t : State V E n} {i : Fin n} (hs : Valid s)
    (h : wrapperStep r s i = some t) :
  Valid t
  := by
  cases hst : s.wrappers i with
  | unborn | gone => simp [WhenAny.wrapperStep, hst] at h
  | awaiting =>
      simp only [WhenAny.wrapperStep, hst, Option.some.injEq] at h
      subst h
      apply hs.goto <;> simp [hst, Stage.winner, Stage.raced]
  | resumed =>
      simp only [WhenAny.wrapperStep, hst, Option.some.injEq] at h
      split at h
      · rename_i hc
        subst h
        apply hs.goto <;> simp [hst, hc, Stage.winner]
      · rename_i hc
        subst h
        apply hs.win hst
        simpa using hc
  | won =>
      simp only [WhenAny.wrapperStep, hst, Option.ite_none_right_eq_some, Option.some.injEq] at h
      obtain ⟨-, rfl⟩ := h
      have hgoto : Valid (s.goto i .locked) := by
        apply hs.advance <;> rw [hst] <;> rfl
      apply hgoto.congr <;> rfl
  | locked =>
      simp only [WhenAny.wrapperStep, hst, Option.some.injEq] at h
      subst h
      have hgoto : Valid (s.goto i .stored) := by
        apply hs.advance <;> rw [hst] <;> rfl
      cases r <;> apply hgoto.congr <;> rfl
  | stored =>
      simp only [WhenAny.wrapperStep, hst, Option.some.injEq] at h
      subst h
      split <;> apply hs.advance <;> rw [hst] <;> rfl
  | dispatching =>
      simp only [WhenAny.wrapperStep, hst, Option.some.injEq] at h
      subst h
      have hgoto : Valid (s.goto i .settled) := by
        apply hs.advance <;> rw [hst] <;> rfl
      apply hgoto.congr <;> rfl
  | settled =>
      simp only [WhenAny.wrapperStep, hst, Option.some.injEq] at h
      subst h
      have hgoto : Valid (s.goto i (.finishing true)) := by
        apply hs.advance <;> rw [hst] <;> rfl
      apply hgoto.congr <;> rfl
  | finishing b =>
      simp only [WhenAny.wrapperStep, hst, Option.some.injEq] at h
      subst h
      apply hs.advance <;> rw [hst] <;> cases b <;> rfl

/-! ### What a step of the coroutine does -/

/-- The effects a step of the body can have. -/
inductive BodyEffect (ov : Overload) (s : State V E n) : State V E n → Prop
  | empty (before : s.body = .entering) (none : n = 0) :
      BodyEffect ov s { s with
        body := .leaving
        outcome := some (.invalidArgument "when_any: empty task list") }
  | enter (before : s.body = .entering) : BodyEffect ov s (s.goes (.launching 0))
  | launch {k : ℕ} (before : s.body = .launching k) (h : k < n) :
      BodyEffect ov s ((s.goto ⟨k, h⟩ .awaiting).goes (.launching (k + 1)))
  | launched {k : ℕ} (before : s.body = .launching k) (h : n ≤ k) :
      BodyEffect ov s (s.goes .checking)
  | pass (before : s.body = .checking) (ready : s.completed = true) :
      BodyEffect ov s (s.goes .resuming)
  | suspend (before : s.body = .checking) (ready : s.completed = false) :
      BodyEffect ov s { s with body := .suspended, suspend := .entered }
  | resume (before : s.body = .resuming) (free : s.mtx = none) :
      BodyEffect ov s { s with body := .leaving, outcome := some (s.awaitResume ov) }
  | leave (before : s.body = .leaving) : BodyEffect ov s (s.goes .left)

/-- Every step of the body has one of the effects. -/
theorem bodyStep_effect {ov : Overload} {s t : State V E n} (h : bodyStep ov s = some t) :
  BodyEffect ov s t
  := by
  cases hst : s.body with
  | entering =>
      simp only [bodyStep, hst] at h
      split at h
      · rename_i hempty
        simp only [Option.some.injEq] at h
        subst h
        apply BodyEffect.empty hst hempty.2
      · simp only [Option.some.injEq] at h
        subst h
        apply BodyEffect.enter hst
  | launching k =>
      simp only [bodyStep, hst] at h
      split at h
      · rename_i hk
        simp only [Option.some.injEq] at h
        subst h
        apply BodyEffect.launch hst hk
      · rename_i hk
        simp only [Option.some.injEq] at h
        subst h
        apply BodyEffect.launched hst (by omega)
  | checking =>
      simp only [bodyStep, hst] at h
      split at h
      · rename_i hready
        simp only [Option.some.injEq] at h
        subst h
        apply BodyEffect.pass hst hready
      · rename_i hready
        simp only [Option.some.injEq] at h
        subst h
        apply BodyEffect.suspend hst
        simpa using hready
  | resuming =>
      simp only [bodyStep, hst, Option.ite_none_right_eq_some, Option.some.injEq] at h
      obtain ⟨hfree, rfl⟩ := h
      apply BodyEffect.resume hst hfree
  | leaving =>
      simp only [bodyStep, hst, Option.some.injEq] at h
      subst h
      apply BodyEffect.leave hst
  | suspended | left => simp [bodyStep, hst] at h

/-- Every step of the body preserves `Valid`. -/
theorem Valid.bodyStep {ov : Overload} {s t : State V E n} (hs : Valid s)
    (h : bodyStep ov s = some t) :
  Valid t
  := by
  obtain ⟨helected, hraced, hunmade, hregistered, huncalled⟩ := hs
  cases bodyStep_effect h with
  | empty before none =>
      subst none
      constructor
      · apply helected
      · apply hraced
      · intro i
        apply i.elim0
      · apply hregistered
      · simp [Body.early]
  | enter before =>
      rw [before] at hunmade huncalled
      exact ⟨helected, hraced, hunmade, hregistered, huncalled⟩
  | @launch k before hk =>
      rw [before] at hunmade huncalled
      have hunborn := hunmade ⟨k, hk⟩ le_rfl
      constructor
      · apply helected.update
        rw [hunborn]
        rfl
      · intro j hj
        by_cases hjk : j = ⟨k, hk⟩
        · subst hjk
          simp [State.goes, State.goto, Stage.raced] at hj
        · apply hraced j
          simpa [State.goes, State.goto, hjk] using hj
      · intro j hj
        simp only [State.goes, Body.made] at hj
        have hjk : j ≠ ⟨k, hk⟩ := by
          rintro rfl
          simp at hj
        simp only [State.goes, State.goto, Function.update_of_ne hjk]
        apply hunmade j
        simp only [Body.made]
        omega
      · apply hregistered
      · apply huncalled
  | launched before hk =>
      rw [before] at huncalled
      constructor
      · apply helected
      · apply hraced
      · intro i hi
        apply absurd i.isLt (Nat.not_lt.mpr hi)
      · apply hregistered
      · apply huncalled
  | suspend before ready =>
      rw [huncalled (by rw [before]; rfl)] at hregistered
      constructor
      · apply helected
      · apply hraced
      · intro i hi
        apply absurd i.isLt (Nat.not_lt.mpr hi)
      · apply hregistered
      · simp [Body.early]
  | pass before | resume before | leave before =>
      constructor
      · apply helected
      · apply hraced
      · intro i hi
        apply absurd i.isLt (Nat.not_lt.mpr hi)
      · apply hregistered
      · simp [State.goes, Body.early]

/-- Every step preserves `Valid`. -/
theorem Valid.step {ov : Overload} {outcomes : Fin n → Except E V} {s t : State V E n}
    {a : Label n} (hs : Valid s) (h : step ov outcomes s a = some t) :
  Valid t
  := by
  cases a with
  | body => apply hs.bodyStep h
  | wrapper i => apply hs.wrapperStep h
  | suspend =>
      obtain ⟨helected, hraced, hunmade, hregistered, huncalled⟩ := hs
      have hlate : s.suspend ≠ .uncalled → s.body.early = false := by
        intro hne
        cases he : s.body.early with
        | false => rfl
        | true => apply absurd (huncalled he) hne
      cases hst : s.suspend with
      | uncalled | returned => simp [WhenAny.step, suspendStep, hst] at h
      | entered =>
          simp only [WhenAny.step, suspendStep, hst, Option.some.injEq] at h
          subst h
          exact ⟨helected, hraced, hunmade, rfl, by simp [hlate, hst]⟩
      | stored =>
          simp only [WhenAny.step, suspendStep, hst, Option.some.injEq] at h
          subst h
          rw [hst] at hregistered
          constructor
          · apply helected
          · apply hraced
          · apply hunmade
          · cases hc : s.completed <;>
              simp [State.suspends, hc, hregistered, Suspend.registered]
          · simp [State.suspends, hlate, hst]
      | dispatching =>
          simp only [WhenAny.step, suspendStep, hst, Option.some.injEq] at h
          subst h
          rw [hst] at hregistered
          exact ⟨helected, hraced, hunmade, hregistered, by simp [hlate, hst]⟩
  | resume =>
      simp only [WhenAny.step, Option.ite_none_right_eq_some, Option.some.injEq] at h
      obtain ⟨-, rfl⟩ := h
      obtain ⟨helected, hraced, hunmade, hregistered, huncalled⟩ := hs
      constructor
      · apply helected
      · apply hraced
      · intro i hi
        apply absurd i.isLt (Nat.not_lt.mpr hi)
      · apply hregistered
      · simp [Body.early]

/-- Every state that a run reaches from the start of the coroutine is valid. -/
theorem Valid.run {ov : Overload} {outcomes : Fin n → Except E V} {t : State V E n}
    {P : State V E n → Label n → State V E n → Prop} {as : List (Label n)}
    (h : Run (WhenAny.step ov outcomes) P (WhenAny.initial V E n) as t) :
  Valid t
  := by
  apply h.invariant Valid _ Valid.initial
  intro s a u hs _ e
  apply hs.step e

end WhenAny

end Koroutine
