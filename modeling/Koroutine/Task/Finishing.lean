import Koroutine.Transition.Run
import Mathlib.Data.Nat.Notation

/-!
# How a task finishes

A task that returns stores its result, `final_suspend` copies `detached_` and `continuation_` into a
`FinalAwaiter`, and what is then done depends on the copy: the coroutine of a detached task runs off
its end, which destroys its frame, and that of any other is left suspended, and resumes the
continuation. The coroutine that awaits the task asks whether it is done, and otherwise sets the
continuation and starts it, if it has not been started.  `spawn` starts a task and then detaches it.
Nothing orders these steps and those of the task, which run on different threads.  The task has no
cancellation token.

`served_iff_registers` and `freed_iff_detaches` say that what is written to the promise is heeded
exactly if it is written before `final_suspend` makes its copy.

The coroutine that awaits a task destroys its frame when it goes on.  A thread that is then still in
`start` or in `await_suspend` of the `FinalAwaiter` has the values read that the frame had.
-/

open Transition

namespace Koroutine

namespace Finishing

variable {V E : Type}

/-- What the steps below use of a promise.  `continuation` says whether `continuation_` is the
coroutine that awaits the task, or null. -/
structure Promise (V E : Type) where
  result : Option (Except E V)
  started : Bool
  detached : Bool
  continuation : Bool

/-- The copies `final_suspend` makes. -/
structure FinalAwaiter where
  detached : Bool
  continuation : Bool

/-- Where the task's coroutine is. -/
inductive Stage
  /-- At `initial_suspend`. -/
  | initial
  /-- On the scheduler. -/
  | queued
  | running
  /-- In a `co_await`. -/
  | suspended
  /-- Its result is stored. -/
  | returned
  /-- `final_suspend` has returned. -/
  | copied (f : FinalAwaiter)
  /-- Suspended at the final point, with `await_suspend` still to run. -/
  | final (f : FinalAwaiter)
  /-- Suspended at the final point. -/
  | parked
  /-- Run off its end. -/
  | gone

/-- What the owner of the `Task` is doing.  It goes on from a `co_await` having been suspended or
not. -/
inductive Owner (V E : Type)
  | holding
  /-- Found that the task is not done. -/
  | checked
  | suspended
  /-- On the scheduler. -/
  | scheduled
  | resuming (waited : Bool)
  | obtained (waited : Bool) (r : Except E V)
  /-- Past the `co_await`. -/
  | left (waited : Bool) (r : Except E V)
  /-- In `spawn`, which has called `start`. -/
  | spawned
  /-- In `detach`, with the handle still to clear. -/
  | detached
  | released

/-- The task, its owner, whether a thread is in `after_suspend`, with `start` still to call, how
often the awaiting coroutine has been scheduled, and the task's frame destroyed. -/
structure State (V E : Type) where
  stage : Stage
  promise : Promise V E
  owner : Owner V E
  restarting : Bool
  scheduled : ℕ
  destroyed : ℕ

/-- The steps of the owner, from `start` to `release`, and those of the task.  When its coroutine is
resumed it suspends in a `co_await`, or returns or throws, and when it resumes the continuation its
scheduler may have expired. -/
inductive Label (V E : Type)
  | start
  | ready
  | setContinuation
  | restart
  | take
  | getResult
  | leave
  | spawn
  | setDetached
  | release
  | resume
  | suspend
  | wake
  | complete (r : Except E V)
  | finalSuspend
  | finalReady
  | finalResume (expired : Bool)

/-- A task that has been created. -/
def initial : State V E where
  stage := .initial
  promise := ⟨none, false, false, false⟩
  owner := .holding
  restarting := false
  scheduled := 0
  destroyed := 0

namespace State

/-- `handle_.done()` -/
def done (s : State V E) : Bool :=
  match s.stage with
  | .final _ | .parked => true
  | _ => false

/-- `TaskBase::start` -/
def start (s : State V E) : State V E :=
  if s.promise.started then s
  else { s with stage := .queued, promise := { s.promise with started := true } }

/-- `FinalAwaiter::await_suspend` -/
def finalResume (s : State V E) (f : FinalAwaiter) (expired : Bool) : State V E :=
  if f.continuation then
    { s with owner := if expired then .resuming true else .scheduled, scheduled := s.scheduled + 1 }
  else s

end State

/-- The next step of the owner. -/
def ownerStep (s : State V E) : Label V E → Option (State V E)
  | .start =>
      match s.owner with
      | .holding => some s.start
      | _ => none
  -- `TaskAwaiter::await_ready`
  | .ready =>
      match s.owner with
      | .holding => some { s with owner := if s.done then .resuming false else .checked }
      | _ => none
  -- `TaskAwaiter::after_suspend`
  | .setContinuation =>
      match s.owner with
      | .checked =>
          some { s with
            owner := .suspended, restarting := true, promise := { s.promise with continuation := true } }
      | _ => none
  | .restart => if s.restarting then some { s.start with restarting := false } else none
  | .take =>
      match s.owner with
      | .scheduled => some { s with owner := .resuming true }
      | _ => none
  -- `get_result`, which waits for a result
  | .getResult =>
      match s.owner, s.promise.result with
      | .resuming waited, some r => some { s with owner := .obtained waited r }
      | _, _ => none
  -- `~TaskAwaiter`
  | .leave =>
      match s.owner with
      | .obtained waited r => some { s with owner := .left waited r, destroyed := s.destroyed + 1 }
      | _ => none
  | .spawn =>
      match s.owner with
      | .holding => some { s.start with owner := .spawned }
      | _ => none
  | .setDetached =>
      match s.owner with
      | .spawned => some { s with owner := .detached, promise := { s.promise with detached := true } }
      | _ => none
  | .release =>
      match s.owner with
      | .detached => some { s with owner := .released }
      | _ => none
  | _ => none

/-- The next step of the task. -/
def taskStep (s : State V E) : Label V E → Option (State V E)
  | .resume =>
      match s.stage with
      | .queued => some { s with stage := .running }
      | _ => none
  | .suspend =>
      match s.stage with
      | .running => some { s with stage := .suspended }
      | _ => none
  | .wake =>
      match s.stage with
      | .suspended => some { s with stage := .queued }
      | _ => none
  -- `return_value`, `return_void` and `unhandled_exception`
  | .complete r =>
      match s.stage with
      | .running => some { s with stage := .returned, promise := { s.promise with result := some r } }
      | _ => none
  | .finalSuspend =>
      match s.stage with
      | .returned => some { s with stage := .copied ⟨s.promise.detached, s.promise.continuation⟩ }
      | _ => none
  -- `FinalAwaiter::await_ready`
  | .finalReady =>
      match s.stage with
      | .copied f =>
          if f.detached then some { s with stage := .gone, destroyed := s.destroyed + 1 }
          else some { s with stage := .final f }
      | _ => none
  | .finalResume expired =>
      match s.stage with
      | .final f => some { s.finalResume f expired with stage := .parked }
      | _ => none
  | _ => none

/-- The step function. -/
def step (s : State V E) (a : Label V E) : Option (State V E) := (ownerStep s a).or (taskStep s a)

/-! ### What holds of every state -/

namespace Owner

/-- The owner awaits the task. -/
@[simp] def awaits : Owner V E → Bool
  | .holding | .spawned | .detached | .released => false
  | _ => true

/-- The owner has given the task to `spawn`. -/
@[simp] def spawns : Owner V E → Bool
  | .spawned | .detached | .released => true
  | _ => false

/-- The owner is the continuation of the task. -/
@[simp] def registered : Owner V E → Bool
  | .suspended | .scheduled => true
  | .resuming waited | .obtained waited _ | .left waited _ => waited
  | _ => false

/-- The owner goes on from the `co_await`, having been suspended or not. -/
@[simp] def goesOn : Owner V E → Option Bool
  | .resuming waited | .obtained waited _ | .left waited _ => some waited
  | _ => none

/-- The owner has been scheduled. -/
@[simp] def resumed : Owner V E → Bool
  | .scheduled => true
  | .resuming waited | .obtained waited _ | .left waited _ => waited
  | _ => false

/-- The outcome of the `co_await`. -/
@[simp] def outcome : Owner V E → Option (Except E V)
  | .obtained _ r | .left _ r => some r
  | _ => none

/-- The owner has detached the task. -/
@[simp] def hasDetached : Owner V E → Bool
  | .detached | .released => true
  | _ => false

/-- How often the owner has destroyed the frame. -/
@[simp] def destroys : Owner V E → ℕ
  | .left _ _ => 1
  | _ => 0

end Owner

namespace Stage

/-- The task has a result. -/
def finished : Stage → Bool
  | .initial | .queued | .running | .suspended => false
  | _ => true

/-- `final_suspend` has made its copies. -/
def hasCopied : Stage → Bool
  | .copied _ | .final _ | .parked | .gone => true
  | _ => false

/-- The copies that are still to be used. -/
def copy : Stage → Option FinalAwaiter
  | .copied f | .final f => some f
  | _ => none

/-- How often the coroutine has destroyed its frame. -/
def destroys : Stage → ℕ
  | .gone => 1
  | _ => 0

end Stage

/-- How the promise, the copies and the owner fit where the task is. -/
structure Consistent (s : State V E) : Prop where
  result : s.promise.result.isSome = s.stage.finished
  started : s.promise.started = true ↔ s.stage ≠ .initial
  spawns : s.owner.spawns = true → s.promise.started = true
  registered : s.owner.registered = true → s.promise.started = true ∨ s.restarting = true
  detached : s.promise.detached = s.owner.hasDetached
  continuation : s.promise.continuation = s.owner.registered
  detached_copy : ∀ f, s.stage.copy = some f → f.detached = true → s.promise.detached = true
  continuation_copy : ∀ f, s.stage.copy = some f → f.continuation = true → s.owner = .suspended
  gone : s.stage = .gone → s.promise.detached = true
  goesOn : ∀ w, s.owner.goesOn = some w → s.stage.finished = true
  resumed : s.owner.resumed = true → s.stage = .parked
  scheduled : s.scheduled = s.owner.resumed.toNat
  outcome : ∀ r, s.owner.outcome = some r → s.promise.result = some r
  destroyed : s.destroyed = s.stage.destroys + s.owner.destroys

theorem Consistent.initial :
  Consistent (initial : State V E)
  := by
  constructor <;> simp [Finishing.initial, Stage.finished, Stage.copy, Stage.destroys]

variable {s t : State V E} {a : Label V E}

theorem Owner.eq_suspended {owner : Owner V E} (h : owner.registered = true)
    (h' : owner.resumed = false) :
  owner = .suspended
  := by
  cases owner <;> simp_all

theorem finished_of_done (h : s.done = true) :
  s.stage.finished = true
  := by
  unfold State.done at h
  unfold Stage.finished
  cases hstage : s.stage <;> simp_all

@[simp]
theorem start_owner :
  s.start.owner = s.owner
  := by
  unfold State.start
  split <;> rfl

@[simp]
theorem start_started :
  s.start.promise.started = true
  := by
  unfold State.start
  split
  next hstarted => apply hstarted
  · rfl

theorem Consistent.start (hs : Consistent s) :
  Consistent s.start
  := by
  unfold State.start
  split
  · apply hs
  next hnot =>
    have hinitial : s.stage = .initial := by
      by_contra hne
      apply hnot (hs.started.mpr hne)
    have hgoesOn := hs.goesOn
    have hresumed := hs.resumed
    exact { hs with
      result := by rw [hs.result, hinitial]; rfl
      started := by simp
      spawns := by simp
      registered := by simp
      detached_copy := by simp [Stage.copy]
      continuation_copy := by simp [Stage.copy]
      gone := by simp
      goesOn := by
        intro w hw
        have hfinished := hs.goesOn w hw
        simp [hinitial, Stage.finished] at hfinished
      resumed := by
        intro h
        have hparked := hs.resumed h
        simp [hinitial] at hparked
      destroyed := by rw [hs.destroyed, hinitial]; rfl }

/-- The owner goes on, and leaves the task where it is. -/
theorem Consistent.own (hs : Consistent s) (hstage : t.stage = s.stage)
    (hresult : t.promise.result = s.promise.result) (hstarted : t.promise.started = s.promise.started)
    (hsuspended : s.owner ≠ .suspended) (hspawns : t.owner.spawns = true → s.promise.started = true)
    (hregistered : t.owner.registered = true → s.promise.started = true ∨ t.restarting = true)
    (hdetached : t.promise.detached = t.owner.hasDetached)
    (hkept : s.promise.detached = true → t.promise.detached = true)
    (hcontinuation : t.promise.continuation = t.owner.registered)
    (hgoesOn : ∀ w, t.owner.goesOn = some w → s.stage.finished = true)
    (hresumed : t.owner.resumed = s.owner.resumed) (hscheduled : t.scheduled = s.scheduled)
    (houtcome : ∀ r, t.owner.outcome = some r → s.promise.result = some r)
    (hdestroyed : t.destroyed + s.owner.destroys = s.destroyed + t.owner.destroys) :
  Consistent t
  where
  result := by rw [hresult, hstage, hs.result]
  started := by rw [hstarted, hstage, hs.started]
  spawns := by
    rw [hstarted]
    apply hspawns
  registered := by
    rw [hstarted]
    apply hregistered
  detached := hdetached
  continuation := hcontinuation
  detached_copy := by
    rw [hstage]
    intro f hf hcopied
    apply hkept (hs.detached_copy f hf hcopied)
  continuation_copy := by
    rw [hstage]
    intro f hf hcopied
    have howner := hs.continuation_copy f hf hcopied
    contradiction
  gone := by
    rw [hstage]
    intro hgone
    apply hkept (hs.gone hgone)
  goesOn := by
    rw [hstage]
    apply hgoesOn
  resumed := by
    rw [hresumed, hstage]
    apply hs.resumed
  scheduled := by rw [hscheduled, hresumed, hs.scheduled]
  outcome := by
    rw [hresult]
    apply houtcome
  destroyed := by
    have hbefore := hs.destroyed
    rw [hstage]
    omega

/-- The task goes on, and leaves its promise and its owner as they are. -/
theorem Consistent.goTo {stage : Stage} (hs : Consistent s) (hstarted : s.stage ≠ .initial)
    (hstage : stage ≠ .initial) (hfinished : stage.finished = s.stage.finished)
    (hparked : s.stage ≠ .parked) (hcopy : ∀ f, stage.copy = some f →
      (f.detached = true → s.promise.detached = true) ∧ (f.continuation = true → s.owner = .suspended))
    (hgone : stage ≠ .gone) (hdestroys : stage.destroys = s.stage.destroys) :
  Consistent { s with stage := stage }
  := { hs with
    result := by rw [hfinished, hs.result]
    started := by simp [hstage, hs.started.mpr hstarted]
    detached_copy := fun f hf => (hcopy f hf).1
    continuation_copy := fun f hf => (hcopy f hf).2
    gone := fun heq => absurd heq hgone
    goesOn := by
      rw [hfinished]
      apply hs.goesOn
    resumed := by
      intro hresumed
      have hlast := hs.resumed hresumed
      contradiction
    destroyed := by rw [hdestroys, hs.destroyed] }

theorem Consistent.ownerStep (hs : Consistent s) (h : ownerStep s a = some t) :
  Consistent t
  := by
  have hdetached := hs.detached
  have hcontinuation := hs.continuation
  have hspawns := hs.spawns
  have hregistered := hs.registered
  have hgoesOn := hs.goesOn
  have houtcome := hs.outcome
  cases a with
  | start =>
      simp only [Finishing.ownerStep] at h
      split at h
      · cases h
        apply hs.start
      · contradiction
  | restart =>
      simp only [Finishing.ownerStep, Option.ite_none_right_eq_some, Option.some.injEq] at h
      obtain ⟨hrestarting, rfl⟩ := h
      exact { hs.start with registered := fun _ => .inl start_started }
  | spawn =>
      simp only [Finishing.ownerStep] at h
      split at h
      next howner =>
        cases h
        have hstart := hs.start
        apply hstart.own <;> simp_all [hstart.detached, hstart.continuation]
      · contradiction
  | ready =>
      simp only [Finishing.ownerStep] at h
      split at h
      next howner =>
        cases h
        cases hdone : s.done with
        | true =>
            have hfinished := finished_of_done hdone
            apply hs.own <;> simp_all
        | false => apply hs.own <;> simp_all
      · contradiction
  | take =>
      simp only [Finishing.ownerStep] at h
      split at h
      next howner =>
        cases h
        have hparked := hs.resumed (by rw [howner]; rfl)
        apply hs.own <;> simp_all [Stage.finished]
      · contradiction
  | setContinuation | getResult | leave | setDetached | release =>
      simp only [Finishing.ownerStep] at h
      split at h
      · cases h
        apply hs.own <;> simp_all
      · contradiction
  | _ => simp [Finishing.ownerStep] at h

/-- The result is stored. -/
theorem Consistent.complete {r : Except E V} (hs : Consistent s) (hstage : s.stage = .running) :
  Consistent { s with stage := .returned, promise := { s.promise with result := some r } }
  := { hs with
    result := rfl
    started := by simp [hs.started.mpr, hstage]
    detached_copy := by simp [Stage.copy]
    continuation_copy := by simp [Stage.copy]
    gone := by simp
    goesOn := fun _ _ => rfl
    resumed := by
      intro hresumed
      have hparked := hs.resumed hresumed
      simp [hstage] at hparked
    outcome := by
      intro r' hr
      have hresult := hs.result
      rw [hs.outcome r' hr, hstage] at hresult
      contradiction
    destroyed := by rw [hs.destroyed, hstage]; rfl }

/-- The coroutine runs off its end. -/
theorem Consistent.vanish {f : FinalAwaiter} (hs : Consistent s) (hstage : s.stage = .copied f)
    (hcopied : f.detached = true) :
  Consistent { s with stage := .gone, destroyed := s.destroyed + 1 }
  := by
  have hdetached := hs.detached_copy f (by rw [hstage]; rfl) hcopied
  have howner : s.owner.hasDetached = true := by rw [← hs.detached, hdetached]
  have hresumed : s.owner.resumed = false := by cases howner' : s.owner <;> simp_all
  have hdestroyed := hs.destroyed
  rw [hstage] at hdestroyed
  exact { hs with
    result := by rw [hs.result, hstage]; rfl
    started := by simp [hs.started.mpr, hstage]
    detached_copy := by simp [Stage.copy]
    continuation_copy := by simp [Stage.copy]
    gone := fun _ => hdetached
    goesOn := fun _ _ => rfl
    resumed := by
      rw [hresumed]
      simp
    destroyed := by
      simp only [Stage.destroys] at hdestroyed ⊢
      omega }

/-- The continuation, if there is one, is resumed. -/
theorem Consistent.finalResume {f : FinalAwaiter} {expired : Bool} (hs : Consistent s)
    (hstage : s.stage = .final f) :
  Consistent { s.finalResume f expired with stage := .parked }
  := by
  unfold State.finalResume
  split
  next hcopied =>
    have howner := hs.continuation_copy f (by rw [hstage]; rfl) hcopied
    have hdetached := hs.detached
    have hcontinuation := hs.continuation
    have hregistered := hs.registered
    have hscheduled := hs.scheduled
    have hdestroyed := hs.destroyed
    have hstarted := hs.started
    have hresult := hs.result
    constructor <;> simp_all [Stage.finished, Stage.copy, Stage.destroys]
    all_goals cases expired <;> simp_all
  · apply hs.goTo <;> simp [hstage, Stage.finished, Stage.copy, Stage.destroys]

theorem Consistent.taskStep (hs : Consistent s) (h : taskStep s a = some t) :
  Consistent t
  := by
  cases a with
  | resume | suspend | wake =>
      simp only [Finishing.taskStep] at h
      split at h
      next hstage =>
        cases h
        apply hs.goTo <;> simp [hstage, Stage.finished, Stage.copy, Stage.destroys]
      · contradiction
  | complete r =>
      simp only [Finishing.taskStep] at h
      split at h
      next hstage =>
        cases h
        apply hs.complete hstage
      · contradiction
  | finalSuspend =>
      simp only [Finishing.taskStep] at h
      split at h
      next hstage =>
        cases h
        have hsuspended : s.promise.continuation = true → s.owner = .suspended := by
          intro hcontinuation
          rw [hs.continuation] at hcontinuation
          apply Owner.eq_suspended hcontinuation
          by_contra hresumed
          have hparked := hs.resumed (by simpa using hresumed)
          simp [hstage] at hparked
        apply hs.goTo <;> simp [hstage, Stage.finished, Stage.copy, Stage.destroys]
        apply hsuspended
      · contradiction
  | finalReady =>
      simp only [Finishing.taskStep] at h
      split at h
      next f hstage =>
        split at h
        next hcopied =>
          cases h
          apply hs.vanish hstage hcopied
        next hcopied =>
          cases h
          apply hs.goTo <;> simp [hstage, Stage.finished, Stage.copy, Stage.destroys, hcopied]
          intro hcontinuation
          apply hs.continuation_copy f _ hcontinuation
          rw [hstage]
          rfl
      · contradiction
  | finalResume expired =>
      simp only [Finishing.taskStep] at h
      split at h
      next f hstage =>
        cases h
        apply hs.finalResume hstage
      · contradiction
  | _ => simp [Finishing.taskStep] at h

theorem Consistent.step (hs : Consistent s) (h : step s a = some t) :
  Consistent t
  := by
  unfold Finishing.step at h
  obtain howner | ⟨-, htask⟩ := Option.or_eq_some_iff.mp h
  · apply hs.ownerStep howner
  · apply hs.taskStep htask

theorem consistent_of_run {as : List (Label V E)} (h : Run step Free initial as s) :
  Consistent s
  := by
  apply h.invariant Consistent
  · intro s a t hs _ e
    apply hs.step e
  · apply Consistent.initial

/-! ### What a step does with what is copied -/

/-- The steps by what they do with the flags of the promise and with their copies. -/
inductive Effect (s : State V E) (a : Label V E) (t : State V E) : Prop
  | own (stage : t.stage = s.stage ∨ s.stage = .initial ∧ t.stage = .queued)
      (continuation : t.promise.continuation = true ↔
        s.promise.continuation = true ∨ a = .setContinuation)
      (detached : t.promise.detached = true ↔ s.promise.detached = true ∨ a = .setDetached)
      (resumed : t.owner.resumed = s.owner.resumed)
  | run (before : s.stage.hasCopied = false) (after : t.stage.hasCopied = false)
      (continuation : t.promise.continuation = s.promise.continuation)
      (detached : t.promise.detached = s.promise.detached) (owner : t.owner = s.owner)
  | copied (before : s.stage = .returned)
      (after : t = { s with stage := .copied ⟨s.promise.detached, s.promise.continuation⟩ })
  | gone (f : FinalAwaiter) (before : s.stage = .copied f) (detached : f.detached = true)
      (after : t = { s with stage := .gone, destroyed := s.destroyed + 1 })
  | final (f : FinalAwaiter) (before : s.stage = .copied f) (detached : f.detached = false)
      (after : t = { s with stage := .final f })
  | resumed (f : FinalAwaiter) (before : s.stage = .final f) (continuation : f.continuation = true)
      (after : t.stage = .parked) (promise : t.promise = s.promise) (owner : t.owner.resumed = true)
  | parked (f : FinalAwaiter) (before : s.stage = .final f) (continuation : f.continuation = false)
      (after : t = { s with stage := .parked })

theorem start_stage (hs : Consistent s) :
  s.start.stage = s.stage ∨ s.stage = .initial ∧ s.start.stage = .queued
  := by
  unfold State.start
  split
  · exact .inl rfl
  next hnot =>
    right
    constructor
    · by_contra hne
      apply hnot (hs.started.mpr hne)
    · rfl

@[simp]
theorem start_continuation :
  s.start.promise.continuation = s.promise.continuation
  := by
  unfold State.start
  split <;> rfl

@[simp]
theorem start_detached :
  s.start.promise.detached = s.promise.detached
  := by
  unfold State.start
  split <;> rfl

theorem ownerStep_effect (hs : Consistent s) (h : ownerStep s a = some t) :
  Effect s a t
  := by
  cases a with
  | start | spawn =>
      simp only [ownerStep] at h
      split at h
      next howner =>
        cases h
        refine .own (start_stage hs) ?_ ?_ ?_ <;> simp [howner]
      · contradiction
  | restart =>
      simp only [ownerStep, Option.ite_none_right_eq_some, Option.some.injEq] at h
      obtain ⟨-, rfl⟩ := h
      refine .own (start_stage hs) ?_ ?_ ?_ <;> simp
  | ready =>
      simp only [ownerStep] at h
      split at h
      next howner =>
        cases h
        refine .own (.inl rfl) ?_ ?_ ?_ <;> simp [howner]
        cases s.done <;> rfl
      · contradiction
  | setContinuation | take | leave | setDetached | release =>
      simp only [ownerStep] at h
      split at h
      next howner =>
        cases h
        refine .own (.inl rfl) ?_ ?_ ?_ <;> simp [howner]
      · contradiction
  | getResult =>
      simp only [ownerStep] at h
      split at h
      next howner hresult =>
        cases h
        refine .own (.inl rfl) ?_ ?_ ?_ <;> simp [howner]
      · contradiction
  | _ => simp [ownerStep] at h

theorem taskStep_effect (h : taskStep s a = some t) :
  Effect s a t
  := by
  cases a with
  | resume | suspend | wake | complete r =>
      simp only [taskStep] at h
      split at h
      next hstage =>
        cases h
        apply Effect.run <;> simp [hstage, Stage.hasCopied]
      · contradiction
  | finalSuspend =>
      simp only [taskStep] at h
      split at h
      next hstage =>
        cases h
        exact .copied hstage rfl
      · contradiction
  | finalReady =>
      simp only [taskStep] at h
      split at h
      next f hstage =>
        split at h
        next hdetached =>
          cases h
          exact .gone f hstage hdetached rfl
        next hnot =>
          cases h
          exact .final f hstage (by simpa using hnot) rfl
      · contradiction
  | finalResume expired =>
      simp only [taskStep] at h
      split at h
      next f hstage =>
        cases h
        cases hcontinuation : f.continuation with
        | true =>
            apply Effect.resumed f hstage hcontinuation <;> simp [State.finalResume, hcontinuation]
            cases expired <;> rfl
        | false =>
            apply Effect.parked f hstage hcontinuation
            simp [State.finalResume, hcontinuation]
      · contradiction
  | _ => simp [taskStep] at h

theorem step_effect (hs : Consistent s) (h : step s a = some t) :
  Effect s a t
  := by
  unfold step at h
  obtain howner | ⟨-, htask⟩ := Option.or_eq_some_iff.mp h
  · apply ownerStep_effect hs howner
  · apply taskStep_effect htask

/-! ### The coroutine that awaits the task -/

/-- The continuation is set before `final_suspend` copies it. -/
def Registers (s : State V E) : Label V E → Prop
  | .setContinuation => s.stage.hasCopied = false
  | _ => True

/-- The continuation will be resumed, or has been. -/
def Heeded (s : State V E) : Prop :=
  s.promise.continuation = true →
    (∀ f, s.stage.copy = some f → f.continuation = true) ∧ (s.stage = .parked → s.owner.resumed = true)

/-- The continuation has come too late. -/
def Missed (s : State V E) : Prop :=
  s.promise.continuation = true ∧ s.stage.hasCopied = true ∧
    (∀ f, s.stage.copy = some f → f.continuation = false) ∧ s.owner.resumed = false

theorem Heeded.step (hs : Consistent s) (hheeded : Heeded s) (ha : Registers s a)
    (h : step s a = some t) :
  Heeded t
  := by
  intro hcontinuation
  cases step_effect hs h with
  | own stage continuation _ resumed =>
      rw [resumed]
      obtain hbefore | rfl := continuation.mp hcontinuation
      · obtain hstage | ⟨-, hstage⟩ := stage
        · rw [hstage]
          apply hheeded hbefore
        · simp [hstage, Stage.copy]
      · simp only [Registers] at ha
        obtain hstage | ⟨-, hstage⟩ := stage
        · cases hstage' : s.stage <;> simp_all [Stage.hasCopied, Stage.copy]
        · simp [hstage, Stage.copy]
  | run _ after => cases hstage : t.stage <;> simp_all [Stage.hasCopied, Stage.copy]
  | copied _ after =>
      subst after
      simpa [Stage.copy] using hcontinuation
  | gone _ _ _ after =>
      subst after
      simp [Stage.copy]
  | final f before _ after =>
      subst after
      have hf := (hheeded hcontinuation).1 f (by rw [before]; rfl)
      simpa [Stage.copy] using hf
  | resumed f _ _ after _ owner =>
      constructor
      · simp [after, Stage.copy]
      · exact fun _ => owner
  | parked f before continuation after =>
      subst after
      have hf := (hheeded hcontinuation).1 f (by rw [before]; rfl)
      simp [hf] at continuation

theorem Missed.step (hs : Consistent s) (hmissed : Missed s) (h : step s a = some t) :
  Missed t
  := by
  obtain ⟨hcontinuation, hcopied, hcopy, hresumed⟩ := hmissed
  cases step_effect hs h with
  | own stage continuation _ resumed =>
      obtain hstage | ⟨hinitial, -⟩ := stage
      · refine ⟨continuation.mpr (.inl hcontinuation), ?_, ?_, ?_⟩
        · rw [hstage, hcopied]
        · rw [hstage]
          apply hcopy
        · rw [resumed, hresumed]
      · simp [hinitial, Stage.hasCopied] at hcopied
  | run before => simp [before] at hcopied
  | copied before => simp [before, Stage.hasCopied] at hcopied
  | gone f _ _ after =>
      subst after
      exact ⟨hcontinuation, rfl, by simp [Stage.copy], hresumed⟩
  | final f before _ after =>
      subst after
      have hf := hcopy f (by rw [before]; rfl)
      exact ⟨hcontinuation, rfl, by simpa [Stage.copy] using hf, hresumed⟩
  | resumed f before continuation =>
      have hf := hcopy f (by rw [before]; rfl)
      simp [hf] at continuation
  | parked f _ _ after =>
      subst after
      exact ⟨hcontinuation, rfl, by simp [Stage.copy], hresumed⟩

theorem missed_of_late (hs : Consistent s) (ha : ¬ Registers s a) (h : step s a = some t) :
  Missed t
  := by
  cases a with
  | setContinuation =>
      have hcopied : s.stage.hasCopied = true := by simpa [Registers] using ha
      have hcopy : ∀ f, s.stage.copy = some f → f.continuation = false := by
        intro f hf
        by_contra hset
        have howner := hs.continuation_copy f hf (by simpa using hset)
        simp [Finishing.step, ownerStep, taskStep, howner] at h
      simp only [Finishing.step, ownerStep, taskStep, Option.or_none] at h
      split at h
      · cases h
        exact ⟨rfl, hcopied, hcopy, rfl⟩
      · contradiction
  | _ => simp [Registers] at ha

/-- No step is possible. -/
def Settled (s : State V E) : Prop := ∀ a, step s a = none

/-- A task with nothing more to do has come to its end. -/
theorem Settled.ended (hs : Consistent s) (h : Settled s) :
  s.stage = .parked ∨ s.stage = .gone
  := by
  have hresume := h .resume
  have hsuspend := h .suspend
  have hwake := h .wake
  have hsuspended := h .finalSuspend
  have hready := h .finalReady
  have hresumed := h (.finalResume false)
  cases hstage : s.stage with
  | parked => exact .inl rfl
  | gone => exact .inr rfl
  | initial =>
      have hnot : s.promise.started = false := by
        by_contra hstarted
        apply hs.started.mp (by simpa using hstarted) hstage
      have hstart := h .start
      have hset := h .setContinuation
      have hrestart := h .restart
      have hregistered := hs.registered
      have hspawns := hs.spawns
      have hgoesOn := hs.goesOn
      have hparked := hs.resumed
      cases howner : s.owner <;>
        simp_all [Finishing.step, ownerStep, taskStep, Stage.finished]
  | queued => simp [Finishing.step, ownerStep, taskStep, hstage] at hresume
  | running => simp [Finishing.step, ownerStep, taskStep, hstage] at hsuspend
  | suspended => simp [Finishing.step, ownerStep, taskStep, hstage] at hwake
  | returned => simp [Finishing.step, ownerStep, taskStep, hstage] at hsuspended
  | copied f =>
      simp only [Finishing.step, ownerStep, taskStep, hstage, Option.none_or] at hready
      split at hready <;> contradiction
  | final f => simp [Finishing.step, ownerStep, taskStep, hstage] at hresumed

/-- What a coroutine that awaits a task can rely on. -/
structure Served (s : State V E) : Prop where
  /-- It is scheduled at most once, when the task has a result, -/
  once : s.scheduled ≤ 1
  after : s.scheduled = 1 → s.promise.result.isSome
  /-- and going on from the `co_await` it has been scheduled if it was suspended, and the task has a
  result, -/
  goesOn : ∀ w, s.owner.goesOn = some w → s.scheduled = w.toNat ∧ s.promise.result.isSome
  /-- which it obtains. -/
  outcome : ∀ r, s.owner.outcome = some r → s.promise.result = some r
  /-- It is not left suspended by a task that is parked at its final point. -/
  resumed : s.stage = .parked → s.owner ≠ .suspended

theorem Consistent.served (hs : Consistent s) (hheeded : Heeded s) :
  Served s
  where
  once := by
    rw [hs.scheduled]
    apply Bool.toNat_le
  after := by
    intro hone
    have hresumed : s.owner.resumed = true := by
      rw [hs.scheduled] at hone
      cases h : s.owner.resumed <;> simp_all
    rw [hs.result, hs.resumed hresumed]
    rfl
  goesOn := by
    intro w hw
    constructor
    · rw [hs.scheduled]
      cases howner : s.owner <;> simp_all
    · rw [hs.result, hs.goesOn w hw]
  outcome := hs.outcome
  resumed := by
    intro hparked howner
    have hcontinuation : s.promise.continuation = true := by rw [hs.continuation, howner]; rfl
    have hresumed := (hheeded hcontinuation).2 hparked
    rw [howner] at hresumed
    contradiction

theorem heeded_or_missed {as : List (Label V E)} (h : Run step Free initial as s) :
  (Run step (Meets Registers) initial as s ∧ Consistent s ∧ Heeded s) ∨ (Consistent s ∧ Missed s)
  := by
  apply h.meets_or_spoiled (fun s => Consistent s ∧ Heeded s) (fun s => Consistent s ∧ Missed s)
  · intro s a t ⟨hs, hheeded⟩ ha e
    exact ⟨hs.step e, hheeded.step hs ha e⟩
  · intro s a t ⟨hs, _⟩ ha e
    exact ⟨hs.step e, missed_of_late hs ha e⟩
  · intro s a t ⟨hs, hmissed⟩ e
    exact ⟨hs.step e, hmissed.step hs e⟩
  · refine ⟨Consistent.initial, ?_⟩
    simp [Heeded, Finishing.initial]

theorem heeded_of_meets {as : List (Label V E)}
    (h : Run step (Meets Registers) initial as s) :
  Heeded s
  := by
  have hboth : Consistent s ∧ Heeded s := by
    apply h.invariant fun s => Consistent s ∧ Heeded s
    · intro s a t ⟨hs, hheeded⟩ ha e
      exact ⟨hs.step e, hheeded.step hs ha e⟩
    · refine ⟨Consistent.initial, ?_⟩
      simp [Heeded, Finishing.initial]
  apply hboth.2

/-- A coroutine that awaits a task that has come to its end, and has nothing more to do, has gone
on. -/
theorem Served.left (hs : Consistent s) (hserved : Served s) (h : Settled s)
    (hawaits : s.owner.awaits = true) :
  ∃ w r, s.owner = .left w r ∧ s.promise.result = some r ∧ s.scheduled = w.toNat
  := by
  cases howner : s.owner with
  | holding | spawned | detached | released => simp [howner] at hawaits
  | checked =>
      have hset := h .setContinuation
      simp [Finishing.step, ownerStep, taskStep, howner] at hset
  | suspended =>
      obtain hparked | hgone := h.ended hs
      · have hnot := hserved.resumed hparked
        contradiction
      · have hdetached := hs.gone hgone
        rw [hs.detached, howner] at hdetached
        contradiction
  | scheduled =>
      have htake := h .take
      simp [Finishing.step, ownerStep, taskStep, howner] at htake
  | resuming w =>
      have hresult := (hserved.goesOn w (by rw [howner]; rfl)).2
      obtain ⟨r, hr⟩ := Option.isSome_iff_exists.mp hresult
      have hget := h .getResult
      simp [Finishing.step, ownerStep, taskStep, howner, hr] at hget
  | obtained w r =>
      have hleave := h .leave
      simp [Finishing.step, ownerStep, taskStep, howner] at hleave
  | left w r =>
      have hscheduled := (hserved.goesOn w (by rw [howner]; rfl)).1
      have hresult := hserved.outcome r (by rw [howner]; rfl)
      exact ⟨w, r, rfl, hresult, hscheduled⟩

/-- A coroutine that awaits a task can rely on it where the continuation is set before it is copied,
and when nothing more happens it has gone on with the result, if and only if it was. -/
theorem served_iff_registers {as : List (Label V E)} (h : Run step Free initial as s) :
  (Run step (Meets Registers) initial as s → Served s) ∧
  (Settled s → s.owner.awaits = true →
    ((∃ w r, s.owner = .left w r ∧ s.promise.result = some r ∧ s.scheduled = w.toNat) ↔
      Run step (Meets Registers) initial as s))
  := by
  have hs := consistent_of_run h
  constructor
  · intro hmeets
    apply hs.served (heeded_of_meets hmeets)
  · intro hsettled hawaits
    constructor
    · intro ⟨w, r, howner, _, _⟩
      obtain ⟨hmeets, _⟩ | ⟨_, hcontinuation, _, _, hresumed⟩ := heeded_or_missed h
      · apply hmeets
      · rw [hs.continuation, howner] at hcontinuation
        rw [howner] at hresumed
        simp_all
    · intro hmeets
      apply (hs.served (heeded_of_meets hmeets)).left hs hsettled hawaits

/-- A task that has been started returns when its continuation has been set. -/
theorem served_started :
  ∃ as s, Run step Free (initial : State ℕ Unit) as s ∧ Settled s ∧ s.owner = .left true (.ok 7) ∧
    Run step (Meets Registers) initial as s ∧ Served s
  := by
  obtain ⟨as, s, hs, hsettled, howner, hresult, hscheduled⟩ : ∃ as s,
      Run step Free (initial : State ℕ Unit) as s ∧ Settled s ∧ s.owner = .left true (.ok 7) ∧
      s.promise.result = some (.ok 7) ∧ s.scheduled = 1 := by
    refine ⟨[.start, .resume, .ready, .setContinuation, .complete (.ok 7), .finalSuspend, .restart,
      .finalReady, .finalResume false, .take, .getResult, .leave], _, run_of_exec rfl, ?_, rfl, rfl, rfl⟩
    intro a
    cases a <;> rfl
  have hawaits : s.owner.awaits = true := by rw [howner]; rfl
  obtain ⟨hserved, hiff⟩ := served_iff_registers hs
  have hmeets := (hiff hsettled hawaits).mp ⟨true, .ok 7, howner, hresult, hscheduled⟩
  exact ⟨as, s, hs, hsettled, howner, hmeets, hserved hmeets⟩

/-- A coroutine that sets the continuation of a task that has been started, when `final_suspend` has
made its copies, is left suspended. -/
theorem left_suspended :
  ∃ as s, Run step Free (initial : State ℕ Unit) as s ∧ Settled s ∧ s.owner = .suspended ∧
    s.promise.result = some (.ok 7) ∧ s.scheduled = 0
  := by
  refine ⟨[.start, .resume, .ready, .complete (.ok 7), .finalSuspend, .setContinuation, .restart,
    .finalReady, .finalResume false], _, run_of_exec rfl, ?_, rfl, rfl, rfl⟩
  intro a
  cases a <;> rfl

/-! ### `spawn` -/

/-- The task is detached before `final_suspend` copies the flag. -/
def Detaches (s : State V E) : Label V E → Prop
  | .setDetached => s.stage.hasCopied = false
  | _ => True

/-- A detached task will destroy its frame, or has. -/
def Freeing (s : State V E) : Prop :=
  s.promise.detached = true →
    (∀ f, s.stage = .copied f → f.detached = true) ∧ (∀ f, s.stage ≠ .final f) ∧ s.stage ≠ .parked

/-- The flag has come too late. -/
def Leaked (s : State V E) : Prop :=
  s.promise.detached = true ∧ s.stage.hasCopied = true ∧
    (∀ f, s.stage = .copied f → f.detached = false) ∧ s.stage ≠ .gone

theorem Freeing.step (hs : Consistent s) (hfreeing : Freeing s) (ha : Detaches s a)
    (h : step s a = some t) :
  Freeing t
  := by
  intro hdetached
  cases step_effect hs h with
  | own stage _ detached =>
      obtain hbefore | rfl := detached.mp hdetached
      · obtain hstage | ⟨-, hstage⟩ := stage
        · rw [hstage]
          apply hfreeing hbefore
        · simp [hstage]
      · simp only [Detaches] at ha
        obtain hstage | ⟨-, hstage⟩ := stage
        · cases hstage' : s.stage <;> simp_all [Stage.hasCopied]
        · simp [hstage]
  | run _ after => cases hstage : t.stage <;> simp_all [Stage.hasCopied]
  | copied _ after =>
      subst after
      simpa using hdetached
  | gone _ _ _ after =>
      subst after
      simp
  | final f before detached after =>
      subst after
      have hf := (hfreeing hdetached).1 f before
      simp [hf] at detached
  | resumed f before _ _ promise =>
      rw [promise] at hdetached
      have hnot := (hfreeing hdetached).2.1 f
      contradiction
  | parked f before _ after =>
      subst after
      have hnot := (hfreeing hdetached).2.1 f
      contradiction

theorem Leaked.step (hs : Consistent s) (hleaked : Leaked s) (h : step s a = some t) :
  Leaked t
  := by
  obtain ⟨hdetached, hcopied, hcopy, hgone⟩ := hleaked
  cases step_effect hs h with
  | own stage _ detached =>
      obtain hstage | ⟨hinitial, -⟩ := stage
      · refine ⟨detached.mpr (.inl hdetached), ?_⟩
        rw [hstage]
        exact ⟨hcopied, hcopy, hgone⟩
      · simp [hinitial, Stage.hasCopied] at hcopied
  | run before => simp [before] at hcopied
  | copied before => simp [before, Stage.hasCopied] at hcopied
  | gone f before detached =>
      have hf := hcopy f before
      simp [hf] at detached
  | final f _ _ after =>
      subst after
      exact ⟨hdetached, rfl, by simp, by simp⟩
  | resumed f _ _ after promise =>
      rw [Leaked, promise, after]
      exact ⟨hdetached, rfl, by simp, by simp⟩
  | parked f _ _ after =>
      subst after
      exact ⟨hdetached, rfl, by simp, by simp⟩

theorem leaked_of_late (hs : Consistent s) (ha : ¬ Detaches s a) (h : step s a = some t) :
  Leaked t
  := by
  cases a with
  | setDetached =>
      have hcopied : s.stage.hasCopied = true := by simpa [Detaches] using ha
      simp only [Finishing.step, ownerStep, taskStep, Option.or_none] at h
      split at h
      next howner =>
        cases h
        have hnot : s.promise.detached = false := by rw [hs.detached, howner]; rfl
        refine ⟨rfl, hcopied, ?_, ?_⟩
        · intro f hf
          by_contra hset
          have hdetached := hs.detached_copy f (by rw [hf]; rfl) (by simpa using hset)
          simp [hnot] at hdetached
        · intro hgone
          have hdetached := hs.gone hgone
          simp [hnot] at hdetached
      · contradiction
  | _ => simp [Detaches] at ha

theorem freeing_or_leaked {as : List (Label V E)} (h : Run step Free initial as s) :
  (Run step (Meets Detaches) initial as s ∧ Consistent s ∧ Freeing s) ∨ (Consistent s ∧ Leaked s)
  := by
  apply h.meets_or_spoiled (fun s => Consistent s ∧ Freeing s) (fun s => Consistent s ∧ Leaked s)
  · intro s a t ⟨hs, hfreeing⟩ ha e
    exact ⟨hs.step e, hfreeing.step hs ha e⟩
  · intro s a t ⟨hs, _⟩ ha e
    exact ⟨hs.step e, leaked_of_late hs ha e⟩
  · intro s a t ⟨hs, hleaked⟩ e
    exact ⟨hs.step e, hleaked.step hs e⟩
  · refine ⟨Consistent.initial, ?_⟩
    simp [Freeing, Finishing.initial]

theorem freeing_of_meets {as : List (Label V E)} (h : Run step (Meets Detaches) initial as s) :
  Freeing s
  := by
  have hboth : Consistent s ∧ Freeing s := by
    apply h.invariant fun s => Consistent s ∧ Freeing s
    · intro s a t ⟨hs, hfreeing⟩ ha e
      exact ⟨hs.step e, hfreeing.step hs ha e⟩
    · refine ⟨Consistent.initial, ?_⟩
      simp [Freeing, Finishing.initial]
  apply hboth.2

/-- What holds of the frame of a task given to `spawn`, whatever the order of the steps. -/
structure Sound (s : State V E) : Prop where
  once : s.destroyed ≤ 1
  /-- It is not destroyed before the task has its result, and its coroutine is at its end, -/
  finished : 0 < s.destroyed → s.promise.result.isSome ∧ s.stage = .gone
  /-- or while `detach` has still to write to it. -/
  detach : s.owner = .spawned → s.destroyed = 0

/-- The frame of a task given to `spawn` is destroyed by the coroutine alone. -/
theorem Consistent.destroyed_of_spawns (hs : Consistent s) (hspawns : s.owner.spawns = true) :
  s.destroyed = s.stage.destroys
  := by
  rw [hs.destroyed]
  cases howner : s.owner <;> simp_all

theorem Consistent.sound (hs : Consistent s) (hspawns : s.owner.spawns = true) :
  Sound s
  := by
  have hdestroyed := hs.destroyed_of_spawns hspawns
  constructor
  · rw [hdestroyed]
    cases s.stage <;> simp [Stage.destroys]
  · rw [hdestroyed, hs.result]
    cases s.stage <;> simp [Stage.destroys, Stage.finished]
  · intro howner
    rw [hdestroyed]
    cases hstage : s.stage with
    | gone =>
        have hdetached := hs.gone hstage
        rw [hs.detached, howner] at hdetached
        contradiction
    | _ => rfl

/-- The frame of a task given to `spawn` is destroyed at most once, and not before the task has
finished; it is destroyed where the task is detached before the flag is copied, and when nothing
more happens it has been, if and only if it was. -/
theorem freed_iff_detaches {as : List (Label V E)} (h : Run step Free initial as s)
    (hspawns : s.owner.spawns = true) :
  Sound s ∧
  (Run step (Meets Detaches) initial as s →
    s.stage = .parked ∨ s.stage = .gone → s.owner ≠ .spawned → s.destroyed = 1) ∧
  (Settled s → (s.destroyed = 1 ↔ Run step (Meets Detaches) initial as s))
  := by
  have hs := consistent_of_run h
  have hfreed : Run step (Meets Detaches) initial as s →
      s.stage = .parked ∨ s.stage = .gone → s.owner ≠ .spawned → s.destroyed = 1 := by
    intro hmeets hended hnot
    have hdetached : s.promise.detached = true := by
      rw [hs.detached]
      cases howner : s.owner <;> simp_all
    obtain hparked | hgone := hended
    · have hnever := (freeing_of_meets hmeets hdetached).2.2
      contradiction
    · rw [hs.destroyed_of_spawns hspawns, hgone]
      rfl
  refine ⟨hs.sound hspawns, hfreed, ?_⟩
  intro hsettled
  constructor
  · intro hone
    obtain ⟨hmeets, _⟩ | ⟨_, _, _, _, hnot⟩ := freeing_or_leaked h
    · apply hmeets
    · have hgone := ((hs.sound hspawns).finished (by omega)).2
      contradiction
  · intro hmeets
    apply hfreed hmeets (hsettled.ended hs)
    intro howner
    have hset := hsettled .setDetached
    simp [Finishing.step, ownerStep, taskStep, howner] at hset

/-- A task returns when `spawn` has detached it. -/
theorem freed_in_time :
  ∃ as s, Run step Free (initial : State ℕ Unit) as s ∧ Settled s ∧ s.owner = .released ∧
    s.destroyed = 1 ∧ Sound s ∧ Run step (Meets Detaches) initial as s
  := by
  obtain ⟨as, s, hs, hsettled, howner, hone⟩ : ∃ as s,
      Run step Free (initial : State ℕ Unit) as s ∧ Settled s ∧ s.owner = .released ∧
      s.destroyed = 1 := by
    refine ⟨[.spawn, .resume, .setDetached, .complete (.ok 7), .finalSuspend, .finalReady, .release],
      _, run_of_exec rfl, ?_, rfl, rfl⟩
    intro a
    cases a <;> rfl
  obtain ⟨hsound, _, hiff⟩ := freed_iff_detaches hs (by rw [howner]; rfl)
  exact ⟨as, s, hs, hsettled, howner, hone, hsound, (hiff hsettled).mp hone⟩

/-- A task that `spawn` detaches when `final_suspend` has made its copies keeps its frame. -/
theorem frame_leaked :
  ∃ as s, Run step Free (initial : State ℕ Unit) as s ∧ Settled s ∧ s.owner = .released ∧
    s.promise.result = some (.ok 7) ∧ s.destroyed = 0
  := by
  refine ⟨[.spawn, .resume, .complete (.ok 7), .finalSuspend, .setDetached, .release, .finalReady,
    .finalResume false], _, run_of_exec rfl, ?_, rfl, rfl, rfl⟩
  intro a
  cases a <;> rfl

end Finishing

end Koroutine
