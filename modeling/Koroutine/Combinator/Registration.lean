import Koroutine.Transition.Handshake

/-!
# How the awaiters of `when_all` and `when_any` suspend

Their `await_suspend` stores the handle of the awaiting coroutine in `state->continuation`, looks
once more whether the tasks are completed, and in that case schedules the handle itself.  The
wrapper that completes the tasks reads the continuation later, and schedules it if it is set.

`registration` is the handshake these steps are part of, given by the flag that says whether the
tasks are completed, the number of wrappers between the completion and the reading of the
continuation, the number of wrappers about to schedule it, the stage of `await_suspend`, whether
`await_ready` is still to come, and how often the coroutine has been put on the scheduler.
-/

open Transition Handshake

namespace Koroutine

/-- The stages of `await_suspend`. -/
inductive Suspend
  | uncalled
  | entered
  | stored
  | dispatching
  | returned
  deriving DecidableEq

namespace Suspend

/-- The handle has been stored. -/
def registered : Suspend → Bool
  | .uncalled | .entered => false
  | .stored | .dispatching | .returned => true

/-- The stage of the awaiting side. -/
def awaiter (early : Bool) : Suspend → Awaiter
  | .uncalled => if early then .asking else .passed
  | .entered => .storing
  | .stored => .stored
  | .dispatching => .dispatching
  | .returned => .suspended

@[simp]
theorem awaiter_eq_stored {sus : Suspend} {early : Bool} :
  sus.awaiter early = .stored ↔ sus = .stored
  := by
  cases sus <;> cases early <;> simp [awaiter]

@[simp]
theorem awaiter_registered (sus : Suspend) (early : Bool) :
  (sus.awaiter early).registered = sus.registered
  := by
  cases sus <;> cases early <;> rfl

end Suspend

/-- The completing wrappers, as a finisher, and the suspending coroutine, as an awaiter. -/
def registration (completed : Bool) (deciders dispatchers : ℕ) (sus : Suspend) (early : Bool)
    (dispatched : ℕ) : Handshake where
  finisher := .of completed deciders dispatchers
  awaiter := sus.awaiter early
  dispatched := dispatched

namespace registration

variable {completed early early' : Bool} {d d' c c' k : ℕ} {sus : Suspend}

/-- The tasks are completed, by a wrapper that has yet to read the continuation. -/
theorem complete (hd : 0 < d') :
  (registration false d c sus early k).step .complete = some (registration true d' c' sus early k)
  := by
  have hfinisher : Finisher.of true d' c' = .deciding := by
    rw [Finisher.of_deciding]
    exact ⟨rfl, hd⟩
  simp [Handshake.step, registration, hfinisher]

/-- The completing wrapper reads the continuation. -/
theorem read :
  (registration true 1 0 sus early k).step .read =
    some (registration true 0 (if sus.registered then 1 else 0) sus early k)
  := by
  cases hr : sus.registered <;> simp [Handshake.step, registration, Finisher.of, hr]

/-- The completing wrapper schedules the continuation. -/
theorem dispatch :
  (registration true 0 1 sus early k).step .dispatch =
    some (registration true 0 0 sus early (k + 1))
  := by
  simp [Handshake.step, registration, Finisher.of]

/-- `await_ready` finds the tasks completed. -/
theorem pass :
  (registration true d c .uncalled true k).step .ask =
    some (registration true d c .uncalled false k)
  := by
  simp [Handshake.step, registration, Suspend.awaiter]

/-- `await_ready` does not find the tasks completed. -/
theorem suspend :
  (registration false d c .uncalled true k).step .ask =
    some (registration false d c .entered early' k)
  := by
  simp [Handshake.step, registration, Suspend.awaiter]

/-- `await_suspend` stores the continuation. -/
theorem store :
  (registration completed d c .entered early k).step .store =
    some (registration completed d c .stored early k)
  := rfl

/-- `await_suspend` looks once more whether the tasks are completed. -/
theorem recheck :
  (registration completed d c .stored early k).step .recheck =
    some (registration completed d c (if completed then .dispatching else .returned) early k)
  := by
  cases completed <;> simp [Handshake.step, registration, Suspend.awaiter]

/-- `await_suspend` schedules the continuation. -/
theorem redispatch :
  (registration completed d c .dispatching early k).step .redispatch =
    some (registration completed d c .returned early (k + 1))
  := rfl

theorem apart_complete :
  (registration completed d c sus early k).Apart .complete ↔ sus ≠ .stored
  := by
  simp [Handshake.Apart, registration]

theorem apart_store :
  (registration completed d c sus early k).Apart .store ↔ (completed = true → d = 0)
  := by
  simp [Handshake.Apart, registration, Finisher.of_deciding]

/-- Before `await_ready`, with nobody dealing with the continuation, nothing is scheduled. -/
theorem kept_uncalled :
  (registration completed d 0 .uncalled true 0).Kept
  := by
  apply Kept.of_asking
  · rfl
  · simp only [registration, Finisher.of]
    split
    · simp
    · split <;> simp
  · rfl

theorem settled (completed : Bool) (h : completed = true) :
  (registration completed 0 0 .returned early k).Settled
  := by
  subst h
  constructor <;> rfl

end registration

end Koroutine
