import Koroutine.Transition.Run

/-!
# Waiting on a condition variable

A thread that runs

    lock(mutex); wait(condition, mutex, predicate);

goes through the stages of `Waiter`: it acquires the mutex, evaluates the predicate while it
holds the mutex, and either goes on, still holding the mutex, or commits to blocking, which
releases the mutex and blocks in one step.  A notification moves a blocked thread on to
acquiring the mutex again; a notification that arrives before the thread is blocked has no
effect.

`Monitor` is the rest of the system seen by such a thread, for a predicate that stays true
once it is true: the flag that makes the predicate true, and whether the notification issued
after raising the flag has been sent.  `Monitor.Awake.run` says that the notification is
not lost if it is never sent between the evaluation of the predicate and the blocking.
-/

namespace Transition

/-- The stages of a thread that locks a mutex and waits for a predicate. -/
inductive Waiter
  | outside
  | holding
  | committed
  | blocked
  | woken
  | through
  deriving DecidableEq

/-- The moves of a waiting thread. -/
inductive Waiter.Move
  | acquire
  | check
  | block
  | spurious
  deriving DecidableEq

/-- The stages in which the waiting thread holds the mutex. -/
def Waiter.holds : Waiter → Bool
  | .holding | .committed | .through => true
  | .outside | .blocked | .woken => false

/-- A move of the waiting thread: `free` says that no other thread holds the mutex, `pred` is
the value the predicate has. -/
def Waiter.step (free pred : Bool) : Waiter → Waiter.Move → Option Waiter
  | .outside, .acquire | .woken, .acquire => if free then some .holding else none
  | .holding, .check => some (if pred then .through else .committed)
  | .committed, .block => some .blocked
  | .blocked, .spurious => some .woken
  | _, _ => none

/-- A move the waiting thread can make, it can make while the mutex is free. -/
theorem Waiter.step_free {free pred : Bool} {w w' : Waiter} {m : Waiter.Move}
    (h : w.step free pred m = some w') :
  w.step true pred m = some w'
  := by
  cases w <;> cases m <;> simp_all [Waiter.step]

/-- A blocked thread may wake up without a notification. -/
theorem Waiter.step_spurious (free pred : Bool) :
  Waiter.blocked.step free pred .spurious = some .woken
  := rfl

theorem Waiter.ne_of_free {w w' : Waiter} (hw : w.holds = false) (hw' : w'.holds = true) :
  w ≠ w'
  := by
  rintro rfl
  simp [hw] at hw'

/-- A notification wakes the waiting thread only if it is blocked. -/
def Waiter.notify : Waiter → Waiter
  | .blocked => .woken
  | w => w

@[simp]
theorem Waiter.notify_holds (w : Waiter) :
  w.notify.holds = w.holds
  := by
  cases w <;> rfl

@[simp]
theorem Waiter.notify_eq_through {w : Waiter} :
  w.notify = .through ↔ w = .through
  := by
  cases w <;> simp [Waiter.notify]

/-- A waiting thread and the flag it waits for. -/
structure Monitor where
  flag : Bool
  notified : Bool
  waiter : Waiter

namespace Monitor

/-- The steps around a waiting thread: the flag is raised, the notification is sent, the
thread moves. -/
inductive Label
  | raise
  | notify
  | waiter (m : Waiter.Move)
  deriving DecidableEq

/-- The step function of the waiting thread and its surroundings. -/
def step (s : Monitor) : Label → Option Monitor
  | .raise => some { s with flag := true }
  | .notify => if s.flag then some { s with notified := true, waiter := s.waiter.notify } else none
  | .waiter m => (s.waiter.step true s.flag m).map fun w => { s with waiter := w }

/-- The notification is not sent between the evaluation of the predicate and the blocking. -/
def Timely (s : Monitor) (a : Label) : Prop :=
  a = .notify → s.waiter ≠ .committed

instance (s : Monitor) (a : Label) : Decidable (s.Timely a) :=
  inferInstanceAs (Decidable (_ → _))

/-- Once the notification has been sent the flag is raised and the thread neither blocks nor is
about to. -/
structure Awake (s : Monitor) : Prop where
  flag : s.notified = true → s.flag = true
  committed : s.notified = true → s.waiter ≠ .committed
  blocked : s.notified = true → s.waiter ≠ .blocked

/-- What a move of the waiting thread can do. -/
theorem waiter_step_cases {free pred : Bool} {w w' : Waiter} {m : Waiter.Move}
    (h : w.step free pred m = some w') :
  (m = .acquire ∧ (w = .outside ∨ w = .woken) ∧ free = true ∧ w' = .holding) ∨
  (m = .check ∧ w = .holding ∧ pred = true ∧ w' = .through) ∨
  (m = .check ∧ w = .holding ∧ pred = false ∧ w' = .committed) ∨
  (m = .block ∧ w = .committed ∧ w' = .blocked) ∨
  (m = .spurious ∧ w = .blocked ∧ w' = .woken)
  := by
  cases w <;> cases m <;> cases pred <;> simp_all [Waiter.step]

/-- A step in which the notification is timely keeps the thread awake. -/
theorem Awake.step {s t : Monitor} {a : Label} (hs : s.Awake) (ha : s.Timely a)
    (h : s.step a = some t) :
  t.Awake
  := by
  obtain ⟨hflag, hcommitted, hblocked⟩ := hs
  cases a with
  | raise =>
      obtain rfl : { s with flag := true } = t := by simpa [Monitor.step] using h
      constructor
      · intro _
        rfl
      · apply hcommitted
      · apply hblocked
  | notify =>
      obtain ⟨hf, rfl⟩ : s.flag = true ∧
          { s with notified := true, waiter := s.waiter.notify } = t := by
        simpa [Monitor.step] using h
      have hne := ha rfl
      constructor
      · intro _
        apply hf
      · cases hw : s.waiter <;> simp_all [Waiter.notify]
      · cases hw : s.waiter <;> simp_all [Waiter.notify]
  | waiter m =>
      obtain ⟨w, hw, rfl⟩ := Option.map_eq_some_iff.mp h
      obtain ⟨-, -, -, rfl⟩ | ⟨-, -, -, rfl⟩ | ⟨-, -, hp, rfl⟩ | ⟨-, hc, rfl⟩ | ⟨-, -, rfl⟩ :=
        waiter_step_cases hw
      · constructor <;> simp_all
      · constructor <;> simp_all
      · constructor <;> simp_all
      · constructor <;> simp_all
      · constructor <;> simp_all

/-- A run with timely notification keeps the thread awake: it is not blocked once the notification
has been sent. -/
theorem Awake.run {s t : Monitor} {as : List Label} (hs : s.Awake)
    (h : Run Monitor.step (Meets Timely) s as t) :
  t.Awake
  := by
  apply h.invariant Awake _ hs
  intro u a v hu ha e
  apply hu.step ha e

end Monitor

end Transition
