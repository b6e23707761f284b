import Koroutine.Executor.Clock
import Koroutine.Sequence.PriorityQueue
import Koroutine.Transition.Run

/-!
# `TimerScheduler`

`schedule` puts a function into `executable_queue`, from which the worker takes and runs it in
`run_loop` when its time has come.

`schedule` reads `is_active` under `queue_lock`, and pushes later; `shutdown` writes it without the
mutex, clears the queue under it if it is not to wait, and notifies.  The worker takes a step for
everything it tests, the queue in the condition of the loop without the mutex.  When the timed wait
ends it has to lock `queue_lock` again, and may report a timeout as soon as the deadline has passed,
whether it was notified or not.

The clock that the times are read from and that of the timed wait advance together.
-/

open Sequence Transition

namespace Koroutine

namespace TimerScheduler

/-- The system clock in milliseconds. -/
def current (now : ℤ) : ℤ := now / 1000000

/-- A function, and the time in milliseconds at which it is to be run, a `long long`. -/
structure DelayedExecutable (F : Type*) where
  scheduled_time : ℤ
  func : F
  fits : Clock.Fits scheduled_time
  deriving DecidableEq

variable {F : Type*}

/-- The constructor of `DelayedExecutable`. -/
def DelayedExecutable.make (now : ℤ) (func : F) (delay : ℤ) : DelayedExecutable F where
  scheduled_time := Clock.wrap (current now + delay)
  func := func
  fits := Clock.fits_wrap _

/-- Where the time and the delay have a sum that can be represented, it is the `scheduled_time`. -/
theorem DelayedExecutable.make_scheduled_time {now delay : ℤ} {func : F}
    (hfits : Clock.Fits (current now + delay)) :
  (make now func delay).scheduled_time = current now + delay
  := Clock.wrap_of_fits hfits

def DelayedExecutable.delay (x : DelayedExecutable F) (now : ℤ) : ℤ :=
  Clock.wrap (x.scheduled_time - current now)

/-- When `delay` overflows, it is too large. -/
theorem DelayedExecutable.scheduled_time_le {x : DelayedExecutable F} {now : ℤ} (hnow : 0 ≤ now) :
  x.scheduled_time ≤ current now + x.delay now
  := by
  have hfits := x.fits.2
  have hle := Clock.le_wrap (x := x.scheduled_time - current now)
  unfold DelayedExecutable.delay
  unfold current at hle ⊢
  omega

/-- Where the worker is in `run_loop`. -/
inductive Pc (F : Type*)
  /-- About to read `is_active` in the condition of the loop, and `executable_queue`. -/
  | testing_active
  | testing_queue
  /-- About to lock `queue_lock`. -/
  | locking
  /-- Holding it, about to test the queue. -/
  | locked
  /-- In `wait`. -/
  | blocked
  /-- About to lock `queue_lock` again. -/
  | woken
  /-- Holding it, about to test the queue again. -/
  | rechecking
  /-- Holding it, about to copy the top. -/
  | copying
  /-- Holding it, about to call `wait_for`. -/
  | timing (executable : DelayedExecutable F) (delay : ℤ)
  /-- In `wait_for`. -/
  | sleeping (executable : DelayedExecutable F) (deadline : ℤ)
  /-- Notified, or timed out, and about to lock `queue_lock` again. -/
  | woken_until (executable : DelayedExecutable F) (deadline : ℤ)
  | expired (executable : DelayedExecutable F)
  /-- Holding it, about to pop. -/
  | popping (executable : DelayedExecutable F)
  | running (executable : DelayedExecutable F)
  | exited
  /-- `top` or `pop` was called on an empty queue. -/
  | undefined
  deriving DecidableEq

/-- A call of `schedule` that has read `is_active` as true and computed `need_notify`. -/
structure Call (F : Type*) where
  func : F
  delay : ℤ
  need_notify : Bool
  deriving DecidableEq

/-- The scheduler.  `holder` is the call of `schedule` that is about to push, and holds
`queue_lock`; `clearing` counts the calls of `shutdown(false)` that have not cleared the queue yet,
and `notifies` the notifications still to be made. -/
structure State (F : Type*) where
  queue : PriorityQueue (DelayedExecutable.scheduled_time : DelayedExecutable F → ℤ)
  is_active : Bool
  pc : Pc F
  holder : Option (Call F)
  clearing : ℕ
  notifies : ℕ
  now : ℤ

def initial (F : Type*) : State F where
  queue := .empty
  is_active := true
  pc := .testing_active
  holder := none
  clearing := 0
  notifies := 0
  now := 0

/-- The steps.  `push` ends the call of `schedule` that holds the mutex, `clear` is the section of a
`shutdown(false)`, `notify` one of the outstanding notifications, `wake` a spurious wake-up; `work`
is a step of the worker, with the `k`-th of the others as the next top where it pops one, and with
the status that a timed wait reports after it was notified. -/
inductive Label (F : Type*)
  | schedule (func : F) (delay : ℤ)
  | push
  | shutdown (wait_for_empty : Bool)
  | clear
  | notify
  | wake
  | timeout
  | work (k : ℕ) (timed_out : Bool)
  | finish
  | tick (ns : ℕ)

/-- The worker holds `queue_lock`. -/
def Pc.holds : Pc F → Bool
  | .locked | .rechecking | .copying | .timing _ _ | .popping _ => true
  | _ => false

/-- What a notification does to the worker. -/
def Pc.wake : Pc F → Pc F
  | .blocked => .woken
  | .sleeping executable deadline => .woken_until executable deadline
  | pc => pc

/-- Nobody holds `queue_lock`. -/
def State.unlocked (s : State F) : Bool := !s.pc.holds && s.holder.isNone

/-- Where the worker goes from a place where it does not pop; it waits while another thread holds
the mutex it needs. -/
def State.next (s : State F) (timed_out : Bool) : Option (Pc F) :=
  match s.pc with
  | .testing_active => some (if s.is_active then .locking else .testing_queue)
  | .testing_queue => some (if s.queue.isEmpty then .exited else .locking)
  | .locking => if s.holder.isNone then some .locked else none
  | .locked => some (if s.queue.isEmpty then .blocked else .copying)
  | .woken => if s.holder.isNone then some .rechecking else none
  | .rechecking => some (if s.queue.isEmpty then .testing_active else .copying)
  | .copying =>
      match s.queue.top with
      | none => some .undefined
      | some executable =>
          let delay := executable.delay s.now
          some (if 0 < delay then .timing executable delay else .popping executable)
  | .timing executable delay => some (.sleeping executable (Clock.timePoint s.now delay))
  | .woken_until executable deadline =>
      if s.holder.isNone then
        if timed_out then if deadline ≤ s.now then some (.popping executable) else none
        else some .testing_active
      else none
  | .expired executable => if s.holder.isNone then some (.popping executable) else none
  | _ => none

/-- A step of the worker. -/
def work (s : State F) (k : ℕ) (timed_out : Bool) : Option (State F) :=
  match s.pc with
  | .popping executable =>
      if s.queue.isEmpty then some { s with pc := .undefined }
      else (s.queue.pop k).map fun q => { s with queue := q, pc := .running executable }
  | _ => (s.next timed_out).map fun pc => { s with pc := pc }

/-- The worker is to be notified of a new executable. -/
def State.need_notify (s : State F) (delay : ℤ) : Bool :=
  s.queue.top.all fun executable => decide (delay < executable.delay s.now)

/-- A call of `schedule`, before the push. -/
def State.call (s : State F) (func : F) (delay : ℤ) : Call F :=
  let delay := if delay < 0 then 0 else delay
  { func := func, delay := delay, need_notify := s.need_notify delay }

def step (s : State F) : Label F → Option (State F)
  | .schedule func delay =>
      if s.unlocked then
        if s.is_active then some { s with holder := some (s.call func delay) } else some s
      else none
  | .push =>
      s.holder.map fun call =>
        { s with
          queue := s.queue.push (.make s.now call.func call.delay)
          holder := none
          notifies := s.notifies + if call.need_notify then 1 else 0 }
  | .shutdown wait_for_empty =>
      some
        (if wait_for_empty then { s with is_active := false, notifies := s.notifies + 1 }
        else { s with is_active := false, clearing := s.clearing + 1 })
  | .clear =>
      if 0 < s.clearing ∧ s.unlocked = true then
        some { s with queue := .empty, clearing := s.clearing - 1, notifies := s.notifies + 1 }
      else none
  | .notify =>
      if 0 < s.notifies then some { s with notifies := s.notifies - 1, pc := s.pc.wake } else none
  | .wake => some { s with pc := s.pc.wake }
  | .timeout =>
      match s.pc with
      | .sleeping executable deadline =>
          if deadline ≤ s.now then some { s with pc := .expired executable } else none
      | _ => none
  | .work k timed_out => work s k timed_out
  | .finish =>
      match s.pc with
      | .running _ => some { s with pc := .testing_active }
      | _ => none
  -- readings of the clock fit
  | .tick ns => if s.now + ns < 2 ^ 63 then some { s with now := s.now + ns } else none

/-! ### What a step does -/

/-- Where the worker goes, and what it has found. -/
inductive Next (s : State F) (timed_out : Bool) : Pc F → Prop
  | active (hpc : s.pc = .testing_active) (hactive : s.is_active = true) :
      Next s timed_out .locking
  | inactive (hpc : s.pc = .testing_active) (hactive : s.is_active = false) :
      Next s timed_out .testing_queue
  | leaves (hpc : s.pc = .testing_queue) (hqueue : s.queue.items = []) : Next s timed_out .exited
  | stays (hpc : s.pc = .testing_queue) (hqueue : s.queue.items ≠ []) : Next s timed_out .locking
  | locks (hpc : s.pc = .locking) (hholder : s.holder = none) : Next s timed_out .locked
  | waits (hpc : s.pc = .locked) (hqueue : s.queue.items = []) : Next s timed_out .blocked
  | finds (hpc : s.pc = .locked ∨ s.pc = .rechecking) (hqueue : s.queue.items ≠ []) :
      Next s timed_out .copying
  | locks_again (hpc : s.pc = .woken) (hholder : s.holder = none) : Next s timed_out .rechecking
  | finds_none (hpc : s.pc = .rechecking) (hqueue : s.queue.items = []) :
      Next s timed_out .testing_active
  | copies_none (hpc : s.pc = .copying) (hqueue : s.queue.items = []) :
      Next s timed_out .undefined
  | copies {executable : DelayedExecutable F} (hpc : s.pc = .copying)
      (htop : s.queue.top = some executable) (hdelay : 0 < executable.delay s.now) :
      Next s timed_out (.timing executable (executable.delay s.now))
  | copies_due {executable : DelayedExecutable F} (hpc : s.pc = .copying)
      (htop : s.queue.top = some executable) (hdelay : executable.delay s.now ≤ 0) :
      Next s timed_out (.popping executable)
  | sleeps {executable : DelayedExecutable F} {delay : ℤ} (hpc : s.pc = .timing executable delay) :
      Next s timed_out (.sleeping executable (Clock.timePoint s.now delay))
  | notified {executable : DelayedExecutable F} {deadline : ℤ}
      (hpc : s.pc = .woken_until executable deadline) (hholder : s.holder = none) :
      Next s timed_out .testing_active
  | late {executable : DelayedExecutable F} {deadline : ℤ}
      (hpc : s.pc = .woken_until executable deadline) (hholder : s.holder = none)
      (htimed_out : timed_out = true) (hdeadline : deadline ≤ s.now) :
      Next s timed_out (.popping executable)
  | expires {executable : DelayedExecutable F} (hpc : s.pc = .expired executable)
      (hholder : s.holder = none) : Next s timed_out (.popping executable)

/-- What a step of the worker does. -/
inductive Work (s : State F) (k : ℕ) (timed_out : Bool) : State F → Prop
  | goes {pc : Pc F} (hpc : s.next timed_out = some pc) : Work s k timed_out { s with pc := pc }
  | pops_none {executable : DelayedExecutable F} (hpc : s.pc = .popping executable)
      (hqueue : s.queue.items = []) : Work s k timed_out { s with pc := .undefined }
  | pops {executable top : DelayedExecutable F}
      {q : PriorityQueue (DelayedExecutable.scheduled_time : DelayedExecutable F → ℤ)}
      (hpc : s.pc = .popping executable) (htop : s.queue.top = some top)
      (hpop : s.queue.pop k = some q) :
      Work s k timed_out { s with queue := q, pc := .running executable }

/-- What a step does. -/
inductive Effect (s : State F) : Label F → State F → Prop
  | schedule {func : F} {delay : ℤ} (hpc : s.pc.holds = false) (hholder : s.holder = none)
      (hactive : s.is_active = true) :
      Effect s (.schedule func delay) { s with holder := some (s.call func delay) }
  | schedule_refused {func : F} {delay : ℤ} (hactive : s.is_active = false) :
      Effect s (.schedule func delay) s
  | push {call : Call F} (hholder : s.holder = some call) :
      Effect s .push { s with
        queue := s.queue.push (.make s.now call.func call.delay)
        holder := none
        notifies := s.notifies + if call.need_notify then 1 else 0 }
  | shutdown : Effect s (.shutdown true) { s with is_active := false, notifies := s.notifies + 1 }
  | shutdown_clearing :
      Effect s (.shutdown false) { s with is_active := false, clearing := s.clearing + 1 }
  | clear (hclearing : 0 < s.clearing) (hpc : s.pc.holds = false) (hholder : s.holder = none) :
      Effect s .clear
        { s with queue := .empty, clearing := s.clearing - 1, notifies := s.notifies + 1 }
  | notify (hnotifies : 0 < s.notifies) :
      Effect s .notify { s with notifies := s.notifies - 1, pc := s.pc.wake }
  | wake : Effect s .wake { s with pc := s.pc.wake }
  | timeout {executable : DelayedExecutable F} {deadline : ℤ}
      (hpc : s.pc = .sleeping executable deadline) (hdeadline : deadline ≤ s.now) :
      Effect s .timeout { s with pc := .expired executable }
  | work {k : ℕ} {timed_out : Bool} {t : State F} (hwork : Work s k timed_out t) :
      Effect s (.work k timed_out) t
  | finish {executable : DelayedExecutable F} (hpc : s.pc = .running executable) :
      Effect s .finish { s with pc := .testing_active }
  | tick {ns : ℕ} : Effect s (.tick ns) { s with now := s.now + ns }

variable {s t : State F} {a : Label F} {k : ℕ} {timed_out : Bool}

theorem isEmpty_iff :
  s.queue.isEmpty = true ↔ s.queue.items = []
  := PriorityQueue.isEmpty_iff

theorem next_cases {pc : Pc F} (h : s.next timed_out = some pc) :
  Next s timed_out pc
  := by
  cases hcase : s.pc with
  | testing_active =>
      simp only [State.next, hcase, Option.some.injEq] at h
      subst h
      split
      · next hactive => exact .active hcase hactive
      · next hactive => exact .inactive hcase (by simpa using hactive)
  | testing_queue =>
      simp only [State.next, hcase, Option.some.injEq] at h
      subst h
      split
      · next hempty => exact .leaves hcase (isEmpty_iff.mp hempty)
      · next hempty => exact .stays hcase (mt isEmpty_iff.mpr hempty)
  | locking =>
      simp only [State.next, hcase] at h
      obtain ⟨hholder, heq⟩ := Option.ite_none_right_eq_some.mp h
      obtain rfl := Option.some.inj heq
      exact .locks hcase (Option.isNone_iff_eq_none.mp hholder)
  | locked =>
      simp only [State.next, hcase, Option.some.injEq] at h
      subst h
      split
      · next hempty => exact .waits hcase (isEmpty_iff.mp hempty)
      · next hempty => exact .finds (.inl hcase) (mt isEmpty_iff.mpr hempty)
  | woken =>
      simp only [State.next, hcase] at h
      obtain ⟨hholder, heq⟩ := Option.ite_none_right_eq_some.mp h
      obtain rfl := Option.some.inj heq
      exact .locks_again hcase (Option.isNone_iff_eq_none.mp hholder)
  | rechecking =>
      simp only [State.next, hcase, Option.some.injEq] at h
      subst h
      split
      · next hempty => exact .finds_none hcase (isEmpty_iff.mp hempty)
      · next hempty => exact .finds (.inr hcase) (mt isEmpty_iff.mpr hempty)
  | copying =>
      simp only [State.next, hcase] at h
      split at h
      · next htop =>
          obtain rfl := Option.some.inj h
          exact .copies_none hcase (PriorityQueue.top_eq_none.mp htop)
      · next executable htop =>
          obtain rfl := Option.some.inj h
          split
          · next hdelay => exact .copies hcase htop hdelay
          · next hdelay => exact .copies_due hcase htop (not_lt.mp hdelay)
  | timing executable delay =>
      simp only [State.next, hcase, Option.some.injEq] at h
      subst h
      exact .sleeps hcase
  | woken_until executable deadline =>
      simp only [State.next, hcase] at h
      obtain ⟨hholder, hif⟩ := Option.ite_none_right_eq_some.mp h
      have hnone := Option.isNone_iff_eq_none.mp hholder
      split at hif
      · next htimed_out =>
          obtain ⟨hdeadline, heq⟩ := Option.ite_none_right_eq_some.mp hif
          obtain rfl := Option.some.inj heq
          exact .late hcase hnone htimed_out hdeadline
      · obtain rfl := Option.some.inj hif
        exact .notified hcase hnone
  | expired executable =>
      simp only [State.next, hcase] at h
      obtain ⟨hholder, heq⟩ := Option.ite_none_right_eq_some.mp h
      obtain rfl := Option.some.inj heq
      exact .expires hcase (Option.isNone_iff_eq_none.mp hholder)
  | blocked | sleeping | popping | running | exited | undefined => simp [State.next, hcase] at h

theorem work_effect (e : work s k timed_out = some t) :
  Work s k timed_out t
  := by
  unfold work at e
  split at e
  · next hpc =>
      split at e
      · next hempty =>
          obtain rfl := Option.some.inj e
          exact .pops_none hpc (PriorityQueue.isEmpty_iff.mp hempty)
      · next hempty =>
          obtain ⟨q, hpop, rfl⟩ := Option.map_eq_some_iff.mp e
          cases htop : s.queue.top with
          | none =>
              apply absurd _ hempty
              apply PriorityQueue.isEmpty_iff.mpr (PriorityQueue.top_eq_none.mp htop)
          | some top => exact .pops hpc htop hpop
  · obtain ⟨pc, hpc, rfl⟩ := Option.map_eq_some_iff.mp e
    exact .goes hpc

theorem unlocked_iff :
  s.unlocked = true ↔ s.pc.holds = false ∧ s.holder = none
  := by
  simp [State.unlocked]

theorem effect (e : step s a = some t) :
  Effect s a t
  := by
  cases a with
  | schedule func delay =>
      obtain ⟨hunlocked, hif⟩ := Option.ite_none_right_eq_some.mp e
      obtain ⟨hpc, hholder⟩ := unlocked_iff.mp hunlocked
      split at hif
      · next hactive =>
          obtain rfl := Option.some.inj hif
          exact .schedule hpc hholder hactive
      · next hactive =>
          obtain rfl := Option.some.inj hif
          exact .schedule_refused (by simpa using hactive)
  | push =>
      obtain ⟨call, hholder, rfl⟩ := Option.map_eq_some_iff.mp e
      exact .push hholder
  | shutdown wait_for_empty =>
      cases wait_for_empty with
      | true =>
          obtain rfl := Option.some.inj e
          exact .shutdown
      | false =>
          obtain rfl := Option.some.inj e
          exact .shutdown_clearing
  | clear =>
      obtain ⟨⟨hclearing, hunlocked⟩, heq⟩ := Option.ite_none_right_eq_some.mp e
      obtain ⟨hpc, hholder⟩ := unlocked_iff.mp hunlocked
      obtain rfl := Option.some.inj heq
      exact .clear hclearing hpc hholder
  | notify =>
      obtain ⟨hnotifies, heq⟩ := Option.ite_none_right_eq_some.mp e
      obtain rfl := Option.some.inj heq
      exact .notify hnotifies
  | wake =>
      obtain rfl := Option.some.inj e
      exact .wake
  | timeout =>
      simp only [step] at e
      split at e
      · next hpc =>
          obtain ⟨hdeadline, heq⟩ := Option.ite_none_right_eq_some.mp e
          obtain rfl := Option.some.inj heq
          exact .timeout hpc hdeadline
      · contradiction
  | work k timed_out => exact .work (work_effect e)
  | finish =>
      simp only [step] at e
      split at e
      · next hpc =>
          obtain rfl := Option.some.inj e
          exact .finish hpc
      · contradiction
  | tick ns =>
      obtain ⟨-, heq⟩ := Option.ite_none_right_eq_some.mp e
      obtain rfl := Option.some.inj heq
      exact .tick

/-! ### The mutex -/

/-- At most one thread holds `queue_lock`, a call that finds the queue empty notifies, and while the
worker waits for something to come into the queue, it is told when it has. -/
structure Locked (s : State F) : Prop where
  holder : s.pc.holds = true → s.holder = none
  need_notify : ∀ call ∈ s.holder, s.queue.items = [] → call.need_notify = true
  noticed : s.pc = .blocked → s.queue.items ≠ [] → 0 < s.notifies

theorem Locked.initial :
  Locked (initial F)
  := by
  constructor <;> simp [TimerScheduler.initial, Pc.holds]

theorem wake_holds {pc : Pc F} :
  pc.wake.holds = pc.holds
  := by
  cases pc <;> rfl

theorem wake_ne_blocked {pc : Pc F} :
  pc.wake ≠ .blocked
  := by
  cases pc <;> simp [Pc.wake]

/-- The worker has the mutex where it goes, or gets it while nobody holds it. -/
theorem holds_next {pc : Pc F} (h : Next s timed_out pc) (hpc : pc.holds = true) :
  s.pc.holds = true ∨ s.holder = none
  := by
  cases h with
  | locks _ hholder | locks_again _ hholder | late _ hholder | expires _ hholder =>
      exact .inr hholder
  | finds hcase =>
      left
      obtain hcase | hcase := hcase <;> rw [hcase] <;> rfl
  | copies hcase | copies_due hcase =>
      left
      rw [hcase]
      rfl
  | _ => contradiction

theorem Locked.work (h : Locked s) (hwork : Work s k timed_out t) :
  Locked t
  := by
  cases hwork with
  | goes hpc =>
      have hnext := next_cases hpc
      constructor
      · intro hholds
        obtain hholds' | hholder := holds_next hnext hholds
        · apply h.holder hholds'
        · apply hholder
      · apply h.need_notify
      · rintro rfl hitems
        cases hnext with
        | waits _ hqueue => exact absurd hqueue hitems
  | pops_none hpc =>
      constructor
      · intro hholds
        contradiction
      · apply h.need_notify
      · intro hblocked
        contradiction
  | pops hpc =>
      have hholder := h.holder (by rw [hpc]; rfl)
      constructor
      · intro hholds
        contradiction
      · intro call hcall
        simp [hholder] at hcall
      · intro hblocked
        contradiction

theorem Locked.step (h : Locked s) (e : step s a = some t) :
  Locked t
  := by
  cases effect e with
  | schedule hpc hholder hactive =>
      constructor
      · intro hholds
        change s.pc.holds = true at hholds
        simp [hpc] at hholds
      · intro call hcall hitems
        obtain rfl := Option.some.inj hcall
        change s.queue.items = [] at hitems
        simp [State.call, State.need_notify, PriorityQueue.top, hitems]
      · apply h.noticed
  | schedule_refused => apply h
  | @push call hholder =>
      constructor
      · intro _
        rfl
      · intro call hcall
        contradiction
      · intro hblocked _
        change 0 < s.notifies + _
        by_cases hitems : s.queue.items = []
        · simp [h.need_notify call hholder hitems]
        · have hnotifies := h.noticed hblocked hitems
          omega
  | shutdown =>
      constructor
      · apply h.holder
      · apply h.need_notify
      · intro _ _
        apply Nat.succ_pos
  | shutdown_clearing | tick => exact ⟨h.holder, h.need_notify, h.noticed⟩
  | clear hclearing hpc hholder =>
      constructor
      · intro _
        apply hholder
      · intro call hcall
        change call ∈ s.holder at hcall
        simp [hholder] at hcall
      · intro _ hitems
        contradiction
  | notify | wake =>
      constructor
      · intro hholds
        change s.pc.wake.holds = true at hholds
        rw [wake_holds] at hholds
        apply h.holder hholds
      · apply h.need_notify
      · intro hblocked
        exact absurd hblocked wake_ne_blocked
  | timeout | finish =>
      constructor
      · intro hholds
        contradiction
      · apply h.need_notify
      · intro hblocked
        contradiction
  | work hwork => exact h.work hwork

/-- A call of `schedule` pushes while the worker does not hold the mutex. -/
theorem Locked.holds_of_holder {call : Call F} (h : Locked s) (hholder : s.holder = some call) :
  s.pc.holds = false
  := by
  by_contra hholds
  have hnone := h.holder (by simpa using hholds)
  simp [hholder] at hnone

/-- The worker goes on when nobody else holds the mutex. -/
theorem goes_on (hholder : s.holder = none) :
  (∃ k timed_out t, step s (.work k timed_out) = some t) ∨
    (∃ executable, s.pc = .running executable) ∨
    (∃ executable deadline, s.pc = .sleeping executable deadline) ∨ s.pc = .exited ∨
    s.pc = .undefined ∨ s.pc = .blocked
  := by
  cases hcase : s.pc with
  | undefined | running | sleeping | exited | blocked => simp
  | popping executable =>
      left
      obtain ⟨k, q, hpop⟩ := s.queue.exists_pop
      use k, false
      simp only [step, work, hcase]
      split
      · simp
      · simp [hpop]
  | copying =>
      left
      use 0, false
      simp only [step, work, State.next, hcase]
      split <;> simp
  | _ =>
      left
      use 0, false
      simp [step, work, State.next, hcase, hholder]

end TimerScheduler

end Koroutine
