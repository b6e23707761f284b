import Koroutine.Scheduler.Timer

/-!
# What the worker of `TimerScheduler` pops

The worker copies the top of `executable_queue`, waits until its time has come, and pops the top.
After a timeout it does not look whether the top is still the one it has copied; and a call of
`schedule` that has read `is_active` pushes even if the worker has left the loop since.

A ledger records what is pushed, cleared, popped and run.
-/

open Sequence Transition

namespace Koroutine

namespace TimerScheduler

variable {F : Type*} {s t : State F} {a : Label F} {k : ℕ} {timed_out : Bool}

/-! ### The ledger -/

/-- The executables pushed by `schedule`, those cleared by `shutdown(false)`, those the worker has
popped, and those it has run, with the clock at that time. -/
structure Ledger (F : Type*) where
  accepted : List (DelayedExecutable F)
  cleared : List (DelayedExecutable F)
  popped : List (DelayedExecutable F)
  ran : List (DelayedExecutable F × ℤ)

def Ledger.initial (F : Type*) : Ledger F where
  accepted := []
  cleared := []
  popped := []
  ran := []

def record (s : State F) (a : Label F) (l : Ledger F) : Ledger F :=
  match a with
  | .push =>
      { l with accepted := l.accepted ++
          (s.holder.map fun call => .make s.now call.func call.delay).toList }
  | .clear => { l with cleared := l.cleared ++ s.queue.items }
  | .work _ _ =>
      match s.pc with
      | .popping executable =>
          { l with popped := l.popped ++ s.queue.top.toList, ran := l.ran ++ [(executable, s.now)] }
      | _ => l
  | _ => l

/-- What `TimerScheduler` is to guarantee. -/
structure Pops (l : Ledger F) (s : State F) : Prop where
  /-- What is popped is what is run. -/
  popped : l.popped = l.ran.map Prod.fst
  /-- `top` and `pop` are not called on an empty queue. -/
  defined : s.pc ≠ .undefined
  /-- An accepted executable has been run once, has been cleared, or is in the queue. -/
  accepted : l.accepted.Perm (l.ran.map Prod.fst ++ l.cleared ++ s.queue.items)
  /-- When the worker has left the loop, none is in the queue, and none is to come. -/
  drained : s.pc = .exited → s.queue.items = [] ∧ s.holder = none
  /-- No executable is run before its time. -/
  due : ∀ x ∈ l.ran, x.1.scheduled_time ≤ current x.2
  /-- The worker goes on when it can lock `queue_lock`, unless it is waiting for the time of an
  executable, or to be notified. -/
  goes_on : s.holder = none → (∃ k timed_out t, step s (.work k timed_out) = some t) ∨
    (∃ executable, s.pc = .running executable) ∨
    (∃ executable deadline, s.pc = .sleeping executable deadline) ∨ s.pc = .exited ∨
    s.pc = .blocked ∧ (0 < s.notifies ∨ s.queue.items = [])

/-! ### The condition -/

/-- The queue is as the worker takes it to be: when a wait has timed out, the executable it was for
is still the top; the time point that ends the wait is representable; when the worker leaves the
loop, no call of `schedule` is about to push. -/
def Pc.Undisturbed (s : State F) (timed_out : Bool) : Pc F → Prop
  | .testing_queue => s.queue.items = [] → s.holder = none
  | .timing _ delay => Clock.Fits (delay * 1000000) ∧ Clock.Fits (s.now + delay * 1000000)
  | .woken_until executable _ => timed_out = true → s.queue.top = some executable
  | .expired executable => s.queue.top = some executable
  | _ => True

def Undisturbed (s : State F) : Label F → Prop
  | .work _ timed_out => s.pc.Undisturbed s timed_out
  | _ => True

instance [DecidableEq F] (s : State F) (timed_out : Bool) :
    (pc : Pc F) → Decidable (pc.Undisturbed s timed_out)
  | .testing_queue => inferInstanceAs (Decidable (_ → _))
  | .timing _ _ => inferInstanceAs (Decidable (_ ∧ _))
  | .woken_until _ _ => inferInstanceAs (Decidable (_ → _))
  | .expired _ => inferInstanceAs (Decidable (_ = _))
  | .testing_active | .locking | .locked | .blocked | .woken | .rechecking | .copying
  | .sleeping _ _ | .popping _ | .running _ | .exited | .undefined => .isTrue trivial

instance [DecidableEq F] (s : State F) : (a : Label F) → Decidable (Undisturbed s a)
  | .work _ timed_out => inferInstanceAs (Decidable (s.pc.Undisturbed s timed_out))
  | .schedule _ _ | .push | .shutdown _ | .clear | .notify | .wake | .timeout | .finish
  | .tick _ => .isTrue trivial

/-! ### Where the worker is -/

/-- What is known where the worker is. -/
def Pc.Fits (s : State F) : Pc F → Prop
  | .testing_queue => s.is_active = false
  | .copying => s.queue.items ≠ []
  | .timing executable delay => executable.scheduled_time ≤ current s.now + delay
  | .sleeping executable deadline | .woken_until executable deadline =>
      executable.scheduled_time ≤ current deadline
  | .expired executable => executable.scheduled_time ≤ current s.now
  | .popping executable =>
      executable.scheduled_time ≤ current s.now ∧ s.queue.top = some executable
  | .exited => s.is_active = false ∧ s.queue.items = [] ∧ s.holder = none
  | .undefined => False
  | _ => True

theorem current_mono {now deadline : ℤ} (h : deadline ≤ now) :
  current deadline ≤ current now
  := Int.ediv_le_ediv (by decide) h

theorem current_add (now delay : ℤ) :
  current (now + delay * 1000000) = current now + delay
  := Int.add_mul_ediv_right now delay (by decide)

theorem Pc.Fits.next {pc : Pc F} (h : s.pc.Fits s) (hnow : 0 ≤ s.now)
    (hmeets : s.pc.Undisturbed s timed_out) (hpc : Next s timed_out pc) :
  pc.Fits s
  := by
  cases hpc with
  | inactive _ hactive => apply hactive
  | leaves hcase hqueue =>
      rw [hcase] at h hmeets
      exact ⟨h, hqueue, hmeets hqueue⟩
  | finds _ hqueue => apply hqueue
  | copies_none hcase hqueue =>
      rw [hcase] at h
      exact h hqueue
  | copies => apply DelayedExecutable.scheduled_time_le hnow
  | @copies_due executable _ htop hdelay =>
      have hle := executable.scheduled_time_le hnow
      refine ⟨?_, htop⟩
      omega
  | @sleeps executable delay hcase =>
      rw [hcase] at h hmeets
      change executable.scheduled_time ≤ current (Clock.timePoint s.now delay)
      rw [Clock.timePoint_of_fits hmeets.1 hmeets.2, current_add]
      apply h
  | @late executable deadline hcase _ htimed_out hdeadline =>
      rw [hcase] at h hmeets
      have hle : executable.scheduled_time ≤ current deadline := h
      exact ⟨hle.trans (current_mono hdeadline), hmeets htimed_out⟩
  | expires hcase =>
      rw [hcase] at h hmeets
      exact ⟨h, hmeets⟩
  | active | stays | locks | waits | locks_again | finds_none | notified => trivial

theorem Pc.Fits.work (h : s.pc.Fits s) (hnow : 0 ≤ s.now)
    (hmeets : s.pc.Undisturbed s timed_out) (hwork : Work s k timed_out t) :
  t.pc.Fits t
  := by
  cases hwork with
  | goes hpc => exact h.next hnow hmeets (next_cases hpc)
  | pops_none hpc hqueue =>
      rw [hpc] at h
      have hmem := PriorityQueue.mem_of_top h.2
      simp [hqueue] at hmem
  | pops => trivial

theorem Pc.Fits.push {call : Call F} (h : s.pc.Fits s) (hlocked : Locked s)
    (hholder : s.holder = some call) :
  s.pc.Fits { s with
    queue := s.queue.push (.make s.now call.func call.delay)
    holder := none
    notifies := s.notifies + if call.need_notify then 1 else 0 }
  := by
  have hpc := hlocked.holds_of_holder hholder
  cases hcase : s.pc with
  | copying | popping => simp [hcase, Pc.holds] at hpc
  | exited =>
      rw [hcase] at h
      simp [h.2.2] at hholder
  | _ =>
      rw [hcase] at h
      apply h

theorem Pc.Fits.step (h : s.pc.Fits s) (hlocked : Locked s) (hnow : 0 ≤ s.now)
    (hmeets : TimerScheduler.Undisturbed s a) (e : step s a = some t) :
  t.pc.Fits t
  := by
  cases effect e with
  | schedule hpc hholder hactive =>
      change s.pc.Fits _
      cases hcase : s.pc with
      | exited =>
          rw [hcase] at h
          simp [h.1] at hactive
      | _ =>
          rw [hcase] at h
          apply h
  | schedule_refused => apply h
  | push hholder => exact h.push hlocked hholder
  | shutdown | shutdown_clearing =>
      change s.pc.Fits _
      cases hcase : s.pc with
      | testing_queue => rfl
      | exited =>
          rw [hcase] at h
          exact ⟨rfl, h.2⟩
      | _ =>
          rw [hcase] at h
          apply h
  | clear hclearing hpc hholder =>
      change s.pc.Fits _
      cases hcase : s.pc with
      | copying | popping => simp [hcase, Pc.holds] at hpc
      | exited =>
          rw [hcase] at h
          exact ⟨h.1, rfl, h.2.2⟩
      | _ =>
          rw [hcase] at h
          apply h
  | notify | wake =>
      change s.pc.wake.Fits _
      cases hcase : s.pc with
      | blocked => trivial
      | _ =>
          rw [hcase] at h
          apply h
  | timeout hpc hdeadline =>
      rw [hpc] at h
      exact le_trans h (current_mono hdeadline)
  | work hwork => exact h.work hnow hmeets hwork
  | finish => trivial
  | @tick ns =>
      have hcurrent : current s.now ≤ current (s.now + ns) := current_mono (by omega)
      change s.pc.Fits _
      cases hcase : s.pc with
      | timing executable delay =>
          rw [hcase] at h
          have hle : executable.scheduled_time ≤ current s.now + delay := h
          change executable.scheduled_time ≤ current (s.now + ns) + delay
          omega
      | expired =>
          rw [hcase] at h
          exact le_trans h hcurrent
      | popping =>
          rw [hcase] at h
          exact ⟨h.1.trans hcurrent, h.2⟩
      | _ =>
          rw [hcase] at h
          apply h

/-! ### What has become of the executables -/

/-- What is popped is what is run, in its time, and what has been accepted is run, cleared or in the
queue. -/
structure Booked (l : Ledger F) (s : State F) : Prop where
  now : 0 ≤ s.now
  popped : l.popped = l.ran.map Prod.fst
  accepted : l.accepted.Perm (l.popped ++ l.cleared ++ s.queue.items)
  due : ∀ x ∈ l.ran, x.1.scheduled_time ≤ current x.2

theorem Booked.initial :
  Booked (Ledger.initial F) (initial F)
  := by
  constructor <;> simp [Ledger.initial, TimerScheduler.initial, PriorityQueue.empty]

variable {l : Ledger F}

theorem Booked.congr (h : Booked l s) (hqueue : t.queue = s.queue) (hnow : s.now ≤ t.now) :
  Booked l t
  := by
  constructor
  · apply h.now.trans hnow
  · apply h.popped
  · rw [hqueue]
    apply h.accepted
  · apply h.due

theorem record_next {pc : Pc F} (h : s.next timed_out = some pc) :
  record s (.work k timed_out) l = l
  := by
  cases hcase : s.pc with
  | popping => simp [State.next, hcase] at h
  | _ => simp [record, hcase]

/-- The top is popped and run. -/
theorem Booked.pops {executable : DelayedExecutable F}
    {q : PriorityQueue (DelayedExecutable.scheduled_time : DelayedExecutable F → ℤ)}
    (h : Booked l s) (hdue : executable.scheduled_time ≤ current s.now)
    (htop : s.queue.top = some executable) (hpop : s.queue.pop k = some q) :
  Booked { l with popped := l.popped ++ [executable], ran := l.ran ++ [(executable, s.now)] }
    { s with queue := q, pc := .running executable }
  := by
  constructor
  · apply h.now
  · simp [h.popped]
  · have hperm := (PriorityQueue.pop_perm hpop htop).append_left (l.popped ++ l.cleared)
    apply (h.accepted.trans hperm).trans
    rw [List.append_assoc, List.append_assoc, List.append_assoc]
    apply List.perm_middle.append_left
  · intro x hx
    obtain hold | hnew := List.mem_append.mp hx
    · apply h.due x hold
    · obtain rfl : x = (executable, s.now) := by simpa using hnew
      apply hdue

theorem Booked.work (h : Booked l s) (hfits : s.pc.Fits s) (hwork : Work s k timed_out t) :
  Booked (record s (.work k timed_out) l) t
  := by
  cases hwork with
  | goes hpc =>
      rw [record_next hpc]
      exact h.congr rfl (le_refl _)
  | pops_none hpc hqueue =>
      rw [hpc] at hfits
      have hmem := PriorityQueue.mem_of_top hfits.2
      simp [hqueue] at hmem
  | @pops executable top q hpc htop hpop =>
      rw [hpc] at hfits
      obtain rfl : top = executable := Option.some.inj (htop.symm.trans hfits.2)
      have hrecord : record s (.work k timed_out) l =
          { l with popped := l.popped ++ [top], ran := l.ran ++ [(top, s.now)] } := by
        simp only [record, hpc, htop, Option.toList_some]
      rw [hrecord]
      exact h.pops hfits.1 htop hpop

theorem Booked.step (h : Booked l s) (hfits : s.pc.Fits s) (e : step s a = some t) :
  Booked (record s a l) t
  := by
  cases effect e with
  | @push call hholder =>
      have hrecord : record s .push l =
          { l with accepted := l.accepted ++ [.make s.now call.func call.delay] } := by
        simp only [record, hholder, Option.map_some, Option.toList_some]
      rw [hrecord]
      constructor
      · apply h.now
      · apply h.popped
      · have hpush (x : DelayedExecutable F) :
            (s.queue.items ++ [x]).Perm (s.queue.push x).items :=
          (List.perm_append_singleton x _).trans PriorityQueue.push_perm.symm
        apply (h.accepted.append_right _).trans
        rw [List.append_assoc _ s.queue.items]
        apply (hpush _).append_left
      · apply h.due
  | clear =>
      constructor
      · apply h.now
      · apply h.popped
      · apply h.accepted.trans
        simp [record, PriorityQueue.empty]
      · apply h.due
  | work hwork => exact h.work hfits hwork
  | schedule | schedule_refused | shutdown | shutdown_clearing | notify | wake | timeout
  | finish => exact h.congr rfl (le_refl _)
  | @tick ns =>
      refine h.congr rfl ?_
      change s.now ≤ s.now + ns
      omega

/-! ### The runs -/

theorem Pc.Fits.goes_on (h : s.pc.Fits s) (hlocked : Locked s) (hholder : s.holder = none) :
  (∃ k timed_out t, TimerScheduler.step s (.work k timed_out) = some t) ∨
    (∃ executable, s.pc = .running executable) ∨
    (∃ executable deadline, s.pc = .sleeping executable deadline) ∨ s.pc = .exited ∨
    s.pc = .blocked ∧ (0 < s.notifies ∨ s.queue.items = [])
  := by
  obtain hstep | hrunning | hsleeping | hexited | hundefined | hblocked :=
    TimerScheduler.goes_on hholder
  · exact .inl hstep
  · exact .inr (.inl hrunning)
  · exact .inr (.inr (.inl hsleeping))
  · exact .inr (.inr (.inr (.inl hexited)))
  · rw [hundefined] at h
    contradiction
  · right
    right
    right
    right
    refine ⟨hblocked, ?_⟩
    by_cases hitems : s.queue.items = []
    · exact .inr hitems
    · exact .inl (hlocked.noticed hblocked hitems)

/-- In a run in which the queue is always as the worker takes it to be, every accepted executable
that is not cleared is popped and run once, in its time. -/
theorem pops_of_run {as : List (Label F)} {x : Ledger F × State F}
    (h : Run (noted step record) (Meets fun x a => Undisturbed x.2 a)
      (Ledger.initial F, initial F) as x) :
  Pops x.1 x.2
  := by
  have hinvariant : Locked x.2 ∧ x.2.pc.Fits x.2 ∧ Booked x.1 x.2 := by
    apply h.invariant fun x => Locked x.2 ∧ x.2.pc.Fits x.2 ∧ Booked x.1 x.2
    · rintro y a z ⟨hlocked, hfits, hbooked⟩ hmeets e
      obtain ⟨hledger, hstep⟩ := noted_eq_some.mp e
      rw [hledger]
      exact ⟨hlocked.step hstep, hfits.step hlocked hbooked.now hmeets hstep,
        hbooked.step hfits hstep⟩
    · exact ⟨Locked.initial, trivial, Booked.initial⟩
  obtain ⟨hlocked, hfits, hbooked⟩ := hinvariant
  constructor
  · apply hbooked.popped
  · intro hundefined
    rw [hundefined] at hfits
    contradiction
  · rw [← hbooked.popped]
    apply hbooked.accepted
  · intro hexited
    rw [hexited] at hfits
    apply hfits.2
  · apply hbooked.due
  · apply hfits.goes_on hlocked

/-- A function is scheduled for later, and one that comes before it; then the scheduler is shut
down. -/
theorem pops_two :
  ∃ as x, Run (noted step record) (Meets fun x a => Undisturbed x.2 a)
      (Ledger.initial ℕ, initial ℕ) as x ∧ Pops x.1 x.2 ∧ x.2.pc = .exited ∧
    x.1.ran.map (fun y => (y.1.func, y.2)) = [(2, 1000000), (1, 10000000)]
  := by
  obtain ⟨x, hrun, hends⟩ : ∃ x, Run (noted step record) (Meets fun x a => Undisturbed x.2 a)
      (Ledger.initial ℕ, initial ℕ)
      (List.flatten [[.schedule 1 10, .push, .notify], List.replicate 5 (.work 0 false),
        [.tick 1000000, .schedule 2 0, .push, .notify], List.replicate 6 (.work 0 false),
        [.finish, .shutdown true], List.replicate 6 (.work 0 false), [.tick 9000000, .timeout],
        List.replicate 2 (.work 0 false), [.finish], List.replicate 2 (.work 0 false)]) x ∧
      (x.2.pc = .exited ∧
        x.1.ran.map (fun y => (y.1.func, y.2)) = [(2, 1000000), (1, 10000000)]) := by
    apply exists_run_of_exec_guarded
    decide
  exact ⟨_, x, hrun, pops_of_run hrun, hends⟩

theorem noted_of_step (e : step s a = some t) :
  noted step record (l, s) a = some (record s a l, t)
  := noted_eq_some.mpr ⟨rfl, e⟩

/-- When the top is another after a timeout, the worker pops another than it runs, or none. -/
theorem exists_run_not_pops {executable : DelayedExecutable F} (hpc : s.pc = .expired executable)
    (hholder : s.holder = none) (htop : s.queue.top ≠ some executable) :
  ∃ as y, Run (noted step record) Free (l, s) as y ∧ ¬ Pops y.1 y.2
  := by
  have hnext : s.next false = some (.popping executable) := by
    simp [State.next, hpc, hholder]
  have hlock : step s (.work 0 false) = some { s with pc := .popping executable } := by
    simp [step, work, hpc, hnext]
  have hrun : Run (noted step record) Free (l, s) [.work 0 false]
      (l, { s with pc := .popping executable }) := by
    have hrecord := noted_of_step (l := l) hlock
    rw [record_next hnext] at hrecord
    exact Run.single hrecord trivial
  cases hcase : s.queue.top with
  | none =>
      have hempty : s.queue.isEmpty = true :=
        PriorityQueue.isEmpty_iff.mpr (PriorityQueue.top_eq_none.mp hcase)
      have hpop : step { s with pc := .popping executable } (.work 0 false) =
          some { s with pc := .undefined } := by
        simp [step, work, hempty]
      refine ⟨_, _, hrun.snoc (noted_of_step hpop) trivial, ?_⟩
      intro h
      exact h.defined rfl
  | some top =>
      have hempty : s.queue.isEmpty = false := by
        cases hisEmpty : s.queue.isEmpty with
        | false => rfl
        | true =>
            have hnone := PriorityQueue.top_eq_none.mpr (PriorityQueue.isEmpty_iff.mp hisEmpty)
            simp [hcase] at hnone
      obtain ⟨k, q, hq⟩ := s.queue.exists_pop
      have hpop : step { s with pc := .popping executable } (.work k false) =
          some { s with queue := q, pc := .running executable } := by
        simp [step, work, hempty, hq]
      refine ⟨_, _, hrun.snoc (noted_of_step hpop) trivial, ?_⟩
      intro h
      have hlast := congrArg List.getLast? h.popped
      simp only [record, hcase, Option.toList_some, List.map_append, List.map_singleton,
        List.getLast?_concat] at hlast
      exact htop (hcase.trans hlast)

/-- A function that comes before the one the worker is waiting for is pushed, and before the worker
is notified its wait times out: the new one is popped, and the old one is run. -/
theorem pops_another :
  ¬ ∀ (as : List (Label ℕ)) (x : Ledger ℕ × State ℕ),
    Run (noted step record) Free (Ledger.initial ℕ, initial ℕ) as x → Pops x.1 x.2
  := by
  obtain ⟨x, hrun, hpc, hholder, htop⟩ : ∃ x, Run (noted step record) Free
      (Ledger.initial ℕ, initial ℕ)
      (List.flatten [[.schedule 1 10, .push, .notify], List.replicate 5 (.work 0 false),
        [.tick 9000000, .schedule 2 0, .push, .tick 1000000, .timeout]]) x ∧
      (x.2.pc = .expired (.make 0 1 10) ∧ x.2.holder = none ∧
        x.2.queue.top ≠ some (.make 0 1 10)) := by
    apply exists_run_of_exec
    decide
  obtain ⟨as, y, hrun', hpops⟩ := exists_run_not_pops (l := x.1) hpc hholder htop
  intro h
  exact hpops (h _ y (hrun.trans hrun'))

end TimerScheduler

end Koroutine
