import Koroutine.Scheduler.Timer

/-!
# The end of the worker of `TimerScheduler`

`shutdown` writes `is_active` without `queue_lock`, and the worker waits on an empty queue without a
predicate.  A notification that comes when the worker has read `is_active` and is not waiting yet is
lost.
-/

open Sequence Transition

namespace Koroutine

namespace TimerScheduler

variable {F : Type*} {s t : State F} {a : Label F} {k : ℕ} {timed_out : Bool}

/-- `shutdown` has been called, no call is going on, and there is nothing left to run. -/
def Silent (s : State F) : Prop :=
  s.is_active = false ∧ s.notifies = 0 ∧ s.clearing = 0 ∧ s.holder = none ∧ s.queue.items = []

/-- The worker waits to be notified, and nobody is going to. -/
def Lost (s : State F) : Prop := Silent s ∧ s.pc = .blocked

instance [DecidableEq F] (s : State F) : Decidable (Silent s) :=
  inferInstanceAs (Decidable (_ ∧ _))

/-! ### How many steps there are -/

/-- How many steps the worker takes before it waits, or leaves the loop. -/
def Pc.rank : Pc F → ℕ
  | .blocked | .exited | .undefined => 0
  | .popping _ => 1
  | .expired _ => 2
  | .sleeping _ _ => 3
  | .timing _ _ => 4
  | .copying => 5
  | .locked => 6
  | .locking => 7
  | .testing_queue => 8
  | .testing_active => 9
  | .running _ | .rechecking | .woken_until _ _ => 10
  | .woken => 11

/-- How many steps the worker takes, if it runs what is in the queue. -/
def State.rank (s : State F) : ℕ :=
  s.pc.rank + 10 * s.queue.items.length + 11 * s.holder.toList.length

/-- How many more steps there are because of a step, itself included, if it is not one of the
worker. -/
def Label.credit : Label F → ℕ
  | .schedule _ _ | .notify | .wake => 12
  | .shutdown _ | .clear | .tick _ => 1
  | .push | .timeout | .work _ _ | .finish => 0

theorem next_rank {pc : Pc F} (h : Next s timed_out pc) :
  pc.rank + 1 ≤ s.pc.rank
  := by
  cases h with
  | finds hpc => obtain hpc | hpc := hpc <;> simp [hpc, Pc.rank]
  | active hpc | inactive hpc | leaves hpc | stays hpc | locks hpc | waits hpc | locks_again hpc
  | finds_none hpc | copies_none hpc | copies hpc | copies_due hpc | sleeps hpc | notified hpc
  | late hpc | expires hpc => simp [hpc, Pc.rank]

theorem wake_rank (pc : Pc F) :
  pc.wake.rank ≤ pc.rank + 11
  := by
  cases pc <;> simp [Pc.wake, Pc.rank]

theorem work_rank (h : Work s k timed_out t) :
  t.rank + 1 ≤ s.rank
  := by
  unfold State.rank
  cases h with
  | goes hpc =>
      have hrank := next_rank (next_cases hpc)
      dsimp only
      omega
  | pops_none hpc =>
      simp only [hpc, Pc.rank]
      omega
  | pops hpc htop hpop =>
      have hlength := (PriorityQueue.pop_perm hpop htop).length_eq
      rw [List.length_cons] at hlength
      simp only [hpc, Pc.rank]
      omega

theorem step_rank (e : step s a = some t) :
  t.rank + 1 ≤ s.rank + a.credit
  := by
  unfold State.rank
  cases effect e with
  | schedule hpc hholder =>
      simp only [hholder, Label.credit, Option.toList_some, Option.toList_none,
        List.length_singleton, List.length_nil]
      omega
  | @push call hholder =>
      have hlength := (PriorityQueue.push_perm (q := s.queue)
        (x := .make s.now call.func call.delay)).length_eq
      rw [List.length_cons] at hlength
      simp only [hholder, Label.credit, Option.toList_some, Option.toList_none,
        List.length_singleton, List.length_nil]
      omega
  | clear =>
      simp only [PriorityQueue.empty, Label.credit, List.length_nil]
      omega
  | notify | wake =>
      have hrank := wake_rank s.pc
      simp only [Label.credit]
      omega
  | timeout hpc | finish hpc =>
      simp only [hpc, Pc.rank, Label.credit]
      omega
  | work hwork =>
      have hrank := work_rank hwork
      unfold State.rank at hrank
      simp only [Label.credit]
      omega
  | schedule_refused | shutdown | shutdown_clearing | tick =>
      simp only [Label.credit]
      omega

/-- The steps of a run are those that its calls, notifications and ticks bring with them, and those
that the worker had to take anyway. -/
theorem length_le_rank {as : List (Label F)} (h : Run step Free s as t) :
  as.length ≤ s.rank + (as.map Label.credit).sum
  := by
  obtain ⟨m, -, hlength⟩ := h.length_le_of_rank (I := fun s n => s.rank = n) Label.credit (by
    rintro t a u _ rfl _ e
    exact ⟨u.rank, rfl, step_rank e⟩) rfl
  omega

/-! ### The condition -/

/-- The queue is not empty when a wait for an executable has timed out. -/
def Pc.Supplied (s : State F) (timed_out : Bool) : Pc F → Prop
  | .woken_until _ _ => timed_out = true → s.queue.items ≠ []
  | .expired _ => s.queue.items ≠ []
  | _ => True

/-- The last notification does not come between the worker's test of `is_active` and its wait on the
empty queue, and what the worker is to pop after a timeout has not been cleared. -/
def InTime (s : State F) : Label F → Prop
  | .notify => Silent { s with notifies := s.notifies - 1 } → s.pc ≠ .locking ∧ s.pc ≠ .locked
  | .work _ timed_out => s.pc.Supplied s timed_out
  | _ => True

instance [DecidableEq F] (s : State F) (timed_out : Bool) :
    (pc : Pc F) → Decidable (pc.Supplied s timed_out)
  | .woken_until _ _ => inferInstanceAs (Decidable (_ → _))
  | .expired _ => inferInstanceAs (Decidable (_ ≠ _))
  | .testing_active | .testing_queue | .locking | .locked | .blocked | .woken | .rechecking
  | .copying | .timing _ _ | .sleeping _ _ | .popping _ | .running _ | .exited | .undefined =>
      .isTrue trivial

instance [DecidableEq F] (s : State F) : (a : Label F) → Decidable (InTime s a)
  | .notify => inferInstanceAs (Decidable (_ → _))
  | .work _ timed_out => inferInstanceAs (Decidable (s.pc.Supplied s timed_out))
  | .schedule _ _ | .push | .shutdown _ | .clear | .wake | .timeout | .finish
  | .tick _ => .isTrue trivial

/-- What `TimerScheduler` is to guarantee. -/
structure Joins (s : State F) : Prop where
  /-- The worker does not wait for a notification that nobody makes. -/
  not_lost : ¬ Lost s
  /-- `top` and `pop` are not called on an empty queue. -/
  defined : s.pc ≠ .undefined
  /-- After `shutdown` the worker goes on when it can lock `queue_lock`, unless it is waiting for
  the time of an executable, or for a notification that is to come. -/
  goes_on : s.is_active = false → s.holder = none →
    (∃ k timed_out t, step s (.work k timed_out) = some t) ∨
    (∃ executable, s.pc = .running executable) ∨
    (∃ executable deadline, s.pc = .sleeping executable deadline) ∨ s.pc = .exited ∨
    s.pc = .blocked ∧ (0 < s.notifies ∨ 0 < s.clearing)
  /-- It leaves the loop when there is nothing left to run. -/
  drained : ∀ k timed_out t, step s (.work k timed_out) = some t → t.pc = .exited →
    t.is_active = false ∧ t.queue.items = []
  /-- There is a bound on the steps that it takes before. -/
  ends : ∀ as t, Run step Free s as t → as.length ≤ s.rank + (as.map Label.credit).sum

/-! ### Where the worker is -/

/-- What is known where the worker is. -/
def Pc.Awake (s : State F) : Pc F → Prop
  | .testing_queue => s.is_active = false
  | .locking | .locked | .blocked => ¬ Silent s
  | .copying | .popping _ => s.queue.items ≠ []
  | .undefined => False
  | _ => True

theorem Pc.Awake.next {pc : Pc F} (h : s.pc.Awake s) (hmeets : s.pc.Supplied s timed_out)
    (hpc : Next s timed_out pc) :
  pc.Awake s
  := by
  cases hpc with
  | active _ hactive =>
      rintro ⟨hinactive, -⟩
      simp [hinactive] at hactive
  | inactive _ hactive => apply hactive
  | stays _ hqueue =>
      rintro ⟨-, -, -, -, hitems⟩
      exact hqueue hitems
  | locks hcase | waits hcase =>
      rw [hcase] at h
      apply h
  | finds _ hqueue => apply hqueue
  | copies_none hcase hqueue =>
      rw [hcase] at h
      exact h hqueue
  | copies_due hcase =>
      rw [hcase] at h
      apply h
  | late hcase _ htimed_out =>
      rw [hcase] at hmeets
      exact hmeets htimed_out
  | expires hcase =>
      rw [hcase] at hmeets
      apply hmeets
  | leaves | locks_again | finds_none | copies | sleeps | notified => trivial

theorem Pc.Awake.work (h : s.pc.Awake s) (hmeets : s.pc.Supplied s timed_out)
    (hwork : Work s k timed_out t) :
  t.pc.Awake t
  := by
  cases hwork with
  | goes hpc => exact h.next hmeets (next_cases hpc)
  | pops_none hpc hqueue =>
      rw [hpc] at h
      contradiction
  | pops => trivial

/-- A step after which there is a call going on, or something to run. -/
theorem Pc.Awake.call {pc : Pc F} (h : pc.Awake s) (hsilent : ¬ Silent t)
    (hactive : s.is_active = false → t.is_active = false)
    (hitems : pc.holds = true → s.queue.items ≠ [] → t.queue.items ≠ []) :
  pc.Awake t
  := by
  cases pc with
  | testing_queue => exact hactive h
  | locking | locked | blocked => apply hsilent
  | copying | popping => exact hitems rfl h
  | undefined => contradiction
  | _ => trivial

theorem Pc.Awake.step (h : s.pc.Awake s) (hmeets : InTime s a) (e : step s a = some t) :
  t.pc.Awake t
  := by
  cases effect e with
  | schedule hpc hholder hactive =>
      refine h.call ?_ (fun hinactive => hinactive) (fun _ hitems => hitems)
      rintro ⟨hinactive, -⟩
      change s.is_active = false at hinactive
      simp [hinactive] at hactive
  | schedule_refused => apply h
  | push =>
      refine h.call ?_ (fun hinactive => hinactive) (fun _ _ => PriorityQueue.push_ne_nil)
      rintro ⟨-, -, -, -, hitems⟩
      exact PriorityQueue.push_ne_nil hitems
  | shutdown =>
      refine h.call ?_ (fun _ => rfl) (fun _ hitems => hitems)
      rintro ⟨-, hnotifies, -⟩
      contradiction
  | shutdown_clearing =>
      refine h.call ?_ (fun _ => rfl) (fun _ hitems => hitems)
      rintro ⟨-, -, hclearing, -⟩
      contradiction
  | clear hclearing hpc =>
      refine h.call ?_ (fun hinactive => hinactive) ?_
      · rintro ⟨-, hnotifies, -⟩
        contradiction
      · intro hholds
        simp [hpc] at hholds
  | notify =>
      change s.pc.wake.Awake _
      cases hcase : s.pc with
      | blocked => trivial
      | locking =>
          intro hsilent
          exact (hmeets hsilent).1 hcase
      | locked =>
          intro hsilent
          exact (hmeets hsilent).2 hcase
      | _ =>
          rw [hcase] at h
          apply h
  | wake =>
      change s.pc.wake.Awake _
      cases hcase : s.pc with
      | blocked => trivial
      | _ =>
          rw [hcase] at h
          apply h
  | timeout | finish => trivial
  | work hwork => exact h.work hmeets hwork
  | tick =>
      change s.pc.Awake _
      cases hcase : s.pc <;> rw [hcase] at h <;> apply h

/-! ### The runs -/

theorem Pc.Awake.goes_on (h : s.pc.Awake s) (hlocked : Locked s) (hactive : s.is_active = false)
    (hholder : s.holder = none) :
  (∃ k timed_out t, TimerScheduler.step s (.work k timed_out) = some t) ∨
    (∃ executable, s.pc = .running executable) ∨
    (∃ executable deadline, s.pc = .sleeping executable deadline) ∨ s.pc = .exited ∨
    s.pc = .blocked ∧ (0 < s.notifies ∨ 0 < s.clearing)
  := by
  obtain hstep | hrunning | hsleeping | hexited | hundefined | hblocked :=
    TimerScheduler.goes_on hholder
  · exact .inl hstep
  · exact .inr (.inl hrunning)
  · exact .inr (.inr (.inl hsleeping))
  · exact .inr (.inr (.inr (.inl hexited)))
  · rw [hundefined] at h
    contradiction
  · right
    right
    right
    right
    refine ⟨hblocked, ?_⟩
    by_cases hitems : s.queue.items = []
    · rw [hblocked] at h
      have hcalls : s.notifies = 0 → s.clearing ≠ 0 := by
        intro hnotifies hclearing
        exact h ⟨hactive, hnotifies, hclearing, hholder, hitems⟩
      omega
    · exact .inl (hlocked.noticed hblocked hitems)

theorem Pc.Awake.drained (h : s.pc.Awake s)
    (hstep : TimerScheduler.step s (.work k timed_out) = some t) (hpc : t.pc = .exited) :
  t.is_active = false ∧ t.queue.items = []
  := by
  cases work_effect hstep with
  | goes hnext =>
      obtain rfl := hpc
      cases next_cases hnext with
      | leaves hcase hqueue =>
          rw [hcase] at h
          exact ⟨h, hqueue⟩
  | pops_none | pops => contradiction

/-- In a run in which the notifications come in time, the worker does not wait for one in vain after
`shutdown`, and leaves the loop when it has run what there is left to run. -/
theorem joins_of_run {as : List (Label F)} (h : Run step (Meets InTime) (initial F) as s) :
  Joins s
  := by
  have hinvariant : Locked s ∧ s.pc.Awake s := by
    apply h.invariant fun s => Locked s ∧ s.pc.Awake s
    · rintro s a t ⟨hlocked, hawake⟩ hmeets hstep
      exact ⟨hlocked.step hstep, hawake.step hmeets hstep⟩
    · exact ⟨Locked.initial, trivial⟩
  obtain ⟨hlocked, hawake⟩ := hinvariant
  constructor
  · rintro ⟨hsilent, hblocked⟩
    rw [hblocked] at hawake
    exact hawake hsilent
  · intro hundefined
    rw [hundefined] at hawake
    contradiction
  · apply hawake.goes_on hlocked
  · intro k timed_out t hstep
    apply hawake.drained hstep
  · intro bs t
    apply length_le_rank

/-- The scheduler is shut down while the worker waits on the empty queue. -/
theorem joins_blocked :
  ∃ as s, Run step (Meets InTime) (initial ℕ) as s ∧ Joins s ∧ s.pc = .exited
  := by
  obtain ⟨s, hrun, hexited⟩ : ∃ s, Run step (Meets InTime) (initial ℕ)
      (List.flatten [List.replicate 3 (.work 0 false), [.shutdown true, .notify],
        List.replicate 4 (.work 0 false)]) s ∧ s.pc = .exited := by
    apply exists_run_of_exec_guarded
    decide
  exact ⟨_, s, hrun, joins_of_run hrun, hexited⟩

/-- When the last notification comes late, the worker goes on to wait for it. -/
theorem exists_run_lost (hsilent : Silent s) (hpc : s.pc = .locking ∨ s.pc = .locked) :
  ∃ as t, Run step Free s as t ∧ Lost t
  := by
  have hlocked : ∃ as, Run step Free s as { s with pc := .locked } := by
    obtain hlocking | hlocked := hpc
    · use [.work 0 false]
      apply Run.single _ trivial
      simp [step, work, State.next, hlocking, hsilent.2.2.2.1]
    · use []
      rw [← hlocked]
      apply Run.nil
  obtain ⟨as, hrun⟩ := hlocked
  have hblocked : step { s with pc := .locked } (.work 0 false) =
      some { s with pc := .blocked } := by
    simp [step, work, State.next, PriorityQueue.isEmpty, hsilent.2.2.2.2]
  exact ⟨_, _, hrun.snoc hblocked trivial, hsilent, rfl⟩

/-- The worker has read that the scheduler is active, which is shut down before the worker waits. -/
theorem lost_after_shutdown :
  ¬ ∀ (as : List (Label ℕ)) (s : State ℕ), Run step Free (initial ℕ) as s → Joins s
  := by
  obtain ⟨s, hrun, hsilent, hpc⟩ : ∃ s, Run step Free (initial ℕ)
      [.work 0 false, .shutdown true, .notify] s ∧ (Silent s ∧ s.pc = .locking) := by
    apply exists_run_of_exec
    decide
  obtain ⟨as, t, hrun', hlost⟩ := exists_run_lost hsilent (.inl hpc)
  intro h
  exact (h _ t (hrun.trans hrun')).not_lost hlost

end TimerScheduler

end Koroutine
