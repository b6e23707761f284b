import Koroutine.Executor.Looper

/-!
# Waiting for a delayed function

When `tasks_` is empty and no delayed function is due, `run_loop` calls `wait_for` with a predicate
that holds whenever there is a delayed function.  The call returns at once, and the iteration ends
without having run anything.
-/

open Sequence Transition

namespace Koroutine

namespace Looper

variable {F : Type*} {s t : State F} {a : Label F}

/-- A step that is no call of `execute`, `execute_delayed` or `shutdown`. -/
def Quiet (_ : State F) (a : Label F) : Prop :=
  match a with
  | .execute _ | .execute_delayed _ _ | .shutdown => False
  | _ => True

/-- Without a call, an iteration is not finished before one of the delayed functions is due. -/
def Waits (s : State F) : Prop :=
  ∀ as u a t, Run step (Meets Quiet) s as u → Quiet u a → step u a = some t →
    t.pc = .testing_active → ∃ x ∈ s.delayed_tasks.items, x.1 ≤ u.now

/-! ### With nothing to wait for -/

/-- The worker waits to be notified. -/
structure Idle (s : State F) : Prop where
  active : s.is_active = true
  tasks : s.tasks = []
  delayed_tasks : s.delayed_tasks.items = []
  pc : s.pc = .locking ∨ s.pc = .locked ∨ s.pc = .checking ∨ s.pc = .blocked ∨ s.pc = .woken

theorem Idle.next {pc : Pc F} (h : Idle s) (hpc : s.next = some pc) :
  pc = .locked ∨ pc = .checking ∨ pc = .blocked
  := by
  have hisEmpty : s.delayed_tasks.isEmpty = true := PriorityQueue.isEmpty_iff.mpr h.delayed_tasks
  obtain hcase | hcase | hcase | hcase | hcase := h.pc
  · simp [State.next, hcase] at hpc
    simp [← hpc]
  · simp [State.next, hcase, h.tasks, hisEmpty] at hpc
    simp [← hpc]
  · simp [State.next, hcase, h.active, State.has_pending_tasks, h.tasks, hisEmpty] at hpc
    simp [← hpc]
  · simp [State.next, hcase] at hpc
  · simp [State.next, hcase] at hpc
    simp [← hpc]

theorem Idle.step (h : Idle s) (hquiet : Quiet s a) (e : step s a = some t) :
  Idle t
  := by
  have hplace : ∀ {pc : Pc F}, s.pc = pc → pc = .locking ∨ pc = .locked ∨ pc = .checking ∨
      pc = .blocked ∨ pc = .woken := by
    intro pc hpc
    rw [← hpc]
    apply h.pc
  cases effect e with
  | execute | execute_delayed | shutdown => contradiction
  | notify | wake =>
      refine Idle.mk h.active h.tasks h.delayed_tasks ?_
      change s.pc.wake = _ ∨ s.pc.wake = _ ∨ s.pc.wake = _ ∨ s.pc.wake = _ ∨ s.pc.wake = _
      obtain hcase | hcase | hcase | hcase | hcase := h.pc <;> simp [hcase, Pc.wake]
  | timeout hpc | finish hpc => simpa using hplace hpc
  | work hwork =>
      cases hwork with
      | @goes pc hpc =>
          refine Idle.mk h.active h.tasks h.delayed_tasks ?_
          obtain hcase | hcase | hcase := h.next hpc
          · exact .inr (.inl hcase)
          · exact .inr (.inr (.inl hcase))
          · exact .inr (.inr (.inr (.inl hcase)))
      | starts hpc | moves hpc | ends hpc | finds_none hpc | takes hpc => simpa using hplace hpc
  | tick => exact ⟨h.active, h.tasks, h.delayed_tasks, h.pc⟩

/-- Without delayed functions the worker waits for a call. -/
theorem waits_of_idle (h : Idle s) :
  Waits s
  := by
  intro as u a t hrun hquiet e hpc
  have hidle : Idle u := by
    apply hrun.invariant Idle _ h
    intro s a t hs hmeets hstep
    apply hs.step hmeets hstep
  have hpc' := (hidle.step hquiet e).pc
  simp [hpc] at hpc'

/-! ### With something to wait for -/

/-- The worker takes a step. -/
theorem single_work (h : work s 0 = some t) :
  Run step (Meets Quiet) s [.work 0] t
  := Run.single h trivial

theorem work_next {pc : Pc F} (h : s.next = some pc) :
  Run step (Meets Quiet) s [.work 0] { s with pc := pc }
  := by
  apply single_work
  unfold work
  split
  · next hpc => simp [State.next, hpc] at h
  · next hpc => simp [State.next, hpc] at h
  · next hpc => simp [State.next, hpc] at h
  · rw [h]
    rfl

/-- `wait_for` returns at once, or is not called. -/
theorem exists_run_reading (hpc : s.pc = .looking) (htasks : s.tasks = [])
    (hdelayed : s.delayed_tasks.items ≠ []) :
  ∃ as, Run step (Meets Quiet) s as { s with pc := .reading_clock }
  := by
  cases htop : s.delayed_tasks.top with
  | none => exact absurd (PriorityQueue.top_eq_none.mp htop) hdelayed
  | some x =>
      have hpending : ∀ pc, State.has_pending_tasks { s with pc := pc } = true := by
        intro pc
        simp [State.has_pending_tasks, PriorityQueue.isEmpty, hdelayed]
      by_cases hwait : 0 < Clock.wrap (x.1 - s.now)
      · have hcall : s.next = some (.waiting_for (Clock.wrap (x.1 - s.now))) := by
          simp [State.next, hpc, htasks, htop, hwait]
        use [.work 0] ++ ([.work 0] ++ [.work 0])
        apply (work_next hcall).trans
        apply Run.trans (work_next rfl)
        apply work_next
        simp only [State.next, hpending, Bool.true_or, if_true]
      · use [.work 0]
        apply work_next
        simp [State.next, hpc, htasks, htop, hwait]

/-- With a delayed function the iteration ends before it is due. -/
theorem not_waits_of_delayed (hpc : s.pc = .locking) (htasks : s.tasks = [])
    (hfuture : ∀ x ∈ s.delayed_tasks.items, s.now < x.1) (hdelayed : s.delayed_tasks.items ≠ []) :
  ¬ Waits s
  := by
  have hlock : Run step (Meets Quiet) s [.work 0] { s with pc := .locked } := by
    apply work_next
    simp [State.next, hpc]
  have hlook : Run step (Meets Quiet) { s with pc := .locked } [.work 0]
      { s with pc := .looking } := by
    apply work_next
    simp [State.next, PriorityQueue.isEmpty, hdelayed]
  obtain ⟨as, hread⟩ := exists_run_reading (s := { s with pc := .looking }) rfl htasks hdelayed
  have hpass : Run step (Meets Quiet) { s with pc := .reading_clock } [.work 0]
      { s with pc := .moving s.now } := single_work rfl
  have hend : Run step (Meets Quiet) { s with pc := .moving s.now } [.work 0]
      { s with pc := .taking } := by
    apply single_work
    cases htop : s.delayed_tasks.top with
    | none => simp [work, htop]
    | some x =>
        have hlate := hfuture x (PriorityQueue.mem_of_top htop)
        simp [work, htop, hlate]
  have hfinish : step { s with pc := .taking } (.work 0) =
      some { s with pc := .testing_active } := by
    simp [step, work, htasks]
  intro h
  have hrun := (((hlock.trans hlook).trans hread).trans hpass).trans hend
  obtain ⟨x, hx, hdue⟩ := h _ _ (.work 0) _ hrun trivial hfinish rfl
  have hlate := hfuture x hx
  change x.1 ≤ s.now at hdue
  omega

/-- An iteration that starts while the executor is active, `tasks_` is empty and no delayed function
is due waits as it should exactly when there are no delayed functions. -/
theorem waits_iff (hpc : s.pc = .locking) (hactive : s.is_active = true) (htasks : s.tasks = [])
    (hfuture : ∀ x ∈ s.delayed_tasks.items, s.now < x.1) :
  Waits s ↔ s.delayed_tasks.items = []
  := by
  constructor
  · intro h
    by_contra hdelayed
    apply not_waits_of_delayed hpc htasks hfuture hdelayed h
  · intro hdelayed
    apply waits_of_idle
    exact ⟨hactive, htasks, hdelayed, .inl hpc⟩

/-- A new executor with one delayed function, at the start of its first iteration. -/
theorem waits_one :
  Waits { initial ℕ with
      delayed_tasks := PriorityQueue.empty.push (5000000, 7), pc := .locking } ↔
    [((5000000 : ℤ), (7 : ℕ))] = []
  := by
  apply waits_iff rfl rfl rfl
  decide

/-- A function is to be run in five milliseconds; the first iteration ends at once. -/
theorem spins_for_delayed :
  ¬ ∀ (as : List (Label ℕ)) (s : State ℕ), Run step Free (initial ℕ) as s → s.pc = .locking →
    s.is_active = true → s.tasks = [] → (∀ x ∈ s.delayed_tasks.items, s.now < x.1) → Waits s
  := by
  obtain ⟨s, hrun, hpc, hactive, htasks, hnow, hitems⟩ : ∃ s, Run step Free (initial ℕ)
      [.execute_delayed 7 5, .work 0] s ∧ (s.pc = .locking ∧ s.is_active = true ∧ s.tasks = [] ∧
        s.now = 0 ∧ s.delayed_tasks.items = [(5000000, 7)]) := by
    apply exists_run_of_exec
    decide
  have hfuture : ∀ x ∈ s.delayed_tasks.items, s.now < x.1 := by
    simp [hitems, hnow]
  intro h
  apply not_waits_of_delayed hpc htasks hfuture
  · simp [hitems]
  · apply h _ s hrun hpc hactive htasks hfuture

end Looper

end Koroutine
