import Mathlib.Data.Multiset.AddSub
import Koroutine.Executor.ThreadPool
import Koroutine.Transition.Parties
import Koroutine.Transition.Run

/-!
# A pool runs what it accepts

Functions leave `tasks_` in the order in which they entered it, and each is run by one worker.  A
worker exits only when `stop_` is set and `tasks_` is empty, after which nothing is accepted any
more: when `shutdown` has joined the workers, everything accepted has been run.

A worker waits only while `tasks_` is empty, and a function that enters `tasks_` brings a
notification.  As a worker that is not waiting looks at `tasks_` before it does, no function is left
behind while all workers wait and no notification is outstanding.
-/

open Transition

namespace Koroutine.ThreadPool

variable {n : ℕ} {F : Type*} {s t : State n F}

/-- The function a worker is running. -/
def Worker.job : Worker F → Multiset F
  | .running f => {f}
  | _ => 0

/-- The functions that are being run. -/
def State.running (s : State n F) : Multiset F := ∑ w, (s.worker w).job

/-- What is taken from `tasks_` is the first part of what was accepted, and has been run or is being
run.  While a worker waits or has exited `tasks_` is empty, except where a notification is
outstanding or another worker is not waiting. -/
structure Serving (s : State n F) : Prop where
  order : s.taken ++ s.tasks = s.accepted
  ran : (s.finished : Multiset F) + s.running = s.taken
  checked : ∀ w, (s.worker w).isChecked = true → s.tasks = []
  exited : ∀ w, (s.worker w).isExited = true → s.stop = true ∧ s.tasks = []
  awake : s.tasks ≠ [] → 0 < s.notifies ∨ ∃ w, (s.worker w).isBlocked = false
  returned : s.shutdown = .returned → ∀ w, (s.worker w).isExited = true

theorem Serving.initial :
  Serving (initial n F)
  := by
  constructor <;> simp [ThreadPool.initial, State.running, Worker.job, Worker.isChecked,
    Worker.isExited]

/-! ### What the steps change -/

/-- A step that leaves `tasks_` and the workers as they are. -/
theorem Serving.congr (hs : Serving s) (htasks : t.tasks = s.tasks) (hworker : t.worker = s.worker)
    (hnotifies : t.notifies = s.notifies) (haccepted : t.accepted = s.accepted)
    (htaken : t.taken = s.taken) (hfinished : t.finished = s.finished)
    (hstop : s.stop = true → t.stop = true)
    (hreturned : t.shutdown = .returned → ∀ w, (s.worker w).isExited = true) :
  Serving t
  := by
  constructor
  · rw [htaken, htasks, haccepted]
    apply hs.order
  · rw [hfinished, htaken, State.running, hworker]
    apply hs.ran
  · rw [hworker, htasks]
    apply hs.checked
  · intro w hw
    rw [hworker] at hw
    rw [htasks]
    exact ⟨hstop (hs.exited w hw).1, (hs.exited w hw).2⟩
  · rw [hworker, htasks, hnotifies]
    apply hs.awake
  · rw [hworker]
    apply hreturned

/-- A function is accepted, and a notification is outstanding. -/
theorem Serving.accept {f : F} (hs : Serving s) (hfree : s.queueFree) (hstop : s.stop = false) :
  Serving (s.accept f)
  := by
  constructor
  · simp only [State.accept]
    rw [← List.append_assoc, hs.order]
  · apply hs.ran
  · intro w hw
    have := hfree w
    rw [State.accept, this] at hw
    contradiction
  · intro w hw
    have := (hs.exited w hw).1
    rw [hstop] at this
    contradiction
  · intro _
    left
    apply Nat.succ_pos
  · apply hs.returned

/-- What the workers run, after worker `w` goes on. -/
theorem running_goTo (w : Fin n) (x : Worker F) :
  (s.goTo w x).running + (s.worker w).job = s.running + x.job
  := sum_update_add Finset.univ Worker.job s.worker (Finset.mem_univ w) x

/-- A worker that has not exited goes on without taking a function. -/
theorem Serving.goTo {w : Fin n} {x : Worker F} {notifies : ℕ} (hs : Serving s)
    (hold : (s.worker w).isExited = false) (hjob : x.job = (s.worker w).job)
    (hchecked : x.isChecked = true → s.tasks = []) (hblocked : x.isBlocked = true → s.tasks = [])
    (hexited : x.isExited = true → s.stop = true ∧ s.tasks = []) :
  Serving { s.goTo w x with notifies := notifies }
  := by
  have hrunning := running_goTo (s := s) w x
  rw [hjob, add_left_inj] at hrunning
  have hcases : ∀ v, Function.update s.worker w x v = x ∨
      Function.update s.worker w x v = s.worker v := by
    intro v
    by_cases hv : v = w
    · rw [hv, Function.update_self]
      left
      rfl
    · rw [Function.update_of_ne hv]
      right
      rfl
  constructor
  · apply hs.order
  · change (s.finished : Multiset F) + (s.goTo w x).running = s.taken
    rw [hrunning, hs.ran]
  · intro v hv
    obtain heq | heq := hcases v <;> simp only [State.goTo, heq] at hv ⊢
    · apply hchecked hv
    · apply hs.checked v hv
  · intro v hv
    obtain heq | heq := hcases v <;> simp only [State.goTo, heq] at hv ⊢
    · apply hexited hv
    · apply hs.exited v hv
  · intro hne
    right
    use w
    simp only [State.goTo, Function.update_self]
    apply Bool.eq_false_iff.mpr
    intro hx
    apply hne (hblocked hx)
  · intro hreturned
    rw [hs.returned hreturned w] at hold
    contradiction

/-- A worker leaves the wait. -/
theorem Serving.leave {w : Fin n} {notifies : ℕ} (hs : Serving s)
    (hw : (s.worker w).isBlocked = true) :
  Serving { s.goTo w .entering with notifies := notifies }
  := by
  have hblocked : s.worker w = .blocked := by
    cases hx : s.worker w <;> rw [hx] at hw <;> trivial
  apply hs.goTo
  · rw [hblocked]
    rfl
  · rw [hblocked]
    rfl
  · intro hx
    contradiction
  · intro hx
    contradiction
  · intro hx
    contradiction

/-- A worker takes the first function and runs it. -/
theorem Serving.take {w : Fin n} {f : F} {tasks : List F} (hs : Serving s)
    (hw : s.worker w = .entering) (htasks : s.tasks = f :: tasks) :
  Serving (s.take w f tasks)
  := by
  have hrunning := running_goTo (s := s) w (.running f)
  simp only [hw, Worker.job, add_zero] at hrunning
  constructor
  · have horder := hs.order
    rw [htasks] at horder
    simpa [State.take, State.goTo] using horder
  · change (s.finished : Multiset F) + (s.goTo w (.running f)).running = ↑(s.taken ++ [f])
    rw [hrunning, ← add_assoc, hs.ran, ← Multiset.coe_add, Multiset.coe_singleton]
  · intro v hv
    by_cases hvw : v = w
    · simp [State.take, State.goTo, hvw, Worker.isChecked] at hv
    · simp only [State.take, State.goTo, Function.update_of_ne hvw] at hv
      have hnil := hs.checked v hv
      rw [htasks] at hnil
      contradiction
  · intro v hv
    by_cases hvw : v = w
    · simp [State.take, State.goTo, hvw, Worker.isExited] at hv
    · simp only [State.take, State.goTo, Function.update_of_ne hvw] at hv
      have hnil := (hs.exited v hv).2
      rw [htasks] at hnil
      contradiction
  · intro _
    right
    use w
    simp [State.take, State.goTo, Worker.isBlocked]
  · intro hreturned
    have hexited := hs.returned hreturned w
    rw [hw] at hexited
    contradiction

/-- A worker has run its function. -/
theorem Serving.finish {w : Fin n} {f : F} (hs : Serving s) (hw : s.worker w = .running f) :
  Serving { s.goTo w .entering with finished := s.finished ++ [f] }
  := by
  have hrunning := running_goTo (s := s) w .entering
  rw [hw] at hrunning
  simp only [Worker.job, add_zero] at hrunning
  constructor
  · apply hs.order
  · change (↑(s.finished ++ [f]) : Multiset F) + (s.goTo w .entering).running = s.taken
    rw [← hs.ran, ← hrunning, ← Multiset.coe_add, Multiset.coe_singleton, add_assoc,
      add_comm ({f} : Multiset F)]
  · intro v hv
    by_cases hvw : v = w
    · simp [State.goTo, hvw, Worker.isChecked] at hv
    · simp only [State.goTo, Function.update_of_ne hvw] at hv
      apply hs.checked v hv
  · intro v hv
    by_cases hvw : v = w
    · simp [State.goTo, hvw, Worker.isExited] at hv
    · simp only [State.goTo, Function.update_of_ne hvw] at hv
      apply hs.exited v hv
  · intro _
    right
    use w
    simp [State.goTo, Worker.isBlocked]
  · intro hreturned
    have hexited := hs.returned hreturned w
    rw [hw] at hexited
    contradiction

/-- `notify_all` makes every worker leave the wait. -/
theorem Serving.notifyAll (hs : Serving s) :
  Serving { s with worker := fun w => (s.worker w).wake, shutdown := .notified_workers }
  := by
  have hjob : ∀ w : Worker F, w.wake.job = w.job ∧ w.wake.isChecked = w.isChecked ∧
      w.wake.isExited = w.isExited ∧ w.wake.isBlocked = false := by
    intro w
    cases w <;> exact ⟨rfl, rfl, rfl, rfl⟩
  constructor
  · apply hs.order
  · have hran := hs.ran
    simpa only [State.running, hjob] using hran
  · intro w hw
    rw [(hjob _).2.1] at hw
    apply hs.checked w hw
  · intro w hw
    rw [(hjob _).2.2.1] at hw
    apply hs.exited w hw
  · intro hne
    obtain hnotifies | ⟨w, -⟩ := hs.awake hne
    · left
      apply hnotifies
    · right
      use w
      apply (hjob _).2.2.2
  · intro hreturned
    contradiction

/-! ### The steps -/

/-- A worker that is not running a function looks at `tasks_`, waits, or exits. -/
theorem Serving.workerStep {w : Fin n} (hs : Serving s) (h : workerStep s w = some t) :
  Serving t
  := by
  cases workerStep_effect h with
  | take f tasks hw htasks => apply hs.take hw htasks
  | exit hw htasks hstop =>
      apply hs.goTo
      case hold => rw [hw]; rfl
      case hjob => rw [hw]; rfl
      case hchecked => simp [Worker.isChecked]
      case hblocked => simp [Worker.isBlocked]
      case hexited => exact fun _ => ⟨hstop, htasks⟩
  | check hw htasks hstop =>
      apply hs.goTo
      case hold => rw [hw]; rfl
      case hjob => rw [hw]; rfl
      case hchecked => exact fun _ => htasks
      case hblocked => simp [Worker.isBlocked]
      case hexited => simp [Worker.isExited]
  | wait hw =>
      have hnil : s.tasks = [] := by
        apply hs.checked w
        rw [hw]
        rfl
      apply hs.goTo
      case hold => rw [hw]; rfl
      case hjob => rw [hw]; rfl
      case hchecked => simp [Worker.isChecked]
      case hblocked => exact fun _ => hnil
      case hexited => simp [Worker.isExited]

/-- The timer thread accepts what it passes to `execute`, unless `stop_` is set. -/
theorem Serving.pass {f : F} (hs : Serving s) (hfree : s.queueFree) :
  Serving (s.pass f)
  := by
  unfold State.pass
  split
  · exact hs.congr rfl rfl rfl rfl rfl rfl id hs.returned
  · rename_i hstop
    have haccept := hs.accept (f := f) hfree (Bool.eq_false_iff.mpr hstop)
    exact haccept.congr rfl rfl rfl rfl rfl rfl id haccept.returned

theorem Serving.timerStep {k : ℕ} (hs : Serving s) (h : timerStep s k = some t) :
  Serving t
  := by
  cases timerStep_effect h with
  | goTo | look => exact hs.congr rfl rfl rfl rfl rfl rfl id hs.returned
  | pass f htimer hfree => apply hs.pass hfree

/-- The call of `shutdown` returns after it has joined the workers. -/
theorem Serving.shutdownStep (hs : Serving s) (h : shutdownStep s = some t) :
  Serving t
  := by
  cases shutdownStep_effect h with
  | goTo shutdown hne =>
      exact hs.congr rfl rfl rfl rfl rfl rfl id fun hreturned => absurd hreturned hne
  | notifyWorkers => apply hs.notifyAll
  | notifyTimer => exact hs.congr rfl rfl rfl rfl rfl rfl id (by simp)
  | join hworkers htimer => exact hs.congr rfl rfl rfl rfl rfl rfl id fun _ => hworkers

/-- Every step of a pool with a worker preserves `Serving`. -/
theorem Serving.step {a : Label n F} (hn : 0 < n) (hs : Serving s) (h : step s a = some t) :
  Serving t
  := by
  cases a with
  | execute f =>
      simp only [ThreadPool.step, State.execute, Option.ite_none_right_eq_some,
        Option.some.injEq] at h
      obtain ⟨hfree, rfl⟩ := h
      split
      · apply hs
      · rename_i hstop
        have haccept := hs.accept (f := f) hfree (Bool.eq_false_iff.mpr hstop)
        exact haccept.congr rfl rfl rfl rfl rfl rfl id haccept.returned
  | execute_delayed f called_at ms =>
      simp only [ThreadPool.step, State.executeDelayed, Option.ite_none_right_eq_some,
        Option.some.injEq] at h
      obtain ⟨-, rfl⟩ := h
      split
      · apply hs
      · exact hs.congr rfl rfl rfl rfl rfl rfl id hs.returned
  | notify w =>
      cases w with
      | none =>
          simp only [ThreadPool.step, Option.ite_none_right_eq_some, Option.some.injEq] at h
          obtain ⟨⟨-, hnone⟩, rfl⟩ := h
          constructor
          · apply hs.order
          · apply hs.ran
          · apply hs.checked
          · apply hs.exited
          · intro _
            right
            exact ⟨⟨0, hn⟩, hnone _⟩
          · apply hs.returned
      | some w =>
          simp only [ThreadPool.step, Option.ite_none_right_eq_some, Option.some.injEq] at h
          obtain ⟨⟨-, hblocked⟩, rfl⟩ := h
          apply hs.leave hblocked
  | notify_timer =>
      simp only [ThreadPool.step, Option.ite_none_right_eq_some, Option.some.injEq] at h
      obtain ⟨-, rfl⟩ := h
      exact hs.congr rfl rfl rfl rfl rfl rfl id hs.returned
  | worker w => apply hs.workerStep h
  | finish w threw =>
      simp only [ThreadPool.step] at h
      split at h
      · rename_i f hw
        obtain rfl := Option.some.inj h
        apply hs.finish hw
      · contradiction
  | wake w =>
      simp only [ThreadPool.step, Option.ite_none_right_eq_some, Option.some.injEq] at h
      obtain ⟨hblocked, rfl⟩ := h
      apply hs.leave hblocked
  | timer k => apply hs.timerStep h
  | wake_timer | tick ms =>
      obtain rfl := Option.some.inj h
      exact hs.congr rfl rfl rfl rfl rfl rfl id hs.returned
  | call_shutdown =>
      simp only [ThreadPool.step] at h
      split at h
      · obtain rfl := Option.some.inj h
        apply hs
      · obtain rfl := Option.some.inj h
        exact hs.congr rfl rfl rfl rfl rfl rfl (fun _ => rfl) (by simp)
  | shutdown => apply hs.shutdownStep h

/-! ### After `shutdown` -/

/-- All workers have exited. -/
structure Down (s : State n F) : Prop where
  stop : s.stop = true
  tasks : s.tasks = []
  exited : ∀ w, (s.worker w).isExited = true

theorem Worker.eq_exited {w : Worker F} (h : w.isExited = true) :
  w = .exited
  := by
  cases w <;> trivial

/-- A step that leaves the workers as they are, and neither runs nor accepts a function. -/
theorem Down.congr (hs : Down s) (hstop : t.stop = s.stop) (htasks : t.tasks = s.tasks)
    (hworker : t.worker = s.worker) (hfinished : t.finished = s.finished)
    (haccepted : t.accepted = s.accepted) :
  Down t ∧ t.finished = s.finished ∧ t.accepted = s.accepted
  := by
  refine ⟨?_, hfinished, haccepted⟩
  constructor
  · rw [hstop, hs.stop]
  · rw [htasks, hs.tasks]
  · rw [hworker]
    apply hs.exited

/-- What the timer thread passes to `execute` is not accepted. -/
theorem Down.timerStep {k : ℕ} (hs : Down s) (h : timerStep s k = some t) :
  Down t ∧ t.finished = s.finished ∧ t.accepted = s.accepted
  := by
  cases timerStep_effect h with
  | goTo | look => exact hs.congr rfl rfl rfl rfl rfl
  | pass f htimer hfree =>
      rw [State.pass, if_pos hs.stop]
      exact hs.congr rfl rfl rfl rfl rfl

theorem Down.shutdownStep (hs : Down s) (h : shutdownStep s = some t) :
  Down t ∧ t.finished = s.finished ∧ t.accepted = s.accepted
  := by
  cases shutdownStep_effect h with
  | goTo | notifyTimer | join => exact hs.congr rfl rfl rfl rfl rfl
  | notifyWorkers =>
      apply hs.congr
      case hworker =>
        funext w
        have hw := Worker.eq_exited (hs.exited w)
        simp [hw, Worker.wake]
      all_goals rfl

/-- A pool whose workers have exited runs and accepts nothing more. -/
theorem Down.step {a : Label n F} (hs : Down s) (h : step s a = some t) :
  Down t ∧ t.finished = s.finished ∧ t.accepted = s.accepted
  := by
  have hworker : ∀ w, s.worker w = .exited := fun w => Worker.eq_exited (hs.exited w)
  cases a with
  | execute f =>
      simp only [ThreadPool.step, State.execute, hs.stop, if_true, Option.ite_none_right_eq_some,
        Option.some.injEq] at h
      obtain ⟨-, rfl⟩ := h
      exact ⟨hs, rfl, rfl⟩
  | execute_delayed f called_at ms =>
      simp only [ThreadPool.step, State.executeDelayed, hs.stop, if_true,
        Option.ite_none_right_eq_some, Option.some.injEq] at h
      obtain ⟨-, rfl⟩ := h
      exact ⟨hs, rfl, rfl⟩
  | notify w =>
      cases w with
      | none =>
          simp only [ThreadPool.step, Option.ite_none_right_eq_some, Option.some.injEq] at h
          obtain ⟨-, rfl⟩ := h
          exact hs.congr rfl rfl rfl rfl rfl
      | some w => simp [ThreadPool.step, hworker, Worker.isBlocked] at h
  | notify_timer =>
      simp only [ThreadPool.step, Option.ite_none_right_eq_some, Option.some.injEq] at h
      obtain ⟨-, rfl⟩ := h
      exact hs.congr rfl rfl rfl rfl rfl
  | worker w => simp [ThreadPool.step, ThreadPool.workerStep, hworker] at h
  | finish w threw => simp [ThreadPool.step, hworker] at h
  | wake w => simp [ThreadPool.step, hworker, Worker.isBlocked] at h
  | timer k => apply hs.timerStep h
  | wake_timer | tick ms =>
      obtain rfl := Option.some.inj h
      exact hs.congr rfl rfl rfl rfl rfl
  | call_shutdown =>
      simp only [ThreadPool.step, hs.stop, if_true, Option.some.injEq] at h
      subst h
      exact ⟨hs, rfl, rfl⟩
  | shutdown => apply hs.shutdownStep h

/-- Workers that have exited run nothing. -/
theorem Down.running_eq_zero (hs : Down s) :
  s.running = 0
  := by
  apply Finset.sum_eq_zero
  intro w _
  rw [Worker.eq_exited (hs.exited w)]
  rfl

theorem workerCount_pos (threads : ℕ) :
  0 < workerCount threads
  := by
  unfold workerCount
  split <;> omega

theorem serving_of_run (threads : ℕ) {as : List (Label (workerCount threads) F)}
    {s : State (workerCount threads) F}
    (h : Run step Free (initial (workerCount threads) F) as s) :
  Serving s
  := by
  apply h.invariant Serving _ Serving.initial
  intro s a t hs _ e
  apply hs.step (workerCount_pos threads) e

/-- `shutdown` returns after the workers have exited. -/
theorem Serving.down (hs : Serving s) (hn : 0 < n) (hreturned : s.shutdown = .returned) :
  Down s
  := by
  have hexited := hs.returned hreturned
  obtain ⟨hstop, htasks⟩ := hs.exited ⟨0, hn⟩ (hexited _)
  exact ⟨hstop, htasks, hexited⟩

/-- When the workers have exited, all that has been accepted has been run. -/
theorem Serving.all_finished (hs : Serving s) (hdown : Down s) :
  s.finished.Perm s.accepted
  := by
  apply Multiset.coe_eq_coe.mp
  rw [← hs.order, hdown.tasks, List.append_nil, ← hs.ran, hdown.running_eq_zero, add_zero]

/-- What a pool promises. -/
structure Serves (s : State n F) : Prop where
  /-- Functions are taken in the order in which they were accepted. -/
  order : s.taken ++ s.tasks = s.accepted
  /-- Each of them is run once. -/
  once : (s.finished : Multiset F) + s.running = s.taken
  /-- No function is left behind while all workers wait. -/
  awake : s.tasks ≠ [] → 0 < s.notifies ∨ ∃ w, (s.worker w).isBlocked = false
  /-- When `shutdown` has returned, all have been run, and no more are accepted. -/
  returned : s.shutdown = .returned → s.finished.Perm s.accepted ∧
    ∀ bs t, Run step Free s bs t → t.tasks = [] ∧ t.finished = s.finished ∧ t.accepted = s.accepted

/-- In every run of a pool the functions accepted are taken in order and run once each, none is left
behind, and all have been run when `shutdown` returns. -/
theorem serves_of_run (threads : ℕ) {as : List (Label (workerCount threads) F)}
    {s : State (workerCount threads) F}
    (h : Run step Free (initial (workerCount threads) F) as s) :
  Serves s
  := by
  have hs : Serving s := serving_of_run threads h
  constructor
  · apply hs.order
  · apply hs.ran
  · apply hs.awake
  · intro hreturned
    have hdown : Down s := hs.down (workerCount_pos threads) hreturned
    constructor
    · apply hs.all_finished hdown
    · intro bs t hrun
      have hafter : Down t ∧ t.finished = s.finished ∧ t.accepted = s.accepted := by
        apply hrun.invariant (fun t => Down t ∧ t.finished = s.finished ∧ t.accepted = s.accepted)
        · rintro u a v ⟨hu, hfinished, haccepted⟩ - e
          obtain ⟨hv, hfinished', haccepted'⟩ := hu.step e
          exact ⟨hv, hfinished'.trans hfinished, haccepted'.trans haccepted⟩
        · exact ⟨hdown, rfl, rfl⟩
      exact ⟨hafter.1.tasks, hafter.2⟩

/-- A pool of two workers with three functions, the first of which throws and the last of which is
accepted while the first is running.  `shutdown` returns after the other worker, which has been
waiting, has run it. -/
theorem serves_two :
  ∃ as s, Run step Free (initial (workerCount 2) ℕ) as s ∧ s.shutdown = .returned ∧
    s.accepted = [10, 11, 12] ∧ s.finished = [11, 10, 12] ∧ Serves s
  := by
  obtain ⟨s, hrun, hreturned, haccepted, hfinished⟩ :
      ∃ s, Run step Free (initial (workerCount 2) ℕ)
        [.execute 10, .worker (0 : Fin 2), .execute 11, .notify none, .worker (1 : Fin 2),
          .notify none, .finish (1 : Fin 2) false, .worker (1 : Fin 2), .worker (1 : Fin 2),
          .execute 12, .finish (0 : Fin 2) true, .notify (some (1 : Fin 2)), .call_shutdown,
          .worker (1 : Fin 2), .execute 13, .worker (0 : Fin 2), .shutdown, .shutdown, .shutdown,
          .finish (1 : Fin 2) false, .shutdown, .timer 0, .worker (1 : Fin 2), .shutdown] s ∧
      s.shutdown = .returned ∧ s.accepted = [10, 11, 12] ∧ s.finished = [11, 10, 12] := by
    apply exists_run_of_exec
    decide
  exact ⟨_, s, hrun, hreturned, haccepted, hfinished, serves_of_run 2 hrun⟩

end Koroutine.ThreadPool
