import Mathlib.Data.List.Perm.Basic
import Mathlib.Tactic.Abel
import Koroutine.Executor.Draining

/-!
# Delayed functions and `shutdown`

After `stop_` is set the timer thread goes on until `delayed_tasks_` is empty, and passes what it
takes from there to `execute`.  But `execute` accepts nothing any more: every function that the
timer thread has not passed on by then is dropped.
-/

open Transition

namespace Koroutine.ThreadPool

variable {n : ℕ} {F : Type*} {s t : State n F}

/-- The function the timer thread is about to pass to `execute`. -/
def Timer.job : Timer F → Multiset F
  | .holding f => {f}
  | _ => 0

/-- The delayed functions that have not been accepted by `execute`: those in the heap, the one with
the timer thread, and those dropped. -/
def State.pending (s : State n F) : Multiset F :=
  ↑(s.delayed_tasks.map Prod.snd) + s.timer.job + ↑s.dropped

/-- `stop_` is set only when no delayed function is in the heap or with the timer thread. -/
def StopsIdle (s : State n F) : Label n F → Prop
  | .call_shutdown => s.stop = false → s.delayed_tasks = [] ∧ s.timer.job = 0
  | _ => True

/-- What a step does with functions, other than setting `stop_`: it accepts or passes on each once,
drops none before `stop_` is set, and accepts none after. -/
structure Moves (s t : State n F) : Prop where
  stop : t.stop = s.stop
  account : (t.accepted : Multiset F) + t.pending + (s.executed + s.delayed) =
    s.accepted + s.pending + (t.executed + t.delayed)
  before : s.stop = false → t.dropped = s.dropped
  after : s.stop = true → t.pending = s.pending

/-- A step that leaves all these functions where they are. -/
theorem Moves.of_same (hdelayed_tasks : t.delayed_tasks = s.delayed_tasks)
    (hjob : t.timer.job = s.timer.job) (hdropped : t.dropped = s.dropped)
    (haccepted : t.accepted = s.accepted) (hexecuted : t.executed = s.executed)
    (hdelayed : t.delayed = s.delayed) (hstop : t.stop = s.stop) :
  Moves s t
  := by
  have hpending : t.pending = s.pending := by
    rw [State.pending, hdelayed_tasks, hjob, hdropped, State.pending]
  constructor
  · apply hstop
  · rw [haccepted, hpending, hexecuted, hdelayed]
  · intro _
    apply hdropped
  · intro _
    apply hpending

theorem Timer.job_wake (x : Timer F) :
  x.wake.job = x.job
  := by
  cases x <;> rfl

theorem Timer.job_eq_zero {x : Timer F} (h : ∀ f, x ≠ .holding f) :
  x.job = 0
  := by
  cases x with
  | holding f => exact absurd rfl (h f)
  | _ => rfl

/-- The timer thread takes a function that is due. -/
theorem Moves.look {k : ℕ} {next_time : ℤ} {f : F} (htimer : s.timer = .entering)
    (hk : s.delayed_tasks[k]? = some (next_time, f)) :
  Moves s { s with delayed_tasks := s.delayed_tasks.eraseIdx k, timer := .holding f }
  := by
  obtain ⟨hlt, hget⟩ := List.getElem?_eq_some_iff.mp hk
  have hperm := (List.getElem_cons_eraseIdx_perm hlt).symm
  rw [hget] at hperm
  have hheap : (↑(s.delayed_tasks.map Prod.snd) : Multiset F) =
      ↑((s.delayed_tasks.eraseIdx k).map Prod.snd) + {f} := by
    rw [← Multiset.coe_singleton, Multiset.coe_add, Multiset.coe_eq_coe]
    apply (hperm.map Prod.snd).trans
    apply (List.perm_append_singleton f _).symm
  have hpending : State.pending
      { s with delayed_tasks := s.delayed_tasks.eraseIdx k, timer := .holding f } =
      s.pending := by
    have htaken : (Timer.holding f).job = {f} := rfl
    have hnone : (Timer.entering : Timer F).job = 0 := rfl
    simp only [State.pending, hheap, htimer, hnone, htaken, add_zero]
  constructor
  · rfl
  · rw [hpending]
  · intro _
    rfl
  · intro _
    apply hpending

/-- What the timer thread passes to `execute` is accepted or dropped. -/
theorem Moves.pass {f : F} (htimer : s.timer = .holding f) :
  Moves s (s.pass f)
  := by
  have hheld : s.timer.job = {f} := by
    rw [htimer]
    rfl
  have hnone : (Timer.entering : Timer F).job = 0 := rfl
  unfold State.pass
  split
  · rename_i hstop
    have hpending : State.pending { s with timer := .entering, dropped := s.dropped ++ [f] } =
        s.pending := by
      simp only [State.pending, hheld, hnone, ← Multiset.coe_add, Multiset.coe_singleton]
      abel
    constructor
    · rfl
    · rw [hpending]
    · intro hfalse
      rw [hstop] at hfalse
      contradiction
    · intro _
      apply hpending
  · rename_i hstop
    constructor
    · rfl
    · simp only [State.pending, State.accept, hheld, hnone, ← Multiset.coe_add,
        Multiset.coe_singleton]
      abel
    · intro _
      rfl
    · intro htrue
      contradiction

theorem Moves.timerStep {k : ℕ} (h : timerStep s k = some t) :
  Moves s t
  := by
  cases timerStep_effect h with
  | goTo x hbefore hempty hafter hexited =>
      have hjob : x.job = s.timer.job := by
        rw [Timer.job_eq_zero hafter, Timer.job_eq_zero hempty]
      exact .of_same rfl hjob rfl rfl rfl rfl rfl
  | look next_time f htimer hk hfirst hdue => apply Moves.look htimer hk
  | pass f htimer hfree => apply Moves.pass htimer

theorem Moves.workerStep {w : Fin n} (h : workerStep s w = some t) :
  Moves s t
  := by
  cases workerStep_effect h <;> exact .of_same rfl rfl rfl rfl rfl rfl rfl

theorem Moves.shutdownStep (h : shutdownStep s = some t) :
  Moves s t
  := by
  cases shutdownStep_effect h with
  | goTo | notifyWorkers | join => exact .of_same rfl rfl rfl rfl rfl rfl rfl
  | notifyTimer => exact .of_same rfl s.timer.job_wake rfl rfl rfl rfl rfl

/-- A function is accepted by `execute`. -/
theorem Moves.execute (f : F) :
  Moves s (s.execute f)
  := by
  unfold State.execute
  split
  · exact .of_same rfl rfl rfl rfl rfl rfl rfl
  · rename_i hstop
    constructor
    · rfl
    · simp only [State.pending, State.accept, ← Multiset.coe_add]
      abel
    · intro _
      rfl
    · intro htrue
      contradiction

/-- A function is accepted by `execute_delayed`. -/
theorem Moves.executeDelayed (f : F) (execute_at : ℤ) :
  Moves s (s.executeDelayed f execute_at)
  := by
  unfold State.executeDelayed
  split
  · exact .of_same rfl rfl rfl rfl rfl rfl rfl
  · rename_i hstop
    constructor
    · rfl
    · simp only [State.pending, List.map_append, List.map_singleton, ← Multiset.coe_add]
      abel
    · intro _
      rfl
    · intro htrue
      contradiction

/-- Every step but the one that sets `stop_` moves functions only so. -/
theorem moves_step {a : Label n F} (h : step s a = some t) (ha : a ≠ .call_shutdown) :
  Moves s t
  := by
  cases a with
  | execute f =>
      simp only [step, Option.ite_none_right_eq_some, Option.some.injEq] at h
      obtain ⟨-, rfl⟩ := h
      apply Moves.execute
  | execute_delayed f called_at ms =>
      simp only [step, Option.ite_none_right_eq_some, Option.some.injEq] at h
      obtain ⟨-, rfl⟩ := h
      apply Moves.executeDelayed
  | notify w =>
      cases w with
      | none | some w =>
          simp only [step, Option.ite_none_right_eq_some, Option.some.injEq] at h
          obtain ⟨-, rfl⟩ := h
          exact .of_same rfl rfl rfl rfl rfl rfl rfl
  | notify_timer =>
      simp only [step, Option.ite_none_right_eq_some, Option.some.injEq] at h
      obtain ⟨-, rfl⟩ := h
      exact .of_same rfl s.timer.job_wake rfl rfl rfl rfl rfl
  | worker w => apply Moves.workerStep h
  | finish w threw =>
      simp only [step] at h
      split at h
      · obtain rfl := Option.some.inj h
        exact .of_same rfl rfl rfl rfl rfl rfl rfl
      · contradiction
  | wake w =>
      simp only [step, Option.ite_none_right_eq_some, Option.some.injEq] at h
      obtain ⟨-, rfl⟩ := h
      exact .of_same rfl rfl rfl rfl rfl rfl rfl
  | timer k => apply Moves.timerStep h
  | wake_timer =>
      obtain rfl := Option.some.inj h
      exact .of_same rfl s.timer.job_wake rfl rfl rfl rfl rfl
  | tick ms =>
      obtain rfl := Option.some.inj h
      exact .of_same rfl rfl rfl rfl rfl rfl rfl
  | call_shutdown => contradiction
  | shutdown => apply Moves.shutdownStep h

/-! ### When the timer thread exits -/

/-- The timer thread exits when `stop_` is set and the heap is empty, and `shutdown` joins it. -/
structure TimerExits (s : State n F) : Prop where
  exited : s.timer.isExited = true → s.stop = true ∧ s.delayed_tasks = []
  returned : s.shutdown = .returned → s.timer.isExited = true

/-- A step that leaves the heap as it is, and the timer thread where it has exited. -/
theorem TimerExits.congr (hs : TimerExits s) (hdelayed_tasks : t.delayed_tasks = s.delayed_tasks)
    (htimer : t.timer.isExited = s.timer.isExited) (hstop : s.stop = true → t.stop = true)
    (hreturned : t.shutdown = .returned → s.timer.isExited = true) :
  TimerExits t
  := by
  constructor
  · intro h
    rw [htimer] at h
    rw [hdelayed_tasks]
    exact ⟨hstop (hs.exited h).1, (hs.exited h).2⟩
  · rw [htimer]
    apply hreturned

/-- A step of the timer thread before it has exited. -/
theorem TimerExits.move (hs : TimerExits s) (hbefore : s.timer.isExited = false)
    (hafter : t.timer.isExited = false) (hshutdown : t.shutdown = s.shutdown) :
  TimerExits t
  := by
  constructor
  · intro h
    rw [hafter] at h
    contradiction
  · intro h
    rw [hshutdown] at h
    rw [hs.returned h] at hbefore
    contradiction

theorem Timer.isExited_wake (x : Timer F) :
  x.wake.isExited = x.isExited
  := by
  cases x <;> rfl

theorem TimerExits.timerStep {k : ℕ} (hs : TimerExits s) (h : timerStep s k = some t) :
  TimerExits t
  := by
  cases timerStep_effect h with
  | goTo x hbefore hempty hafter hexited =>
      constructor
      · apply hexited
      · intro hreturned
        rw [hs.returned hreturned] at hbefore
        contradiction
  | look next_time f htimer hk hfirst hdue =>
      have hbefore : s.timer.isExited = false := by
        rw [htimer]
        rfl
      exact hs.move hbefore rfl rfl
  | pass f htimer hfree =>
      have hbefore : s.timer.isExited = false := by
        rw [htimer]
        rfl
      rw [State.pass]
      split
      · exact hs.move hbefore rfl rfl
      · exact hs.move hbefore rfl rfl

theorem TimerExits.shutdownStep (hs : TimerExits s) (h : shutdownStep s = some t) :
  TimerExits t
  := by
  cases shutdownStep_effect h with
  | goTo shutdown hne =>
      exact hs.congr rfl rfl id fun hreturned => absurd hreturned hne
  | notifyWorkers => exact hs.congr rfl rfl id (by simp)
  | notifyTimer => exact hs.congr rfl s.timer.isExited_wake id (by simp)
  | join hworkers htimer => exact hs.congr rfl rfl id fun _ => htimer

/-- Every step preserves `TimerExits`. -/
theorem TimerExits.step {a : Label n F} (hs : TimerExits s) (h : step s a = some t) :
  TimerExits t
  := by
  cases a with
  | execute f =>
      simp only [ThreadPool.step, State.execute, Option.ite_none_right_eq_some,
        Option.some.injEq] at h
      obtain ⟨-, rfl⟩ := h
      split
      · apply hs
      · exact hs.congr rfl rfl id hs.returned
  | execute_delayed f called_at ms =>
      simp only [ThreadPool.step, State.executeDelayed, Option.ite_none_right_eq_some,
        Option.some.injEq] at h
      obtain ⟨-, rfl⟩ := h
      split
      · apply hs
      · rename_i hstop
        have hbefore : s.timer.isExited = false := by
          apply Bool.eq_false_iff.mpr
          intro hexited
          apply hstop (hs.exited hexited).1
        exact hs.move hbefore hbefore rfl
  | notify w =>
      cases w with
      | none | some w =>
          simp only [ThreadPool.step, Option.ite_none_right_eq_some, Option.some.injEq] at h
          obtain ⟨-, rfl⟩ := h
          exact hs.congr rfl rfl id hs.returned
  | notify_timer =>
      simp only [ThreadPool.step, Option.ite_none_right_eq_some, Option.some.injEq] at h
      obtain ⟨-, rfl⟩ := h
      exact hs.congr rfl s.timer.isExited_wake id hs.returned
  | worker w => cases workerStep_effect h <;> exact hs.congr rfl rfl id hs.returned
  | finish w threw =>
      simp only [ThreadPool.step] at h
      split at h
      · obtain rfl := Option.some.inj h
        exact hs.congr rfl rfl id hs.returned
      · contradiction
  | wake w =>
      simp only [ThreadPool.step, Option.ite_none_right_eq_some, Option.some.injEq] at h
      obtain ⟨-, rfl⟩ := h
      exact hs.congr rfl rfl id hs.returned
  | timer k => apply hs.timerStep h
  | wake_timer =>
      obtain rfl := Option.some.inj h
      exact hs.congr rfl s.timer.isExited_wake id hs.returned
  | tick ms =>
      obtain rfl := Option.some.inj h
      exact hs.congr rfl rfl id hs.returned
  | call_shutdown =>
      simp only [ThreadPool.step] at h
      split at h
      · obtain rfl := Option.some.inj h
        apply hs
      · obtain rfl := Option.some.inj h
        exact hs.congr rfl rfl (fun _ => rfl) (by simp)
  | shutdown => apply hs.shutdownStep h

/-! ### What is dropped -/

theorem pending_eq_zero_iff :
  s.pending = 0 ↔ s.delayed_tasks = [] ∧ s.timer.job = 0 ∧ s.dropped = []
  := by
  simp [State.pending, and_assoc]

/-- The first call of `shutdown` sets `stop_`, and leaves the functions where they are. -/
theorem callShutdown_cases (h : step s .call_shutdown = some t) :
  (s.stop = true ∧ t = s) ∨ (s.stop = false ∧ t = { s with stop := true, shutdown := .stopping })
  := by
  simp only [step] at h
  split at h
  · rename_i hstop
    left
    exact ⟨hstop, (Option.some.inj h).symm⟩
  · rename_i hstop
    right
    exact ⟨Bool.eq_false_iff.mpr hstop, (Option.some.inj h).symm⟩

/-- What has been accepted, with what is pending, is what has been given to the executor. -/
def Accounted (s : State n F) : Prop :=
  (s.accepted : Multiset F) + s.pending = s.executed + s.delayed

theorem Accounted.step {a : Label n F} (hs : Accounted s) (h : step s a = some t) :
  Accounted t
  := by
  by_cases ha : a = .call_shutdown
  · subst ha
    obtain ⟨-, rfl⟩ | ⟨-, rfl⟩ := callShutdown_cases h <;> apply hs
  · have haccount := (moves_step h ha).account
    rw [hs, add_comm (s.executed + s.delayed : Multiset F), add_left_inj] at haccount
    apply haccount

/-- Nothing has been dropped, and nothing will be once `stop_` is set. -/
structure Spared (s : State n F) : Prop where
  dropped : s.dropped = []
  stopped : s.stop = true → s.pending = 0

/-- Something has been or will be dropped. -/
structure Spoiled (s : State n F) : Prop where
  stopped : s.stop = true
  pending : s.pending ≠ 0

/-- A step that meets the condition spares all functions. -/
theorem Spared.step {a : Label n F} (hs : Spared s) (ha : StopsIdle s a)
    (h : step s a = some t) :
  Spared t
  := by
  by_cases hcall : a = .call_shutdown
  · subst hcall
    obtain ⟨-, rfl⟩ | ⟨hstop, rfl⟩ := callShutdown_cases h
    · apply hs
    · constructor
      · apply hs.dropped
      · intro _
        apply pending_eq_zero_iff.mpr
        exact ⟨(ha hstop).1, (ha hstop).2, hs.dropped⟩
  · have hmoves := moves_step h hcall
    have hpending : t.stop = true → t.pending = 0 := by
      intro hstop
      rw [hmoves.stop] at hstop
      rw [hmoves.after hstop, hs.stopped hstop]
    refine ⟨?_, hpending⟩
    cases hstop : s.stop with
    | false => rw [hmoves.before hstop, hs.dropped]
    | true =>
        rw [← hmoves.stop] at hstop
        apply (pending_eq_zero_iff.mp (hpending hstop)).2.2

/-- A step that does not meet the condition leaves a function that will be dropped. -/
theorem spoiled_of_busy {a : Label n F} (ha : ¬ StopsIdle s a) (h : step s a = some t) :
  Spoiled t
  := by
  cases a with
  | call_shutdown =>
      simp only [StopsIdle, Classical.not_imp] at ha
      obtain ⟨hstop, hbusy⟩ := ha
      obtain ⟨htrue, -⟩ | ⟨-, rfl⟩ := callShutdown_cases h
      · rw [hstop] at htrue
        contradiction
      · constructor
        · rfl
        · intro hzero
          obtain ⟨hheap, hjob, -⟩ := pending_eq_zero_iff.mp hzero
          apply hbusy ⟨hheap, hjob⟩
  | _ => apply absurd trivial ha

theorem Spoiled.step {a : Label n F} (hs : Spoiled s) (h : step s a = some t) :
  Spoiled t
  := by
  by_cases hcall : a = .call_shutdown
  · subst hcall
    obtain ⟨-, rfl⟩ | ⟨hstop, -⟩ := callShutdown_cases h
    · apply hs
    · rw [hs.stopped] at hstop
      contradiction
  · have hmoves := moves_step h hcall
    constructor
    · rw [hmoves.stop, hs.stopped]
    · rw [hmoves.after hs.stopped]
      apply hs.pending

/-- In every run in which `shutdown` has returned, the functions accepted by `execute` and by
`execute_delayed` have been run, each once, exactly if no delayed function was in the heap or with
the timer thread when `stop_` was set. -/
theorem all_run_iff_stops_idle (threads : ℕ) {as : List (Label (workerCount threads) F)}
    {s : State (workerCount threads) F}
    (h : Run step Free (initial (workerCount threads) F) as s)
    (hreturned : s.shutdown = .returned) :
  s.finished.Perm (s.executed ++ s.delayed) ↔
    Run step (Meets StopsIdle) (initial (workerCount threads) F) as s
  := by
  have hserving : Serving s := serving_of_run threads h
  have hfinished : (s.finished : Multiset F) = s.accepted :=
    Multiset.coe_eq_coe.mpr (hserving.all_finished (hserving.down (workerCount_pos threads) hreturned))
  have haccount : Accounted s := by
    apply h.invariant Accounted
    · intro s a t hs _ e
      apply hs.step e
    · simp [Accounted, State.pending, ThreadPool.initial, Timer.job]
  have hperm : s.finished.Perm (s.executed ++ s.delayed) ↔ s.pending = 0 := by
    rw [← Multiset.coe_eq_coe, ← Multiset.coe_add, ← haccount, hfinished, left_eq_add]
  have hspared : Spared (initial (workerCount threads) F) := by
    constructor
    · rfl
    · intro hstop
      contradiction
  rw [hperm]
  constructor
  · intro hzero
    obtain ⟨hrun, -⟩ | hspoiled := h.meets_or_spoiled Spared Spoiled
      (fun s a t hs ha e => hs.step ha e) (fun s a t _ ha e => spoiled_of_busy ha e)
      (fun s a t hs e => hs.step e) hspared
    · apply hrun
    · apply absurd hzero hspoiled.pending
  · intro hrun
    have hs : Spared s := by
      apply hrun.invariant Spared _ hspared
      intro s a t hs ha e
      apply hs.step ha e
    have hexits : TimerExits s := by
      apply h.invariant TimerExits
      · intro s a t hs _ e
        apply hs.step e
      · constructor <;>
        · intro hexited
          contradiction
    apply hs.stopped
    apply (hexits.exited (hexits.returned hreturned)).1

/-- A function that is due before `shutdown` is called is run. -/
theorem all_run_one :
  ∃ as s, Run step Free (initial (workerCount 1) ℕ) as s ∧ s.shutdown = .returned ∧
    s.delayed = [7] ∧ (s.finished.Perm (s.executed ++ s.delayed) ↔
      Run step (Meets StopsIdle) (initial (workerCount 1) ℕ) as s)
  := by
  obtain ⟨s, hrun, hreturned, hdelayed⟩ : ∃ s, Run step Free (initial (workerCount 1) ℕ)
      [.execute_delayed 7 0 5, .notify_timer, .timer 0, .timer 0, .tick 5, .wake_timer, .timer 0,
        .timer 0, .call_shutdown, .timer 0, .worker (0 : Fin 1), .finish (0 : Fin 1) false,
        .worker (0 : Fin 1), .shutdown, .shutdown, .shutdown, .shutdown, .shutdown] s ∧
      s.shutdown = .returned ∧ s.delayed = [7] := by
    apply exists_run_of_exec
    decide
  exact ⟨_, s, hrun, hreturned, hdelayed, all_run_iff_stops_idle 1 hrun hreturned⟩

/-- A function that becomes due after `shutdown` is called is never run. -/
theorem dropped_one :
  ¬ ∀ (as : List (Label (workerCount 1) ℕ)) (s : State (workerCount 1) ℕ),
    Run step Free (initial (workerCount 1) ℕ) as s → s.shutdown = .returned →
    ∀ f ∈ s.delayed, s.finished.count f = s.delayed.count f
  := by
  intro hall
  obtain ⟨s, hrun, hreturned, hdelayed, hfinished⟩ : ∃ s, Run step Free (initial (workerCount 1) ℕ)
      [.execute_delayed 7 0 5, .notify_timer, .call_shutdown, .tick 5, .timer 0, .timer 0, .timer 0,
        .shutdown, .worker (0 : Fin 1), .shutdown, .shutdown, .shutdown, .shutdown] s ∧
      s.shutdown = .returned ∧ s.delayed = [7] ∧ s.finished = [] := by
    apply exists_run_of_exec
    decide
  have hcount := hall _ s hrun hreturned 7 (by simp [hdelayed])
  simp [hdelayed, hfinished] at hcount

end Koroutine.ThreadPool
