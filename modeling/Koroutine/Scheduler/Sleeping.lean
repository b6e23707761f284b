import Koroutine.Executor.Draining
import Koroutine.Scheduler.Duration
import Koroutine.Transition.Run
import Mathlib.Algebra.Order.Group.Int

/-!
# Sleeping on `SimpleScheduler`

A coroutine that awaits a delay is given to the pool of `SimpleScheduler`, which resumes it.  The
clock of the pool counts nanoseconds here; `execute_delayed` carries what its time point is after
the reading of the clock.
-/

open Transition

namespace Koroutine

namespace SimpleScheduler

/-- What a coroutine awaits: a duration, itself or in a `SleepAwaiter`; a `SleepAwaiter` of
milliseconds; or `schedule(ms)` of the scheduler. -/
inductive Await
  | duration (d : Duration)
  | sleep (ms : ℤ) (fits : Clock.Fits ms)
  | schedule (ms : ℤ) (fits : Clock.Fits ms)

/-- The delay that is passed to the scheduler. -/
def Await.delay_ms : Await → ℤ
  | .duration d => d.duration_cast
  | .sleep ms _ | .schedule ms _ => ms

/-- The coroutine goes on without being suspended. -/
def Await.await_ready : Await → Bool
  | .schedule ms _ => ms == 0
  | _ => false

variable {n : ℕ} {F : Type*}

/-- What `schedule` passes to the executor, which reads the clock in `execute_delayed`. -/
def schedule (request : F) (delay_ms now : ℤ) : ThreadPool.Label n F :=
  if 0 < delay_ms then .execute_delayed request now (Clock.timePoint now delay_ms - now)
  else .execute request

/-- What happens to the executor when a coroutine awaits. -/
def Await.label (x : Await) (request : F) (now : ℤ) : Option (ThreadPool.Label n F) :=
  if x.await_ready then none else some (SimpleScheduler.schedule request x.delay_ms now)

/-- The delay that the coroutine asks for, in nanoseconds. -/
def Await.requested : Await → ℚ
  | .duration d => d.milliseconds * 1000000
  | .sleep ms _ | .schedule ms _ => ms * 1000000

/-- A step that passes `request` to the executor only by the await, when the clock is at `now` or
later. -/
def Through (x : Await) (request : F) (now : ℤ) (s : ThreadPool.State n F)
    (a : ThreadPool.Label n F) : Prop :=
  match a with
  | .execute f => f = request → x.label request now = some a ∧ now ≤ s.now
  | .execute_delayed f _ _ => f = request → x.label request now = some a
  | _ => True

/-- In every run in which the await passes the coroutine to the executor, and nothing else does, the
coroutine is not resumed before the delay is over. -/
def NotEarly (threads : ℕ) (x : Await) (request : F) (now : ℤ) : Prop :=
  ∀ as s w, Run ThreadPool.step (Meets (Through x request now))
    (ThreadPool.initial (ThreadPool.workerCount threads) F) as s →
    s.worker w = .running request → now + x.requested ≤ s.now

/-- The delay is a whole number of milliseconds, which the cast computes without an overflow, and
the time at which it is over is a value of the clock. -/
structure Await.Exact (x : Await) (now : ℤ) : Prop where
  whole : ∃ ms : ℤ, x.requested = ms * 1000000
  product : ∀ d, x = .duration d → d.rep.Fits d.product
  clock : now + x.requested < 2 ^ 63

/-! ### When the coroutine can be resumed -/

/-- When the executor may resume the coroutine. -/
def Await.earliest (x : Await) (now : ℤ) : ℤ :=
  if 0 < x.delay_ms then max now (Clock.timePoint now x.delay_ms) else now

variable {s t : ThreadPool.State n F} {x : Await} {request : F} {now earliest : ℤ}

theorem earliest_of_execute {f : F}
    (h : x.label request now = some (.execute f : ThreadPool.Label n F)) :
  x.earliest now = now
  := by
  obtain ⟨-, hlabel⟩ := Option.ite_none_left_eq_some.mp h
  have hschedule := Option.some.inj hlabel
  unfold SimpleScheduler.schedule at hschedule
  split at hschedule
  · contradiction
  · next hdelay => rw [Await.earliest, if_neg hdelay]

theorem earliest_of_execute_delayed {f : F} {called_at ms : ℤ}
    (h : x.label request now = some (.execute_delayed f called_at ms : ThreadPool.Label n F)) :
  now = called_at ∧ x.earliest now = max called_at (called_at + ms)
  := by
  obtain ⟨-, hlabel⟩ := Option.ite_none_left_eq_some.mp h
  have hschedule := Option.some.inj hlabel
  unfold SimpleScheduler.schedule at hschedule
  split at hschedule
  · next hdelay =>
      obtain ⟨-, hnow, hms⟩ := ThreadPool.Label.execute_delayed.inj hschedule
      refine ⟨hnow, ?_⟩
      rw [Await.earliest, if_pos hdelay, ← hms, ← hnow, add_sub_cancel]
  · contradiction

/-- Wherever the coroutine is, it is not resumed before `earliest`. -/
structure Held (earliest : ℤ) (request : F) (s : ThreadPool.State n F) : Prop where
  delayed_tasks : ∀ due, (due, request) ∈ s.delayed_tasks → earliest ≤ due ∨ earliest ≤ s.now
  timer : s.timer = .holding request → earliest ≤ s.now
  tasks : request ∈ s.tasks → earliest ≤ s.now
  worker : ∀ w, s.worker w = .running request → earliest ≤ s.now

theorem Held.initial :
  Held earliest request (ThreadPool.initial n F)
  := by
  constructor <;> simp [ThreadPool.initial]

/-- A step that does not take the coroutine anywhere. -/
theorem Held.mono (h : Held earliest request s) (hnow : s.now ≤ t.now)
    (hdelayed : ∀ due, (due, request) ∈ t.delayed_tasks → (due, request) ∈ s.delayed_tasks)
    (htimer : t.timer = .holding request → s.timer = .holding request)
    (htasks : request ∈ t.tasks → request ∈ s.tasks)
    (hworker : ∀ w, t.worker w = .running request → s.worker w = .running request) :
  Held earliest request t
  := by
  constructor
  · intro due hmem
    obtain hdue | hpast := h.delayed_tasks due (hdelayed due hmem)
    · exact .inl hdue
    · exact .inr (hpast.trans hnow)
  · intro hholding
    apply (h.timer (htimer hholding)).trans hnow
  · intro hmem
    apply (h.tasks (htasks hmem)).trans hnow
  · intro w hrunning
    apply (h.worker w (hworker w hrunning)).trans hnow

theorem goTo_running {w v : Fin n} {y : ThreadPool.Worker F}
    (h : (s.goTo w y).worker v = .running request) (hy : y ≠ .running request) :
  s.worker v = .running request
  := by
  by_cases hv : v = w
  · subst hv
    simp only [ThreadPool.State.goTo, Function.update_self] at h
    contradiction
  · simpa [ThreadPool.State.goTo, Function.update_of_ne hv] using h

theorem wake_running {y : ThreadPool.Worker F} (h : y.wake = .running request) :
  y = .running request
  := by
  cases y <;> simp [ThreadPool.Worker.wake] at h ⊢
  apply h

theorem wake_holding {y : ThreadPool.Timer F} (h : y.wake = .holding request) :
  y = .holding request
  := by
  cases y <;> simp [ThreadPool.Timer.wake] at h ⊢
  apply h

/-- A worker moves, but does not take a function. -/
theorem Held.goTo {w : Fin n} {y : ThreadPool.Worker F} (h : Held earliest request s)
    (hy : y ≠ .running request) :
  Held earliest request (s.goTo w y)
  := h.mono (le_refl _) (fun _ hmem => hmem) (fun htimer => htimer) (fun hmem => hmem)
    (fun _ hrunning => goTo_running hrunning hy)

/-- The coroutine enters `tasks_`. -/
theorem Held.accept {f : F} (h : Held earliest request s)
    (hf : f = request → earliest ≤ s.now) :
  Held earliest request (s.accept f)
  := by
  constructor
  · apply h.delayed_tasks
  · apply h.timer
  · intro hmem
    obtain hold | hnew := List.mem_append.mp hmem
    · apply h.tasks hold
    · apply hf (List.mem_singleton.mp hnew).symm
  · apply h.worker

theorem Held.execute {f : F} (h : Held earliest request s) (hf : f = request → earliest ≤ s.now) :
  Held earliest request (s.execute f)
  := by
  unfold ThreadPool.State.execute
  split
  · apply h
  · have haccept := h.accept hf
    exact ⟨haccept.delayed_tasks, haccept.timer, haccept.tasks, haccept.worker⟩

theorem Held.executeDelayed {f : F} {execute_at : ℤ} (h : Held earliest request s)
    (hf : f = request → earliest ≤ execute_at ∨ earliest ≤ s.now) :
  Held earliest request (s.executeDelayed f execute_at)
  := by
  unfold ThreadPool.State.executeDelayed
  split
  · apply h
  · constructor
    · intro due hmem
      obtain hold | hnew := List.mem_append.mp hmem
      · apply h.delayed_tasks due hold
      · obtain ⟨rfl, hrequest⟩ := Prod.mk.inj (List.mem_singleton.mp hnew)
        apply hf hrequest.symm
    · apply h.timer
    · apply h.tasks
    · apply h.worker

theorem Held.workerStep {w : Fin n} (h : Held earliest request s)
    (hstep : ThreadPool.workerStep s w = some t) :
  Held earliest request t
  := by
  cases ThreadPool.workerStep_effect hstep with
  | take f tasks hw htasks =>
      have hmem : ∀ g, g = f ∨ g ∈ tasks → g ∈ s.tasks := by
        intro g hg
        rw [htasks]
        apply List.mem_cons.mpr hg
      constructor
      · apply h.delayed_tasks
      · apply h.timer
      · intro hrequest
        apply h.tasks (hmem request (.inr hrequest))
      · intro v hrunning
        by_cases hf : f = request
        · subst hf
          apply h.tasks (hmem f (.inl rfl))
        · apply h.worker v
          apply goTo_running hrunning
          simpa using hf
  | exit | check | wait =>
      apply h.goTo
      simp

theorem Held.timerStep {k : ℕ} (h : Held earliest request s)
    (hstep : ThreadPool.timerStep s k = some t) :
  Held earliest request t
  := by
  cases ThreadPool.timerStep_effect hstep with
  | goTo y hbefore hempty hafter =>
      refine h.mono (le_refl _) (fun _ hmem => hmem) ?_ (fun hmem => hmem)
        (fun _ hrunning => hrunning)
      intro hholding
      exact absurd hholding (hafter request)
  | look next_time f htimer hk hfirst hdue =>
      constructor
      · intro due hmem
        apply h.delayed_tasks due (List.mem_of_mem_eraseIdx hmem)
      · intro hholding
        obtain rfl := ThreadPool.Timer.holding.inj hholding
        obtain hlater | hpast := h.delayed_tasks next_time (List.mem_of_getElem? hk)
        · apply hlater.trans hdue
        · apply hpast
      · apply h.tasks
      · apply h.worker
  | pass f htimer =>
      unfold ThreadPool.State.pass
      split
      · refine h.mono (le_refl _) (fun _ hmem => hmem) ?_ (fun hmem => hmem)
          (fun _ hrunning => hrunning)
        intro hholding
        contradiction
      · have haccept : Held earliest request (s.accept f) := by
          apply h.accept
          rintro rfl
          apply h.timer htimer
        refine haccept.mono (le_refl _) (fun _ hmem => hmem) ?_ (fun hmem => hmem)
          (fun _ hrunning => hrunning)
        intro hholding
        contradiction

theorem Held.shutdownStep (h : Held earliest request s)
    (hstep : ThreadPool.shutdownStep s = some t) :
  Held earliest request t
  := by
  cases ThreadPool.shutdownStep_effect hstep with
  | goTo | join => exact ⟨h.delayed_tasks, h.timer, h.tasks, h.worker⟩
  | notifyWorkers =>
      refine ⟨h.delayed_tasks, h.timer, h.tasks, ?_⟩
      intro w hrunning
      apply h.worker w (wake_running hrunning)
  | notifyTimer =>
      exact ⟨h.delayed_tasks, fun hholding => h.timer (wake_holding hholding), h.tasks, h.worker⟩

theorem Held.step {a : ThreadPool.Label n F} (h : Held (x.earliest now) request s)
    (hthrough : Through x request now s a) (hstep : ThreadPool.step s a = some t) :
  Held (x.earliest now) request t
  := by
  cases a with
  | execute f =>
      obtain ⟨-, heq⟩ := Option.ite_none_right_eq_some.mp hstep
      obtain rfl := Option.some.inj heq
      apply h.execute
      intro hf
      obtain ⟨hlabel, hnow⟩ := hthrough hf
      rw [earliest_of_execute hlabel]
      apply hnow
  | execute_delayed f called_at ms =>
      obtain ⟨⟨hcalled_at, -⟩, heq⟩ := Option.ite_none_right_eq_some.mp hstep
      obtain rfl := Option.some.inj heq
      apply h.executeDelayed
      intro hf
      obtain ⟨-, hearliest⟩ := earliest_of_execute_delayed (hthrough hf)
      rw [hearliest]
      omega
  | notify w =>
      cases w with
      | none =>
          obtain ⟨-, heq⟩ := Option.ite_none_right_eq_some.mp hstep
          obtain rfl := Option.some.inj heq
          exact ⟨h.delayed_tasks, h.timer, h.tasks, h.worker⟩
      | some w =>
          obtain ⟨-, heq⟩ := Option.ite_none_right_eq_some.mp hstep
          obtain rfl := Option.some.inj heq
          have hgoTo : Held (x.earliest now) request (s.goTo w .entering) := h.goTo (by simp)
          exact ⟨hgoTo.delayed_tasks, hgoTo.timer, hgoTo.tasks, hgoTo.worker⟩
  | notify_timer =>
      obtain ⟨-, heq⟩ := Option.ite_none_right_eq_some.mp hstep
      obtain rfl := Option.some.inj heq
      exact ⟨h.delayed_tasks, fun hholding => h.timer (wake_holding hholding), h.tasks, h.worker⟩
  | worker w => exact h.workerStep hstep
  | finish w threw =>
      simp only [ThreadPool.step] at hstep
      split at hstep
      · obtain rfl := Option.some.inj hstep
        have hgoTo : Held (x.earliest now) request (s.goTo w .entering) := h.goTo (by simp)
        exact ⟨hgoTo.delayed_tasks, hgoTo.timer, hgoTo.tasks, hgoTo.worker⟩
      · contradiction
  | wake w =>
      obtain ⟨-, heq⟩ := Option.ite_none_right_eq_some.mp hstep
      obtain rfl := Option.some.inj heq
      apply h.goTo
      simp
  | timer k => exact h.timerStep hstep
  | wake_timer =>
      obtain rfl := Option.some.inj hstep
      exact ⟨h.delayed_tasks, fun hholding => h.timer (wake_holding hholding), h.tasks, h.worker⟩
  | tick ns =>
      obtain rfl := Option.some.inj hstep
      refine h.mono ?_ (fun _ hmem => hmem) (fun htimer => htimer) (fun hmem => hmem)
        (fun _ hrunning => hrunning)
      change s.now ≤ s.now + ns
      omega
  | call_shutdown =>
      simp only [ThreadPool.step] at hstep
      split at hstep
      · obtain rfl := Option.some.inj hstep
        apply h
      · obtain rfl := Option.some.inj hstep
        exact ⟨h.delayed_tasks, h.timer, h.tasks, h.worker⟩
  | shutdown => exact h.shutdownStep hstep

/-- The coroutine is not resumed before `earliest`. -/
theorem earliest_le_of_run {as : List (ThreadPool.Label n F)} {w : Fin n}
    (h : Run ThreadPool.step (Meets (Through x request now)) (ThreadPool.initial n F) as s)
    (hrunning : s.worker w = .running request) :
  x.earliest now ≤ s.now
  := by
  have hheld : Held (x.earliest now) request s := by
    apply h.invariant (Held (x.earliest now) request) _ Held.initial
    intro s a t hs hthrough hstep
    apply hs.step hthrough hstep
  apply hheld.worker w hrunning

/-- A worker of an idle pool runs the first function. -/
theorem worker_step {w : Fin n} {tasks : List F} (hidle : ∀ v, s.worker v = .entering)
    (htasks : s.tasks = request :: tasks) :
  ThreadPool.step s (.worker w) = some (s.take w request tasks)
  := by
  have hfree : s.queueFree := by
    intro v
    rw [hidle v]
    rfl
  simp [ThreadPool.step, ThreadPool.workerStep, hidle w, hfree, htasks]

theorem take_running {w : Fin n} {tasks : List F} :
  (s.take w request tasks).worker w = .running request
  := by
  simp [ThreadPool.State.take, ThreadPool.State.goTo]

/-- A new pool, some time after its start. -/
def ticked (n : ℕ) (F : Type*) (now : ℤ) : ThreadPool.State n F :=
  { ThreadPool.initial n F with now := now }

/-- The same with a delayed function. -/
def delayed (n : ℕ) (request : F) (execute_at now : ℤ) : ThreadPool.State n F :=
  { ticked n F now with
    delayed_tasks := [(execute_at, request)], delayed := [request], timer_notifies := 1 }

theorem run_ticked (hnow : 0 ≤ now) :
  Run ThreadPool.step (Meets (Through x request now)) (ThreadPool.initial n F) [.tick now.toNat]
    (ticked n F now)
  := by
  have hclock : (ThreadPool.initial n F).now + (now.toNat : ℤ) = now := by
    simp [ThreadPool.initial, hnow]
  apply Run.single _ trivial
  simp only [ThreadPool.step, hclock, ticked]

/-- The coroutine is passed to the executor at once, and resumed at once. -/
theorem exists_run_execute {w : Fin n} (hnow : 0 ≤ now)
    (hlabel : x.label request now = some (.execute request : ThreadPool.Label n F)) :
  ∃ as t, Run ThreadPool.step (Meets (Through x request now)) (ThreadPool.initial n F) as t ∧
    t.worker w = .running request ∧ t.now = now
  := by
  have hfree : (ticked n F now).queueFree := by
    intro v
    rfl
  have hexecute : ThreadPool.step (ticked n F now) (.execute request) =
      some ((ticked n F now).execute request) := by
    simp [ThreadPool.step, hfree]
  have hthrough : Through x request now (ticked n F now) (.execute request) := by
    intro _
    exact ⟨hlabel, le_refl now⟩
  have hworker : ThreadPool.step ((ticked n F now).execute request) (.worker w) =
      some (((ticked n F now).execute request).take w request []) :=
    worker_step (fun _ => rfl) rfl
  refine ⟨_, _, ((run_ticked hnow).snoc hexecute hthrough).snoc hworker trivial, take_running, rfl⟩

/-- What the timer thread has taken is passed to the executor at once, and resumed at once. -/
theorem run_pass {w : Fin n} (hidle : ∀ v, s.worker v = .entering)
    (htimer : s.timer = .holding request) (htasks : s.tasks = []) (hstop : s.stop = false) :
  Run ThreadPool.step (Meets (Through x request now)) s [.timer 0, .worker w]
    ((s.pass request).take w request [])
  := by
  have hfree : s.queueFree := by
    intro v
    rw [hidle v]
    rfl
  have hpass : ThreadPool.step s (.timer 0) = some (s.pass request) := by
    simp [ThreadPool.step, ThreadPool.timerStep, htimer, hfree]
  have hworker : ThreadPool.step (s.pass request) (.worker w) =
      some ((s.pass request).take w request []) := by
    apply worker_step
    · intro v
      unfold ThreadPool.State.pass
      split <;> apply hidle
    · simp [ThreadPool.State.pass, ThreadPool.State.accept, hstop, htasks]
  exact (Run.single hpass trivial).snoc hworker trivial

/-- The coroutine is passed to the timer thread, and resumed as soon as it is due. -/
theorem exists_run_execute_delayed {w : Fin n} {ms : ℤ} (hnow : 0 ≤ now)
    (hlabel : x.label request now =
      some (.execute_delayed request now ms : ThreadPool.Label n F)) :
  ∃ as t, Run ThreadPool.step (Meets (Through x request now)) (ThreadPool.initial n F) as t ∧
    t.worker w = .running request ∧ t.now = max now (now + ms)
  := by
  have hdelayed : ThreadPool.step (ticked n F now) (.execute_delayed request now ms) =
      some (delayed n request (now + ms) now) := by
    simp [ThreadPool.step, ThreadPool.State.executeDelayed, ThreadPool.initial, ticked, delayed,
      ThreadPool.Timer.locks]
  have hthrough : Through x request now (ticked n F now) (.execute_delayed request now ms) := by
    intro _
    apply hlabel
  have hlater : now + (ms.toNat : ℤ) = max now (now + ms) := by omega
  have hwait : ThreadPool.step (delayed n request (now + ms) now) (.tick ms.toNat) =
      some (delayed n request (now + ms) (max now (now + ms))) := by
    rw [← hlater]
    rfl
  have htake : ThreadPool.step (delayed n request (now + ms) (max now (now + ms))) (.timer 0) =
      some { delayed n request (now + ms) (max now (now + ms)) with
        delayed_tasks := [], timer := .holding request } := by
    simp [ThreadPool.step, ThreadPool.timerStep, ThreadPool.State.look, ThreadPool.initial, ticked,
      delayed]
  have hrun : Run ThreadPool.step (Meets (Through x request now)) (ThreadPool.initial n F) _
      (delayed n request (now + ms) (max now (now + ms))) :=
    ((run_ticked hnow).snoc hdelayed hthrough).snoc hwait trivial
  refine ⟨_, _, (hrun.snoc htake trivial).trans (run_pass (fun _ => rfl) rfl rfl rfl), take_running,
    rfl⟩

/-- A coroutine that is suspended can be resumed at `earliest`. -/
theorem exists_run_earliest (request : F) (w : Fin n) (hnow : 0 ≤ now)
    (hready : x.await_ready = false) :
  ∃ as t, Run ThreadPool.step (Meets (Through x request now)) (ThreadPool.initial n F) as t ∧
    t.worker w = .running request ∧ t.now = x.earliest now
  := by
  have hlabel : x.label request now =
      some (schedule request x.delay_ms now : ThreadPool.Label n F) := by
    simp [Await.label, hready]
  by_cases hdelay : 0 < x.delay_ms
  · rw [schedule, if_pos hdelay] at hlabel
    obtain ⟨-, hearliest⟩ := earliest_of_execute_delayed hlabel
    rw [hearliest]
    apply exists_run_execute_delayed hnow hlabel
  · rw [schedule, if_neg hdelay] at hlabel
    rw [earliest_of_execute hlabel]
    apply exists_run_execute hnow hlabel

/-- The delay is kept exactly when the time at which it is over is not after `earliest`. -/
theorem notEarly_iff_le_earliest {threads : ℕ} (hnow : 0 ≤ now) :
  NotEarly threads x request now ↔ now + x.requested ≤ x.earliest now
  := by
  constructor
  · intro h
    cases hready : x.await_ready with
    | true =>
        cases x with
        | duration | sleep => contradiction
        | schedule ms =>
            obtain rfl : ms = 0 := by simpa [Await.await_ready] using hready
            simp [Await.requested, Await.earliest, Await.delay_ms]
    | false =>
        obtain ⟨as, t, hrun, hrunning, htime⟩ :=
          exists_run_earliest request ⟨0, ThreadPool.workerCount_pos threads⟩ hnow hready
        rw [← htime]
        apply h as t _ hrun hrunning
  · intro hle as s w hrun hrunning
    have hearliest : (x.earliest now : ℚ) ≤ s.now := by
      exact_mod_cast earliest_le_of_run hrun hrunning
    apply hle.trans hearliest

/-! ### What becomes of the delay -/

/-- The delay that is passed on is not too long. -/
theorem delay_ms_le (h : 0 ≤ x.requested) :
  x.delay_ms * 1000000 ≤ x.requested
  := by
  cases x with
  | duration d =>
      have hmilliseconds : 0 ≤ d.milliseconds := by
        simpa [Await.requested] using h
      apply mul_le_mul_of_nonneg_right (Duration.duration_cast_le hmilliseconds) (by norm_num)
  | sleep | schedule => apply le_refl

/-- When the delay that is passed on is not too short either, it has been computed without an
overflow. -/
theorem product_fits (h : 0 ≤ x.requested) (hdelay : x.requested ≤ x.delay_ms * 1000000) :
  ∀ d, x = .duration d → d.rep.Fits d.product
  := by
  rintro d rfl
  have hmilliseconds : 0 ≤ d.milliseconds := by
    simpa [Await.requested] using h
  have hle : d.milliseconds ≤ d.duration_cast := by
    simpa [Await.requested, Await.delay_ms] using hdelay
  apply Duration.product_fits hmilliseconds
  apply le_antisymm (Duration.duration_cast_le hmilliseconds) hle

/-- A whole number of milliseconds is passed on as it is. -/
theorem delay_ms_eq {ms : ℤ} (hwhole : x.requested = ms * 1000000)
    (hproduct : ∀ d, x = .duration d → d.rep.Fits d.product) (hms : Clock.Fits ms) :
  x.delay_ms = ms
  := by
  cases x with
  | duration d =>
      apply Duration.duration_cast_eq (hproduct d rfl) _ hms
      simpa [Await.requested] using hwhole
  | sleep delay_ms | schedule delay_ms =>
      have hdelay : (delay_ms : ℚ) = ms := by simpa [Await.requested] using hwhole
      exact_mod_cast hdelay

/-- No delay at all is a whole number of milliseconds. -/
theorem exact_of_requested_eq_zero (hclock : now < 2 ^ 63) (h : x.requested = 0) :
  x.Exact now
  := by
  constructor
  · use 0
    simpa using h
  · rintro d rfl
    have hmilliseconds : d.milliseconds = 0 := by simpa [Await.requested] using h
    rw [Duration.product_eq_zero hmilliseconds, ← d.rep.wrap_zero]
    apply Rep.fits_wrap
  · rw [h, add_zero]
    exact_mod_cast hclock

theorem exact_iff_le_earliest (hnow : 0 ≤ now) (hclock : now < 2 ^ 63) (h : 0 ≤ x.requested) :
  x.Exact now ↔ now + x.requested ≤ x.earliest now
  := by
  constructor
  · rintro ⟨⟨ms, hwhole⟩, hproduct, htime⟩
    rw [hwhole] at h htime ⊢
    have hms : 0 ≤ ms * 1000000 := by exact_mod_cast h
    have hsum : now + ms * 1000000 < 2 ^ 63 := by exact_mod_cast htime
    have hdelay : x.delay_ms = ms := by
      apply delay_ms_eq hwhole hproduct
      unfold Clock.Fits
      omega
    unfold Await.earliest
    rw [hdelay]
    split
    · rw [Clock.timePoint_of_fits (by unfold Clock.Fits; omega) (by unfold Clock.Fits; omega)]
      exact_mod_cast le_max_right _ _
    · obtain rfl : ms = 0 := by omega
      simp
  · intro hle
    unfold Await.earliest at hle
    split at hle
    · next hpos =>
        have hdelay := delay_ms_le h
        have hpos' : (0 : ℚ) < x.delay_ms * 1000000 := by
          exact_mod_cast Int.mul_pos hpos (by decide)
        have hpoint : (Clock.timePoint now x.delay_ms : ℚ) ≤ now + x.delay_ms * 1000000 := by
          exact_mod_cast Clock.timePoint_le hnow hpos.le
        have htime : now + x.requested ≤ Clock.timePoint now x.delay_ms := by
          obtain hmax | hmax := max_choice now (Clock.timePoint now x.delay_ms)
          · rw [hmax] at hle
            linarith
          · rwa [hmax] at hle
        have hrequested : x.requested = x.delay_ms * 1000000 := by linarith
        refine ⟨⟨x.delay_ms, hrequested⟩, product_fits h hrequested.le, ?_⟩
        have hfits : (Clock.timePoint now x.delay_ms : ℚ) < 2 ^ 63 := by
          exact_mod_cast (Clock.fits_wrap _).2
        apply htime.trans_lt hfits
    · apply exact_of_requested_eq_zero hclock
      linarith

/-- A coroutine that is run by `SimpleScheduler` is not resumed before the delay it has awaited is
over, in every run of the pool, exactly when the delay is a whole number of milliseconds, its
conversion does not overflow, and the time at which it is over is a value of the clock. -/
theorem notEarly_iff_exact (threads : ℕ) (x : Await) (request : F) {now : ℤ} (hnow : 0 ≤ now)
    (hclock : now < 2 ^ 63) (h : 0 ≤ x.requested) :
  NotEarly threads x request now ↔ x.Exact now
  := by
  rw [notEarly_iff_le_earliest hnow, exact_iff_le_earliest hnow hclock h]

/-- Half a second. -/
theorem notEarly_half_second :
  NotEarly 4 (.duration ⟨.signed, 500, .milli, by decide⟩) () 0
  := by
  have hrequested : (Await.duration ⟨.signed, 500, .milli, by decide⟩).requested =
      500 * 1000000 := by
    norm_num [Await.requested, Duration.milliseconds, Ratio.toRat, Ratio.milli]
  apply (notEarly_iff_exact 4 _ () (le_refl 0) (by decide) (by rw [hrequested]; norm_num)).mpr
  constructor
  · use 500
    rw [hrequested]
    norm_num
  · rintro d ⟨⟩
    decide
  · rw [hrequested]
    norm_num

/-- Half a millisecond. -/
theorem early_half_millisecond :
  ¬ ∀ (threads : ℕ) (x : Await) (request : ℕ) (now : ℤ), 0 ≤ now → now < 2 ^ 63 →
    0 ≤ x.requested → NotEarly threads x request now
  := by
  have hrequested : (Await.duration ⟨.signed, 500, ⟨1, 1000000, by decide, by decide⟩,
      by decide⟩).requested = 500000 := by
    norm_num [Await.requested, Duration.milliseconds, Ratio.toRat]
  have hearliest : (Await.duration ⟨.signed, 500, ⟨1, 1000000, by decide, by decide⟩,
      by decide⟩).earliest 0 = 0 := by
    decide
  intro h
  have hnotEarly := h 1 _ 0 0 (le_refl 0) (by decide) (by rw [hrequested]; norm_num)
  rw [notEarly_iff_le_earliest (le_refl 0), hrequested, hearliest] at hnotEarly
  norm_num at hnotEarly

end SimpleScheduler

end Koroutine
