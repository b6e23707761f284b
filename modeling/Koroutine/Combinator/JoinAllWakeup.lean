import Koroutine.Combinator.JoinAll

/-!
# The wake-up of the thread that called `join_all`

The wrapper that takes `remaining` to `0` notifies the condition variable the caller waits on.
After a task that failed it holds the mutex while it does so.  After a task that succeeded it
does not, and the notification can fall between the caller's evaluation of the predicate and
its blocking.  Where it does not, the caller does not stay blocked.
-/

open Transition

namespace Koroutine.JoinAll

variable {V E : Type*} {n : ℕ}

/-- Every wrapper has decremented `remaining` and issued the notification it had to issue. -/
def AllNotified (s : State E n) : Prop :=
  ∀ i, (s.wrappers i).uncounted = 0 ∧ (s.wrappers i).signalling = 0

/-- `remaining` is `0`, nobody has a notification left to issue, and the caller is blocked. -/
def LostWakeup (s : State E n) : Prop :=
  s.remaining = 0 ∧ AllNotified s ∧ s.caller = .waiting .blocked

/-- The wrapper of a task that succeeded does not notify while the caller, having found
`remaining` positive, has yet to block. -/
def NotifiesInTime (outcomes : Fin n → Except E V) (s : State E n) (a : Label n) : Prop :=
  ∀ i, a = .wrapper i → (outcomes i).isOk = true → s.wrappers i = .counted true →
    s.caller ≠ .waiting .committed

/-- The number of wrappers that have a notification to issue. -/
def State.signals (s : State E n) : ℕ :=
  ∑ i, (s.wrappers i).signalling

/-- The caller and the condition it waits for. -/
def monitor (s : State E n) : Monitor where
  flag := s.remaining = 0
  notified := s.remaining = 0 ∧ s.signals = 0
  waiter := s.caller.waiter

/-- A wrapper that goes to the stage `st` changes the signals by the change of its own. -/
theorem signals_update {s t : State E n} {i : Fin n} {st : Stage}
    (hw : t.wrappers = Function.update s.wrappers i st) :
  t.signals + (s.wrappers i).signalling = s.signals + st.signalling
  := by
  unfold State.signals
  rw [hw]
  apply sum_update_add Finset.univ Stage.signalling s.wrappers (Finset.mem_univ i) st

/-- A step that keeps the counter, the signals and the caller's stage is no step of the
monitor. -/
theorem monitor_stutter {s t : State E n} (hr : t.remaining = s.remaining)
    (hs : t.signals = s.signals) (hc : t.caller.waiter = s.caller.waiter) :
  ∃ bs, Run Monitor.step (Meets Monitor.Timely) (monitor s) bs (monitor t)
  := by
  apply Run.stutter
  simp only [monitor, hr, hs, hc]

/-- A wrapper that goes on without touching the counter, its signal or the caller makes no step
of the monitor. -/
theorem monitor_goto {s t : State E n} {i : Fin n} {st : Stage}
    (hw : t.wrappers = Function.update s.wrappers i st) (hr : t.remaining = s.remaining)
    (hc : t.caller.waiter = s.caller.waiter) (hst : st.signalling = (s.wrappers i).signalling) :
  ∃ bs, Run Monitor.step (Meets Monitor.Timely) (monitor s) bs (monitor t)
  := by
  apply monitor_stutter hr _ hc
  have := signals_update hw
  omega

/-- Decrementing `remaining` raises the flag of the monitor when it makes `remaining` zero. -/
theorem monitor_decrement {outcomes : Fin n → Except E V} {s : State E n} {i : Fin n}
    (hs : Inv outcomes s) (hu : (s.wrappers i).uncounted = 1) :
  ∃ bs, Run Monitor.step (Meets Monitor.Timely) (monitor s) bs (monitor (s.decrement i))
  := by
  have hpending := hs.counting.pending (i := i) (by omega)
  obtain ⟨k, hk⟩ : ∃ k, s.remaining = k + 1 := Nat.exists_eq_add_one.mpr hpending.1
  by_cases hzero : k = 0
  · subst hzero
    have hremaining : (s.decrement i).remaining = 0 := by simp [State.decrement, hk]
    have hsig : (s.decrement i).signals = 1 := by
      have hupdate : (s.decrement i).signals + (s.wrappers i).signalling =
          s.signals + (Stage.counted (s.remaining = 1)).signalling := signals_update rfl
      have hnone : s.signals = 0 := hpending.2
      have hi := eq_zero_of_sum_eq_zero hpending.2 (Finset.mem_univ i)
      rw [hnone, hi, hk] at hupdate
      simpa [Stage.signalling] using hupdate
    have hcaller : (s.decrement i).caller = s.caller := rfl
    use [.raise]
    apply Run.single
    · simp [Monitor.step, monitor, hsig, hk, hremaining, hcaller]
    · simp [Meets, Monitor.Timely]
  · apply Run.stutter
    simp [monitor, hk, hzero, State.decrement]

/-- The wrapper that has a notification to issue is the last to have one. -/
theorem Inv.notify {outcomes : Fin n → Except E V} {s : State E n} {i : Fin n}
    (hs : Inv outcomes s) (hi : s.wrappers i = .counted true) :
  (s.notifyOne.goto i .notified).remaining = 0 ∧ (s.notifyOne.goto i .notified).signals = 0
  := by
  have hpos : 0 < (s.wrappers i).signalling := by simp [hi, Stage.signalling]
  constructor
  · simpa [State.goto] using hs.counting.zero_of_signal hpos
  · have hupdate : (s.notifyOne.goto i .notified).signals + (s.wrappers i).signalling =
        s.signals + Stage.notified.signalling :=
      signals_update (by rw [State.goto, State.notifyOne_wrappers])
    have hone : s.signals ≤ 1 := hs.counting.signal
    simp only [hi, Stage.signalling] at hupdate
    omega

theorem State.notifyOne_waiter (s : State E n) :
  s.notifyOne.caller.waiter = s.caller.waiter.notify
  := by
  unfold State.notifyOne
  cases hc : s.caller <;> simp [Caller.waiter, hc, Waiter.notify]

/-- The notification is a step of the monitor, a timely one. -/
theorem monitor_notify {outcomes : Fin n → Except E V} {s : State E n} {i : Fin n}
    (hs : Inv outcomes s) (ha : NotifiesInTime outcomes s (.wrapper i))
    (hi : s.wrappers i = .counted true) :
  ∃ bs, Run Monitor.step (Meets Monitor.Timely) (monitor s) bs
    (monitor (s.notifyOne.goto i .notified))
  := by
  have hzero : s.remaining = 0 := by
    apply hs.counting.zero_of_signal (i := i)
    simp [hi, Stage.signalling]
  obtain ⟨hremaining, hsig⟩ := hs.notify hi
  have hcaller : (s.notifyOne.goto i .notified).caller.waiter = s.caller.waiter.notify :=
    s.notifyOne_waiter
  use [.notify]
  apply Run.single
  · simp [Monitor.step, monitor, hzero, hsig, hremaining, hcaller]
  · intro _ hcommitted
    have hw : s.caller = .waiting .committed := by
      cases hc : s.caller <;> simp [monitor, Caller.waiter, hc] at hcommitted
      rw [hcommitted]
    cases hr : (outcomes i).isOk with
    | true => apply ha i rfl hr hi hw
    | false =>
        -- a wrapper whose task failed notifies with the mutex held
        have hwrapper := hs.wrapper_holds i (by simp [hi, Stage.locks, hr])
        have hcaller := hs.caller_holds _ hw rfl
        simp [hwrapper] at hcaller

/-- A step of a wrapper is a step of the monitor, or none. -/
theorem monitor_wrapperStep {outcomes : Fin n → Except E V} {s t : State E n} {i : Fin n}
    (hs : Inv outcomes s) (ha : NotifiesInTime outcomes s (.wrapper i))
    (h : wrapperStep (outcomes i) s i = some t) :
  ∃ bs, Run Monitor.step (Meets Monitor.Timely) (monitor s) bs (monitor t)
  := by
  cases wrapperStep_effect h with
  | quiet before uncounted signalling locks =>
      subst before
      apply monitor_goto <;> first | rfl | assumption
  | lock before free =>
      apply monitor_goto
      · rfl
      · rfl
      · rfl
      · rw [before]
        rfl
  | push before =>
      apply monitor_goto
      · rfl
      · rfl
      · rfl
      · rw [before]
        rfl
  | unlock before locks =>
      apply monitor_goto
      · rfl
      · rfl
      · rfl
      · rw [before]
        rfl
  | decrement before uncounted locks =>
      subst before
      apply monitor_decrement hs uncounted
  | notify before => apply monitor_notify hs ha before

/-- A move of the caller in its wait is a step of the monitor. -/
theorem monitor_waiter {s t : State E n} {w w' : Waiter} {m : Waiter.Move} {free : Bool}
    (hs : s.caller = .waiting w) (ht : t.caller = .waiting w') (hr : t.remaining = s.remaining)
    (hsig : t.signals = s.signals) (hm : w.step free (s.remaining = 0) m = some w') :
  ∃ bs, Run Monitor.step (Meets Monitor.Timely) (monitor s) bs (monitor t)
  := by
  have hfree : w.step true (s.remaining = 0) m = some w' := Waiter.step_free hm
  have hw : (monitor s).waiter = w := by rw [monitor, hs, Caller.waiter]
  use [.waiter m]
  apply Run.single
  · simp only [Monitor.step, hw]
    simp only [monitor, hfree, ht, hr, hsig]
    rfl
  · simp [Meets, Monitor.Timely]

/-- A step of the caller makes steps of the monitor; entering with nothing to wait for, it is
through at once. -/
theorem monitor_callerStep {ov : Overload} {outcomes : Fin n → Except E V} {s t : State E n}
    (hs : Inv outcomes s) (hf : Fresh s) (h : callerStep ov s = some t) :
  ∃ bs, Run Monitor.step (Meets Monitor.Timely) (monitor s) bs (monitor t)
  := by
  cases callerStep_effect h with
  | empty before none =>
      subst none
      have hzero : s.remaining = 0 := by simp [hs.counting.count]
      use [.waiter .acquire, .waiter .check]
      apply run_of_exec_guarded
      simp [exec, guarded, Monitor.Timely, Monitor.step, monitor, hzero, before, Caller.waiter,
        Waiter.step, State.signals]
  | enter before | built before | started before =>
      apply monitor_stutter
      · rfl
      · rfl
      · rw [before]
        rfl
  | leave before =>
      apply monitor_stutter
      · rfl
      · rfl
      · rw [before]
        rfl
  | build before hk =>
      apply monitor_goto
      · rfl
      · rfl
      · rw [before]
        rfl
      · rw [hf.unmade ⟨_, hk⟩ (by simp [before, Caller.made])]
        rfl
  | start before hk =>
      apply monitor_goto
      · rfl
      · rfl
      · rw [before]
        rfl
      · rw [hf.unstarted ⟨_, hk⟩ (by simpa [before, Caller.made]) (by simp [before, Caller.started])]
        rfl
  | move before own step =>
      apply monitor_waiter before
      · rfl
      · rfl
      · rfl
      · apply step

/-- Every step of `join_all` that notifies in time makes timely steps of the monitor. -/
theorem monitor_step {ov : Overload} {outcomes : Fin n → Except E V} {s t : State E n}
    {a : Label n} (hs : Valid outcomes s) (ha : NotifiesInTime outcomes s a)
    (h : step ov outcomes s a = some t) :
  ∃ bs, Run Monitor.step (Meets Monitor.Timely) (monitor s) bs (monitor t)
  := by
  cases a with
  | caller => apply monitor_callerStep hs.inv hs.fresh h
  | spurious =>
      simp only [step] at h
      split at h
      · rename_i hblocked
        simp only [Option.some.injEq] at h
        subst h
        apply monitor_waiter hblocked
        · rfl
        · rfl
        · rfl
        · apply Waiter.step_spurious true
      · simp at h
  | wrapper i => apply monitor_wrapperStep hs.inv ha h

/-! ### The caller does not stay blocked -/

/-- A valid state whose monitor is awake. -/
structure Wakes (outcomes : Fin n → Except E V) (s : State E n) : Prop where
  valid : Valid outcomes s
  awake : (monitor s).Awake

theorem Wakes.initial (outcomes : Fin n → Except E V) :
  Wakes outcomes (initial E n)
  := by
  constructor
  · apply Valid.initial
  · constructor
    · simp only [monitor, decide_eq_true_eq]
      apply And.left
    · simp [monitor, JoinAll.initial, Caller.waiter]
    · simp [monitor, JoinAll.initial, Caller.waiter]

/-- A step that notifies in time preserves `Wakes`. -/
theorem Wakes.step {ov : Overload} {outcomes : Fin n → Except E V} {s t : State E n}
    {a : Label n} (hs : Wakes outcomes s) (ha : NotifiesInTime outcomes s a)
    (h : step ov outcomes s a = some t) :
  Wakes outcomes t
  := by
  constructor
  · apply hs.valid.step h
  · obtain ⟨bs, hb⟩ := monitor_step hs.valid ha h
    apply hs.awake.run hb

/-- Where every wrapper has issued its notification no signal is left. -/
theorem AllNotified.signals {s : State E n} (hs : AllNotified s) :
  s.signals = 0
  := by
  apply Finset.sum_eq_zero
  intro i _
  apply (hs i).2

/-- Once `remaining` is `0` and no signal is left, every wrapper has issued its notification. -/
theorem Inv.allNotified {outcomes : Fin n → Except E V} {s : State E n} (hs : Inv outcomes s)
    (hzero : s.remaining = 0) (hsig : s.signals = 0) :
  AllNotified s
  := by
  intro i
  have hcount := hs.counting
  rw [hzero] at hcount
  constructor
  · apply hcount.all_counted
  · apply eq_zero_of_sum_eq_zero hsig (Finset.mem_univ i)

theorem Wakes.not_lost {outcomes : Fin n → Except E V} {s : State E n}
    (hs : Wakes outcomes s) :
  ¬ LostWakeup s
  := by
  rintro ⟨hzero, hall, hblocked⟩
  apply hs.awake.blocked
  · simp [monitor, hzero, hall.signals]
  · simp [monitor, hblocked, Caller.waiter]

/-- Where a wrapper notifies too early, the caller's next step makes it block for good. -/
theorem lost_of_early {ov : Overload} {outcomes : Fin n → Except E V} {s t : State E n}
    {a : Label n} (hs : Inv outcomes s) (ha : ¬ NotifiesInTime outcomes s a)
    (h : step ov outcomes s a = some t) :
  ∃ u, step ov outcomes t .caller = some u ∧ LostWakeup u
  := by
  unfold NotifiesInTime at ha
  push Not at ha
  obtain ⟨i, rfl, -, hi, hw⟩ := ha
  have ht : s.notifyOne.goto i .notified = t := by
    simpa [step, wrapperStep, hi] using h
  have hcaller : t.caller = .waiting .committed := by
    subst ht
    simp [State.goto, State.notifyOne, hw, Waiter.notify]
  obtain ⟨hzero, hsig⟩ := hs.notify hi
  rw [ht] at hzero hsig
  have hinv : Inv outcomes t := hs.wrapperStep h
  use t.move .blocked
  constructor
  · simp [step, callerStep, hcaller, nextMove, Waiter.step]
  · constructor
    · apply hzero
    · constructor
      · apply hinv.allNotified hzero hsig
      · rfl

/-- The caller has not lost its wake-up, and does not lose it by its next step. -/
def NotLosing (ov : Overload) (outcomes : Fin n → Except E V) (s : State E n) : Prop :=
  ¬ LostWakeup s ∧ ∀ t, step ov outcomes s .caller = some t → ¬ LostWakeup t

/-- A call of `join_all` goes only through states in which the caller's wake-up is not lost, nor
about to be lost, exactly when each wrapper of a task that succeeded notifies in time. -/
theorem not_losing_iff_notifies_in_time {ov : Overload} {outcomes : Fin n → Except E V}
    {t : State E n} {as : List (Label n)} :
  Run (step ov outcomes) (Visits (NotLosing ov outcomes)) (initial E n) as t ↔
    Run (step ov outcomes) (Meets (NotifiesInTime outcomes)) (initial E n) as t
  := by
  apply Run.visits_iff_meets (Wakes outcomes) _ _ _ (Wakes.initial outcomes)
  · intro s a u hs ha e
    apply hs.step ha e
  · intro s hs
    constructor
    · apply hs.not_lost
    · intro u e
      have hcaller : NotifiesInTime outcomes s .caller := by
        intro _ hi
        contradiction
      apply (hs.step hcaller e).not_lost
  · intro s a u hs ha e hsafe
    obtain ⟨v, hv, hlost⟩ := lost_of_early hs.valid.inv ha e
    apply hsafe.2 v hv hlost

instance (s : State E n) : Decidable (AllNotified s) :=
  inferInstanceAs (Decidable (∀ _, _ ∧ _))

instance (s : State E n) : Decidable (LostWakeup s) :=
  inferInstanceAs (Decidable (_ ∧ _))

instance (outcomes : Fin n → Except E V) (s : State E n) (a : Label n) :
    Decidable (NotifiesInTime outcomes s a) :=
  inferInstanceAs (Decidable (∀ _, _ → _ → _ → _))

/-- Two tasks, of which the second fails. -/
def mixed : Fin 2 → Except String Unit := ![.ok (), .error "refused"]

/-- With both notifications in time the caller blocks, is woken, and leaves with the exception. -/
theorem notifies_in_time_mixed :
  ∃ as t, Run (step .variadic mixed) (Visits (NotLosing .variadic mixed)) (initial String 2) as t ∧
    t.outcome = some (.error ["refused"])
  := by
  obtain ⟨t, hrun, hout⟩ : ∃ t, Run (step .variadic mixed) (Meets (NotifiesInTime mixed))
      (initial String 2) (List.flatten [List.replicate 10 .caller, List.replicate 8 (.wrapper 1),
        List.replicate 5 (.wrapper 0), List.replicate 3 .caller]) t ∧
      t.outcome = some (.error ["refused"]) := by
    apply exists_run_of_exec_guarded
    decide
  exact ⟨_, t, not_losing_iff_notifies_in_time.mpr hrun, hout⟩

/-- With one task that succeeds, its wrapper notifies after the caller has evaluated the
predicate and before it blocks. -/
theorem lost_wakeup_one :
  ∃ as t, Run (step .variadic fun _ : Fin 1 => (.ok () : Except String Unit)) Free
    (initial String 1) as t ∧ LostWakeup t
  := by
  use List.flatten [List.replicate 7 .caller, List.replicate 3 (.wrapper 0),
    [.wrapper 0, .caller]]
  apply exists_run_of_exec
  decide

end Koroutine.JoinAll
