import Koroutine.Executor.Delayed

/-!
# What the timer thread takes, and when

The timer thread takes a function from the heap when it is due, and the one that is due first.  It
waits for the time at which the first function in the heap is due, and a function that is pushed
meanwhile and is due earlier brings a notification with it.

A ledger records what has been pushed, and what the timer thread has taken, with the time at which
it took it and what it left in the heap.
-/

open Transition

namespace Koroutine.ThreadPool

variable {n : ℕ} {F : Type*} {s t : State n F}

/-- A function that the timer thread has taken at time `now`, and what it has left in the heap. -/
structure Take (F : Type*) where
  now : ℤ
  due : ℤ
  func : F
  left : List (ℤ × F)

/-- What has been pushed into the heap and taken from it, in order. -/
structure Ledger (F : Type*) where
  pushed : List (ℤ × F)
  taken : List (Take F)

/-- The ledger after a step. -/
def record (s : State n F) (a : Label n F) (l : Ledger F) : Ledger F :=
  match a with
  | .execute_delayed f called_at ms =>
      if s.stop then l else { l with pushed := l.pushed ++ [(called_at + ms, f)] }
  | .timer k =>
      match s.timer, s.delayed_tasks[k]? with
      | .entering, some (next_time, f) =>
          if next_time ≤ s.now then
            { l with taken := l.taken ++ [⟨s.now, next_time, f, s.delayed_tasks.eraseIdx k⟩] }
          else l
      | _, _ => l
  | _ => l

/-- A new executor, with an empty ledger. -/
def opened (n : ℕ) (F : Type*) : Ledger F × State n F := (⟨[], []⟩, initial n F)

/-- The timer thread waits, or is about to, for a time after `due`. -/
def Timer.overlooks : Timer F → ℤ → Bool
  | .checked | .waiting => fun _ => true
  | .postponing next_time | .sleeping next_time => (· < next_time)
  | .entering | .holding _ | .exited => fun _ => false

/-- The functions in the heap that are due before the time the timer thread waits for. -/
def State.overlooked (s : State n F) : List (ℤ × F) :=
  s.delayed_tasks.filter fun x => s.timer.overlooks x.1

/-- Each function that the timer thread overlooks has its notification outstanding; before the timer
thread waits there is none. -/
def Alert (s : State n F) : Prop :=
  s.overlooked.length ≤ if s.timer.locks then 0 else s.timer_notifies

/-! ### What the timer thread overlooks -/

/-- A timer thread that is not about to wait, and does not wait, overlooks nothing. -/
theorem Alert.of_awake (h : ∀ due, s.timer.overlooks due = false) :
  Alert s
  := by
  have hnone : s.overlooked = [] := by
    apply List.filter_eq_nil_iff.mpr
    intro x _
    rw [h]
    simp
  rw [Alert, hnone]
  apply Nat.zero_le

theorem Timer.overlooks_wake (x : Timer F) (hx : x.locks = false) (due : ℤ) :
  x.wake.overlooks due = false
  := by
  cases x with
  | checked | postponing next_time => contradiction
  | _ => rfl

theorem Alert.congr (hs : Alert s) (hdelayed_tasks : t.delayed_tasks = s.delayed_tasks)
    (htimer : t.timer = s.timer) (hnotifies : t.timer_notifies = s.timer_notifies) :
  Alert t
  := by
  rw [Alert, State.overlooked, hdelayed_tasks, htimer, hnotifies]
  apply hs

/-- The timer thread, if it is waiting, leaves the wait. -/
theorem Alert.wake (hs : Alert s) (hdelayed_tasks : t.delayed_tasks = s.delayed_tasks)
    (htimer : t.timer = s.timer.wake) :
  Alert t
  := by
  cases hlocks : s.timer.locks with
  | false =>
      apply Alert.of_awake
      intro due
      rw [htimer]
      apply Timer.overlooks_wake s.timer hlocks
  | true =>
      have hsame : s.timer.wake = s.timer := by
        cases hx : s.timer <;> rw [hx] at hlocks <;> trivial
      rw [Alert, hlocks, if_pos rfl] at hs
      rw [Alert, State.overlooked, hdelayed_tasks, htimer, hsame, hlocks, if_pos rfl]
      apply hs

/-- A function is pushed, and its notification is outstanding. -/
theorem Alert.executeDelayed {f : F} {execute_at : ℤ} (hs : Alert s)
    (hlocks : s.timer.locks = false) :
  Alert (s.executeDelayed f execute_at)
  := by
  unfold State.executeDelayed
  split
  · apply hs
  · rw [Alert, hlocks] at hs
    have hone : ([(execute_at, f)].filter fun x => s.timer.overlooks x.1).length ≤ 1 :=
      List.length_filter_le _ _
    simp only [Alert, State.overlooked, hlocks, List.filter_append, List.length_append]
    simp only [State.overlooked] at hs
    simp only [Bool.false_eq_true, if_false] at hs ⊢
    omega

theorem Alert.timerStep {k : ℕ} (hs : Alert s) (h : timerStep s k = some t) :
  Alert t
  := by
  cases htimer : s.timer with
  | entering =>
      simp only [ThreadPool.timerStep, htimer] at h
      split at h
      · rename_i hempty
        obtain rfl := Option.some.inj h
        simp [Alert, State.overlooked, hempty]
      · simp only [State.look] at h
        split at h
        · rename_i next_time f hk
          simp only [Option.ite_none_right_eq_some] at h
          obtain ⟨hfirst, h⟩ := h
          split at h
          · obtain rfl := Option.some.inj h
            apply Alert.of_awake
            intro due
            rfl
          · obtain rfl := Option.some.inj h
            have hnone : (s.delayed_tasks.filter fun x => decide (x.1 < next_time)) = [] := by
              apply List.filter_eq_nil_iff.mpr
              intro x hx
              simpa using hfirst x hx
            simp [Alert, State.overlooked, Timer.overlooks, hnone]
        · contradiction
  | checked | postponing next_time =>
      simp only [ThreadPool.timerStep, htimer, Option.some.injEq] at h
      subst h
      simp only [Alert, State.overlooked, htimer, Timer.locks, Timer.overlooks, if_true] at hs ⊢
      omega
  | holding f =>
      simp only [ThreadPool.timerStep, htimer, Option.ite_none_right_eq_some,
        Option.some.injEq] at h
      obtain ⟨-, rfl⟩ := h
      apply Alert.of_awake
      intro due
      unfold State.pass
      split <;> rfl
  | waiting | sleeping next_time | exited => simp [ThreadPool.timerStep, htimer] at h

/-! ### What the other steps leave as it is -/

/-- The step pushes into the heap, or is one of the timer thread. -/
def Label.watched : Label n F → Bool
  | .execute_delayed _ _ _ | .timer _ => true
  | _ => false

/-- A step that leaves the heap as it is: the timer thread stays where it is, or leaves the wait. -/
structure Idles (s t : State n F) : Prop where
  delayed_tasks : t.delayed_tasks = s.delayed_tasks
  delayed : t.delayed = s.delayed
  timer : t.timer = s.timer ∧ t.timer_notifies = s.timer_notifies ∨ t.timer = s.timer.wake

theorem idles_shutdownStep (h : shutdownStep s = some t) :
  Idles s t
  := by
  cases shutdownStep_effect h with
  | goTo | notifyWorkers | join => exact ⟨rfl, rfl, .inl ⟨rfl, rfl⟩⟩
  | notifyTimer => exact ⟨rfl, rfl, .inr rfl⟩

theorem idles_step {a : Label n F} (ha : a.watched = false) (h : step s a = some t) :
  Idles s t
  := by
  cases a with
  | execute_delayed f called_at ms | timer k => contradiction
  | execute f =>
      simp only [step, Option.ite_none_right_eq_some, Option.some.injEq] at h
      obtain ⟨-, rfl⟩ := h
      unfold State.execute
      split <;> exact ⟨rfl, rfl, .inl ⟨rfl, rfl⟩⟩
  | notify w =>
      cases w with
      | none | some w =>
          simp only [step, Option.ite_none_right_eq_some, Option.some.injEq] at h
          obtain ⟨-, rfl⟩ := h
          exact ⟨rfl, rfl, .inl ⟨rfl, rfl⟩⟩
  | notify_timer =>
      simp only [step, Option.ite_none_right_eq_some, Option.some.injEq] at h
      obtain ⟨-, rfl⟩ := h
      exact ⟨rfl, rfl, .inr rfl⟩
  | worker w => cases workerStep_effect h <;> exact ⟨rfl, rfl, .inl ⟨rfl, rfl⟩⟩
  | finish w threw =>
      simp only [step] at h
      split at h
      · obtain rfl := Option.some.inj h
        exact ⟨rfl, rfl, .inl ⟨rfl, rfl⟩⟩
      · contradiction
  | wake w =>
      simp only [step, Option.ite_none_right_eq_some, Option.some.injEq] at h
      obtain ⟨-, rfl⟩ := h
      exact ⟨rfl, rfl, .inl ⟨rfl, rfl⟩⟩
  | wake_timer =>
      obtain rfl := Option.some.inj h
      exact ⟨rfl, rfl, .inr rfl⟩
  | tick ms =>
      obtain rfl := Option.some.inj h
      exact ⟨rfl, rfl, .inl ⟨rfl, rfl⟩⟩
  | call_shutdown =>
      simp only [step] at h
      split at h
      · obtain rfl := Option.some.inj h
        exact ⟨rfl, rfl, .inl ⟨rfl, rfl⟩⟩
      · obtain rfl := Option.some.inj h
        exact ⟨rfl, rfl, .inl ⟨rfl, rfl⟩⟩
  | shutdown => apply idles_shutdownStep h

theorem Alert.step {a : Label n F} (hs : Alert s) (h : step s a = some t) :
  Alert t
  := by
  cases ha : a.watched with
  | false =>
      obtain ⟨hdelayed_tasks, -, ⟨htimer, hnotifies⟩ | htimer⟩ := idles_step ha h
      · apply hs.congr hdelayed_tasks htimer hnotifies
      · apply hs.wake hdelayed_tasks htimer
  | true =>
      cases a with
      | execute_delayed f called_at ms =>
          simp only [ThreadPool.step, Option.ite_none_right_eq_some, Option.some.injEq] at h
          obtain ⟨⟨-, hlocks⟩, rfl⟩ := h
          apply hs.executeDelayed hlocks
      | timer k => apply hs.timerStep h
      | _ => contradiction

/-! ### The ledger -/

/-- What has been pushed has been taken, or is in the heap; what has been taken was due, and due
first. -/
structure Booked (l : Ledger F) (s : State n F) : Prop where
  pushed : l.pushed.map Prod.snd = s.delayed
  balance :
    (↑(l.taken.map fun x => (x.due, x.func)) + ↑s.delayed_tasks : Multiset (ℤ × F)) = l.pushed
  due : ∀ x ∈ l.taken, x.due ≤ x.now
  first : ∀ x ∈ l.taken, ∀ y ∈ x.left, x.due ≤ y.1

theorem Booked.congr {l : Ledger F} (hl : Booked l s)
    (hdelayed_tasks : t.delayed_tasks = s.delayed_tasks)
    (hdelayed : t.delayed = s.delayed) :
  Booked l t
  := by
  constructor
  · rw [hdelayed]
    apply hl.pushed
  · rw [hdelayed_tasks]
    apply hl.balance
  · apply hl.due
  · apply hl.first

theorem Booked.push {l : Ledger F} {f : F} {execute_at : ℤ} (hl : Booked l s)
    (hstop : s.stop = false) :
  Booked { l with pushed := l.pushed ++ [(execute_at, f)] } (s.executeDelayed f execute_at)
  := by
  constructor
  · simp [State.executeDelayed, hstop, hl.pushed]
  · have hpushed : (↑(l.pushed ++ [(execute_at, f)]) : Multiset (ℤ × F)) =
        ↑l.pushed + {(execute_at, f)} := rfl
    have hheap : (↑(s.delayed_tasks ++ [(execute_at, f)]) : Multiset (ℤ × F)) =
        ↑s.delayed_tasks + {(execute_at, f)} := rfl
    simp only [State.executeDelayed, hstop, Bool.false_eq_true, if_false, hpushed, hheap]
    rw [← add_assoc, hl.balance]
  · apply hl.due
  · apply hl.first

/-- The timer thread takes a function that is due, and due first. -/
theorem Booked.take {l : Ledger F} {k : ℕ} {next_time : ℤ} {f : F} (hl : Booked l s)
    (hk : s.delayed_tasks[k]? = some (next_time, f))
    (hfirst : ∀ x ∈ s.delayed_tasks, next_time ≤ x.1) (hdue : next_time ≤ s.now) :
  Booked { l with taken := l.taken ++ [⟨s.now, next_time, f, s.delayed_tasks.eraseIdx k⟩] }
    { s with delayed_tasks := s.delayed_tasks.eraseIdx k, timer := .holding f }
  := by
  obtain ⟨hlt, hget⟩ := List.getElem?_eq_some_iff.mp hk
  have hperm := (List.getElem_cons_eraseIdx_perm hlt).symm
  rw [hget] at hperm
  constructor
  · apply hl.pushed
  · have hheap : (↑s.delayed_tasks : Multiset (ℤ × F)) =
        {(next_time, f)} + ↑(s.delayed_tasks.eraseIdx k) :=
      Multiset.coe_eq_coe.mpr hperm
    have hbalance := hl.balance
    rw [hheap] at hbalance
    rw [← hbalance, ← add_assoc, List.map_append]
    rfl
  · intro x hx
    obtain hx | hx := List.mem_append.mp hx
    · apply hl.due x hx
    · obtain rfl := List.mem_singleton.mp hx
      apply hdue
  · intro x hx y hy
    obtain hx | hx := List.mem_append.mp hx
    · apply hl.first x hx y hy
    · obtain rfl := List.mem_singleton.mp hx
      apply hfirst y (List.mem_of_mem_eraseIdx hy)

theorem Booked.timerStep {l : Ledger F} {k : ℕ} (hl : Booked l s) (h : timerStep s k = some t) :
  Booked (record s (.timer k) l) t
  := by
  cases htimer : s.timer with
  | entering =>
      simp only [ThreadPool.timerStep, htimer] at h
      split at h
      · rename_i hempty
        obtain rfl := Option.some.inj h
        simp only [record, htimer, hempty, List.getElem?_nil]
        exact hl.congr hempty.symm rfl
      · simp only [State.look] at h
        split at h
        · rename_i next_time f hk
          simp only [Option.ite_none_right_eq_some] at h
          obtain ⟨hfirst, h⟩ := h
          simp only [record, htimer, hk]
          split at h
          · rename_i hdue
            obtain rfl := Option.some.inj h
            rw [if_pos hdue]
            apply hl.take hk hfirst hdue
          · rename_i hdue
            obtain rfl := Option.some.inj h
            rw [if_neg hdue]
            exact hl.congr rfl rfl
        · contradiction
  | checked | postponing next_time =>
      simp only [ThreadPool.timerStep, htimer, Option.some.injEq] at h
      subst h
      simp only [record, htimer]
      exact hl.congr rfl rfl
  | holding f =>
      simp only [ThreadPool.timerStep, htimer, Option.ite_none_right_eq_some,
        Option.some.injEq] at h
      obtain ⟨-, rfl⟩ := h
      simp only [record, htimer]
      apply hl.congr <;> unfold State.pass <;> split <;> rfl
  | waiting | sleeping next_time | exited => simp [ThreadPool.timerStep, htimer] at h

theorem Booked.step {l : Ledger F} {a : Label n F} (hl : Booked l s) (h : step s a = some t) :
  Booked (record s a l) t
  := by
  cases ha : a.watched with
  | false =>
      have hidles := idles_step ha h
      have hsame : record s a l = l := by
        cases a with
        | execute_delayed f called_at ms | timer k => contradiction
        | _ => rfl
      rw [hsame]
      apply hl.congr hidles.delayed_tasks hidles.delayed
  | true =>
      cases a with
      | execute_delayed f called_at ms =>
          simp only [ThreadPool.step, Option.ite_none_right_eq_some, Option.some.injEq] at h
          obtain ⟨-, rfl⟩ := h
          cases hstop : s.stop with
          | true =>
              simp only [record, State.executeDelayed, hstop, if_true]
              apply hl
          | false =>
              simp only [record, hstop, Bool.false_eq_true, if_false]
              apply hl.push hstop
      | timer k => apply hl.timerStep h
      | _ => contradiction

/-! ### The timer thread in every run -/

/-- What the timer thread takes, and how long it waits. -/
structure Watches (l : Ledger F) (s : State n F) : Prop where
  /-- A function is taken when it is due. -/
  due : ∀ x ∈ l.taken, x.due ≤ x.now
  /-- No function that is left is due earlier. -/
  first : ∀ x ∈ l.taken, ∀ y ∈ x.left, x.due ≤ y.1
  /-- Every function that has been pushed has been taken once, or is in the heap. -/
  once : (l.taken.map (fun x => (x.due, x.func)) ++ s.delayed_tasks).Perm l.pushed
  /-- What has been taken, and no other delayed function, has been passed to `execute`, or is about
  to be. -/
  handed : (s.accepted ++ s.dropped : Multiset F) + s.timer.job =
    s.executed ++ l.taken.map Take.func
  /-- Where the timer thread waits past the due time of a function in the heap, a notification is
  outstanding: for each such function its own. -/
  awake : (s.delayed_tasks.filter fun x => s.timer.overlooks x.1).length ≤ s.timer_notifies

theorem Booked.watches {l : Ledger F} (hl : Booked l s) (halert : Alert s)
    (haccounted : Accounted s) :
  Watches l s
  := by
  constructor
  · apply hl.due
  · apply hl.first
  · apply Multiset.coe_eq_coe.mp hl.balance
  · have hdelayed : (s.delayed : Multiset F) =
        ↑(l.taken.map Take.func) + ↑(s.delayed_tasks.map Prod.snd) := by
      have hmap := congrArg (Multiset.map Prod.snd) hl.balance
      rw [Multiset.map_add, Multiset.map_coe, Multiset.map_coe, Multiset.map_coe, hl.pushed,
        List.map_map] at hmap
      rw [← hmap]
      rfl
    rw [Accounted, State.pending, hdelayed] at haccounted
    apply add_right_cancel (b := (↑(s.delayed_tasks.map Prod.snd) : Multiset F))
    simp only [← Multiset.coe_add]
    rw [add_assoc (s.executed : Multiset F), ← haccounted]
    abel
  · apply le_trans halert
    split
    · apply Nat.zero_le
    · apply le_refl

/-- In every run the timer thread takes a function only when it is due, and due first, takes each
that is pushed at most once, and waits past the due time of no function in the heap whose
notification is not outstanding. -/
theorem watches_of_run {as : List (Label n F)} {x : Ledger F × State n F}
    (h : Run (noted step record) Free (opened n F) as x) :
  Watches x.1 x.2
  := by
  have hinvariant : Booked x.1 x.2 ∧ Alert x.2 ∧ Accounted x.2 := by
    apply h.invariant fun x => Booked x.1 x.2 ∧ Alert x.2 ∧ Accounted x.2
    · rintro y a z ⟨hbooked, halert, haccounted⟩ _ e
      obtain ⟨hledger, hstep⟩ := noted_eq_some.mp e
      rw [hledger]
      exact ⟨hbooked.step hstep, halert.step hstep, haccounted.step hstep⟩
    · refine ⟨⟨rfl, rfl, ?_, ?_⟩, ?_, ?_⟩
      · simp [opened]
      · simp [opened]
      · apply Nat.zero_le
      · simp [opened, Accounted, State.pending, ThreadPool.initial, Timer.job]
  obtain ⟨hbooked, halert, haccounted⟩ := hinvariant
  apply hbooked.watches halert haccounted

/-- While the timer thread waits for a function, one that is due earlier is pushed; it is taken
first. -/
theorem watches_earlier :
  ∃ as x, Run (noted step record) Free (opened 1 ℕ) as x ∧
    x.1.taken.map (fun y => (y.now, y.due, y.func)) = [(3, 2, 7)] ∧ Watches x.1 x.2
  := by
  obtain ⟨x, hrun, htaken⟩ : ∃ x, Run (noted step record) Free (opened 1 ℕ)
      [.execute_delayed 5 0 9, .timer 0, .timer 0, .execute_delayed 7 0 2, .notify_timer, .timer 1,
        .timer 0, .tick 3, .wake_timer, .timer 1] x ∧
      x.1.taken.map (fun y => (y.now, y.due, y.func)) = [(3, 2, 7)] := by
    apply exists_run_of_exec
    decide
  exact ⟨_, x, hrun, htaken, watches_of_run hrun⟩

end Koroutine.ThreadPool
