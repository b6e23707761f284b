import Koroutine.Task.BlockOn
import Koroutine.Task.ControlStep

/-!
# `block_on` evaluates its task

In every order in which workers take requests, `block_on` of a task that awaits fresh tasks only
gives its caller the outcome of direct evaluation.
-/

open Transition

namespace Koroutine

namespace Tasks

variable {V E : Type} {s : State Empty Empty V E} {p : Point V E} {up : List (Waiting V E)}
  {r : Except E V}

/-- The requests on the scheduler, the coroutines that a thread runs, and the calls of threads that
are about to schedule one. -/
def active (s : State Empty Empty V E) : ℕ :=
  s.queue.length + s.frames.countP (fun f => f.phase.busy) + s.threads.flatten.length

/-- What holds of the tasks along a run. -/
structure Sound (s : State Empty Empty V E) : Prop where
  /-- For one `co_await` the coroutine is scheduled at most once. -/
  scheduled_once : ∀ i, (s.promise i).notified ≤ 1
  /-- When the task is destroyed, at the end of the `co_await`, it has been scheduled. -/
  resumed : ∀ f ∈ s.destroyed, f.id ≠ 0 → (s.promise f.id).notified = 1
  /-- At most one coroutine is on the scheduler or run by a thread. -/
  one_active : active s ≤ 1
  /-- No frame is destroyed twice. -/
  destroyed_once : (s.destroyed.map Frame.id).Nodup
  /-- Frames are destroyed at their final suspend point. -/
  destroyed_final : ∀ f ∈ s.destroyed, f.phase = .final
  /-- `get_result` finds a result. -/
  has_result : ∀ pre i rest c below, s.frames = pre ++ ⟨i, .resuming rest⟩ :: c :: below →
    (s.promise c.id).result ≠ none

theorem Pending.of_mem {promise : ℕ → Promise V E} :
  ∀ {up : List (Waiting V E)}, Pending promise up → ∀ w ∈ up, (promise w.id).notified = 0
  | [], _, w, hw => by simp at hw
  | w' :: up, hp, w, hw => by
      obtain rfl | hw := List.mem_cons.mp hw
      · rw [hp.1]
        rfl
      · apply hp.2.of_mem w hw

/-- The promises at a point are scheduled at most once. -/
theorem Point.Promises.notified_le {promise : ℕ → Promise V E} (hp : p.Promises promise up)
    {f : Frame Empty Empty V E} (hf : f ∈ p.frames) :
  (promise f.id).notified ≤ 1
  := by
  cases p <;>
    simp only [Point.frames, List.mem_cons, List.not_mem_nil, or_false, Waiting.frame] at hf <;>
    simp only [Point.Promises] at hp
  · subst hf
    simp [hp, Promise.pending, Promise.new]
  · subst hf
    simp [hp, Promise.pending, Promise.new]
  · obtain rfl | rfl := hf <;> simp [hp, Promise.pending, Promise.new]
  · obtain rfl | rfl := hf <;> simp [hp, Promise.pending, Promise.unstarted, Promise.new]
  · subst hf
    simp [hp, Promise.settled]
  · obtain rfl | rfl := hf <;> simp [hp, Promise.pending, Promise.settled, Promise.new]
  · obtain rfl | rfl := hf <;> simp [hp, Promise.pending, Promise.settled, Promise.new]
  · obtain rfl | rfl := hf <;> simp [hp, Promise.pending, Promise.settled, Promise.new]
  · obtain rfl | rfl := hf <;> simp [hp, Promise.pending, Promise.settled, Promise.new]
  · subst hf
    simp [hp, Promise.settled]

/-- Every promise has its continuation scheduled at most once. -/
theorem Follows.notified_le (hs : Follows r s p up) (i : ℕ) :
  (s.promise i).notified ≤ 1
  := by
  by_cases hi : i < s.created
  · have hmem := hs.accounted.ids.mem_iff.mpr (List.mem_range.mpr hi)
    rw [List.map_append, List.mem_append, hs.frames, List.map_append, List.mem_append] at hmem
    obtain (hwaiting | hlast) | hdestroyed := hmem
    · obtain ⟨f, hf, rfl⟩ := List.mem_map.mp hwaiting
      obtain ⟨w, hw, rfl⟩ := List.mem_map.mp hf
      have hzero := hs.pending.of_mem w (List.mem_reverse.mp hw)
      simp only [Waiting.frame]
      omega
    · obtain ⟨f, hf, rfl⟩ := List.mem_map.mp hlast
      apply hs.promises.notified_le hf
    · obtain ⟨f, hf, rfl⟩ := List.mem_map.mp hdestroyed
      have hone := (hs.accounted.history f hf).2.2
      omega
  · rw [hs.accounted.fresh i (by omega)]
    exact Nat.zero_le 1

/-- No thread runs one of the coroutines that are suspended. -/
theorem before_countP :
  (before up).countP (fun f => f.phase.busy) = 0
  := by
  apply List.countP_eq_zero.mpr
  intro f hf
  simp [waiting_not_busy hf]

/-- Wherever control is, the tasks are sound. -/
theorem Follows.sound (hs : Follows r s p up) :
  Sound s
  := by
  constructor
  · apply hs.notified_le
  · intro f hf _
    apply (hs.accounted.history f hf).2.2
  · rw [active, hs.queue, hs.calls, hs.frames, List.countP_append, before_countP]
    cases p <;> simp [Point.queue, Point.frames, Point.calls, Phase.busy, Waiting.frame]
  · have hnodup := hs.accounted.nodup
    rw [List.map_append] at hnodup
    apply List.Nodup.of_append_right hnodup
  · intro f hf
    apply (hs.accounted.history f hf).1
  · intro pre i rest c below hframes
    obtain ⟨-, hp⟩ := hs.busy_frame hframes rfl
    have hpromises := hs.promises
    cases p <;> simp only [Point.frames, Waiting.frame, List.cons.injEq, Frame.mk.injEq,
      reduceCtorEq, and_false, false_and] at hp
    obtain ⟨-, rfl, -⟩ := hp
    rw [hpromises.2]
    simp [Promise.settled]

/-- At the end there is only the first frame, with the outcome of the program. -/
theorem Follows.ended {i : ℕ} {r' : Except E V} (hs : Follows r s (.finished i r') up) :
  s.frames = [⟨0, .final⟩] ∧ (s.promise 0).result = some r
  := by
  obtain rfl := hs.finished i r' rfl
  have hframes : s.frames = [⟨i, .final⟩] := hs.frames
  obtain rfl : i = 0 := by simpa [hframes] using hs.accounted.first
  have heq : r' = r := hs.outcome
  constructor
  · apply hframes
  · rw [hs.promises, ← heq]
    rfl

/-- Until the first coroutine has ended, one is on the scheduler or run by a thread. -/
theorem Follows.active_or_ended (hs : Follows r s p up) :
  active s = 1 ∨ s.frames = [⟨0, .final⟩]
  := by
  by_cases hp : ∃ i r', p = .finished i r'
  · obtain ⟨i, r', rfl⟩ := hp
    right
    apply hs.ended.1
  · left
    rw [active, hs.queue, hs.calls, hs.frames, List.countP_append, before_countP]
    cases p <;> simp_all [Point.queue, Point.frames, Point.calls, Phase.busy, Waiting.frame]

/-- When the first frame is at its end, so is control. -/
theorem Follows.finished_of_first (hs : Follows r s p up) {i : ℕ}
    {below : List (Frame Empty Empty V E)} (hframes : s.frames = ⟨i, .final⟩ :: below) :
  ∃ r', p = .finished i r'
  := by
  rw [hs.frames] at hframes
  cases hup : up.reverse with
  | nil =>
      rw [hup] at hframes
      cases p <;> simp_all [Point.frames, Waiting.frame]
  | cons w ws =>
      simp [hup, Waiting.frame] at hframes

end Tasks

namespace BlockOn

open Tasks

variable {V E : Type} {r : Except E V} {s t : State Empty Empty V E} {p : Point V E}
  {up : List (Waiting V E)} {e : E}

/-! ### The flag and the notification -/

/-- The flag has been set. -/
def Signal.raised : Signal → Bool
  | .stored | .notified | .unlocked => true
  | .idle | .locked => false

/-- `notify_one` has been called. -/
def Signal.sent : Signal → Bool
  | .notified | .unlocked => true
  | .idle | .locked | .stored => false

/-- What the calling thread waits for. -/
def monitor (s : State Empty Empty V E) : Monitor :=
  ⟨s.is_completed, s.signal.sent, s.waiter⟩

/-- What holds of the flag, the mutex and the calling thread while control is at `p`. -/
structure Signals (s : State Empty Empty V E) (p : Point V E) : Prop where
  begun : s.signal ≠ .idle → ∃ i r', p = .finished i r'
  mutex : s.signal.holds = true → s.waiter.holds = false
  flag : s.is_completed = s.signal.raised
  awake : (monitor s).Awake
  through : s.waiter = .through → s.signal = .unlocked

/-- The wrapper's `FinalAwaiter` locks the mutex. -/
theorem Signals.lock (hs : Signals s p) (hsignal : s.signal = .idle)
    (hp : ∃ i r', p = .finished i r') (hfree : s.waiter.holds = false) :
  Signals { s with signal := .locked } p
  := by
  obtain ⟨hbegun, hmutex, hflag, hawake, hthrough⟩ := hs
  rw [hsignal] at hflag
  constructor
  · intro _
    apply hp
  · intro _
    apply hfree
  · apply hflag
  · simpa [monitor, hsignal, Signal.sent] using hawake
  · intro hw
    exact absurd hw (Waiter.ne_of_free hfree rfl)

/-- It sets the flag. -/
theorem Signals.store (hs : Signals s p) (hsignal : s.signal = .locked) :
  Signals { s with signal := .stored, is_completed := true } p
  := by
  obtain ⟨hbegun, hmutex, hflag, hawake, hthrough⟩ := hs
  have hfree : s.waiter.holds = false := hmutex (by rw [hsignal]; rfl)
  constructor
  · intro _
    apply hbegun
    simp [hsignal]
  · intro _
    apply hfree
  · rfl
  · have hraise := hawake.step (a := .raise) (by simp [Monitor.Timely]) rfl
    simpa [monitor, hsignal, Signal.sent] using hraise
  · intro hw
    exact absurd hw (Waiter.ne_of_free hfree rfl)

/-- It notifies the calling thread, which is not about to block, as the mutex is locked. -/
theorem Signals.notify (hs : Signals s p) (hsignal : s.signal = .stored) :
  Signals { s with signal := .notified, waiter := s.waiter.notify } p
  := by
  obtain ⟨hbegun, hmutex, hflag, hawake, hthrough⟩ := hs
  have hfree : s.waiter.holds = false := hmutex (by rw [hsignal]; rfl)
  have hraised : s.is_completed = true := by
    rw [hflag, hsignal]
    rfl
  constructor
  · intro _
    apply hbegun
    simp [hsignal]
  · intro _
    simpa using hfree
  · rw [hraised]
    rfl
  · apply hawake.step (a := .notify)
    · intro _
      apply Waiter.ne_of_free hfree rfl
    · simp [Monitor.step, monitor, hraised, Signal.sent]
  · intro hw
    exact absurd (Waiter.notify_eq_through.mp hw) (Waiter.ne_of_free hfree rfl)

/-- It unlocks the mutex. -/
theorem Signals.unlock (hs : Signals s p) (hsignal : s.signal = .notified) :
  Signals { s with signal := .unlocked } p
  := by
  obtain ⟨hbegun, hmutex, hflag, hawake, hthrough⟩ := hs
  constructor
  · intro _
    apply hbegun
    simp [hsignal]
  · simp [Signal.holds]
  · rw [hsignal] at hflag
    apply hflag
  · simpa [monitor, hsignal, Signal.sent] using hawake
  · intro _
    rfl

/-- A step of the wrapper's `FinalAwaiter`. -/
theorem Signals.signal (hs : Signals s p) (hp : s.signal = .idle → ∃ i r', p = .finished i r')
    (h : signalStep s = some t) :
  Signals t p
  := by
  cases hsignal : s.signal with
  | idle =>
      simp only [signalStep, hsignal] at h
      split at h
      · split at h
        · contradiction
        · rename_i hfree
          obtain rfl := Option.some.inj h
          apply hs.lock hsignal (hp hsignal)
          simpa using hfree
      · contradiction
  | locked =>
      simp only [signalStep, hsignal, Option.some.injEq] at h
      subst h
      apply hs.store hsignal
  | stored =>
      simp only [signalStep, hsignal, Option.some.injEq] at h
      subst h
      apply hs.notify hsignal
  | notified =>
      simp only [signalStep, hsignal, Option.some.injEq] at h
      subst h
      apply hs.unlock hsignal
  | unlocked => simp [signalStep, hsignal] at h

/-- A move of the calling thread. -/
theorem Signals.waiter {m : Waiter.Move} {w : Waiter} (hs : Signals s p)
    (h : s.waiter.step (!s.signal.holds) s.is_completed m = some w) :
  Signals { s with waiter := w } p
  := by
  obtain ⟨hbegun, hmutex, hflag, hawake, hthrough⟩ := hs
  constructor
  · apply hbegun
  · intro hholds
    have hfree := hmutex hholds
    obtain ⟨-, -, hfree', -⟩ | ⟨-, hw, -⟩ | ⟨-, hw, -⟩ | ⟨-, hw, -⟩ | ⟨-, -, rfl⟩ :=
      Monitor.waiter_step_cases h
    · simp [hholds] at hfree'
    · exact absurd hw (Waiter.ne_of_free hfree rfl)
    · exact absurd hw (Waiter.ne_of_free hfree rfl)
    · exact absurd hw (Waiter.ne_of_free hfree rfl)
    · rfl
  · apply hflag
  · apply hawake.step (a := .waiter m)
    · simp [Monitor.Timely]
    · simp [Monitor.step, monitor, Waiter.step_free h]
  · rintro rfl
    obtain ⟨-, -, -, hw⟩ | ⟨-, hw, hpred, -⟩ | ⟨-, -, -, hw⟩ | ⟨-, -, hw⟩ | ⟨-, -, hw⟩ :=
      Monitor.waiter_step_cases h <;> try contradiction
    rw [hflag] at hpred
    simp only [hw, Waiter.holds] at hmutex
    cases hsignal : s.signal <;> simp_all [Signal.raised, Signal.holds]

/-! ### Where `block_on` is -/

/-- `block_on` waits, and will give outcome `r`. -/
structure Waits (r : Except E V) (s : State Empty Empty V E) (p : Point V E)
    (up : List (Waiting V E)) : Prop where
  tasks : Follows r s.tasks p up
  signals : Signals s p
  returned : s.returned = none

/-- `block_on` has returned with outcome `r`. -/
structure Returned (r : Except E V) (s : State Empty Empty V E) : Prop where
  returned : s.returned = some r
  signal : s.signal = .unlocked
  waiter : s.waiter = .through
  frames : s.tasks.frames = []
  queue : s.tasks.queue = []
  calls : s.tasks.threads.flatten = []
  sound : Sound s.tasks
  destroyed : (s.tasks.destroyed.map Frame.id).Perm (List.range s.tasks.created)

/-- How many steps the wrapper's `FinalAwaiter` causes, those of a thread it wakes included. -/
def Signal.rank : Signal → ℕ
  | .idle => 7
  | .locked => 6
  | .stored => 5
  | .notified => 1
  | .unlocked => 0

/-- How many steps the calling thread makes, unless it is woken. -/
def waiterRank : Waiter → ℕ
  | .through => 1
  | .blocked => 2
  | .committed => 3
  | .holding => 4
  | .outside | .woken => 5

/-- How many steps are still to be made, until the calling thread wakes up spuriously. -/
def rank (s : State Empty Empty V E) (p : Point V E) (up : List (Waiting V E)) : ℕ :=
  distance p up + s.signal.rank + waiterRank s.waiter

/-- A spurious wake-up of the calling thread costs it steps. -/
def Label.credit : Label Empty V E → ℕ
  | .waiter .spurious => 4
  | _ => 0

/-- `block_on` gives outcome `r`, after at most `n` more steps. -/
def Gives (r : Except E V) (s : State Empty Empty V E) (n : ℕ) : Prop :=
  (∃ p up, Waits r s p up ∧ n = rank s p up) ∨ (Returned r s ∧ n = 0)

theorem Gives.initial (body : Body Empty Empty V E) :
  Gives body.eval (BlockOn.initial none body) (cost body + 23)
  := by
  left
  refine ⟨.queued 0 (wrapper none body), [], ?_, ?_⟩
  · constructor
    · have hfollows := Follows.initial (wrapper none body)
      have heval : (wrapper none body).eval = body.eval := by
        simp only [wrapper, Body.eval]
        cases body.eval <;> rfl
      rw [heval] at hfollows
      apply hfollows
    · constructor
      · simp [BlockOn.initial]
      · simp [BlockOn.initial, Signal.holds]
      · rfl
      · constructor <;> simp [monitor, BlockOn.initial, Signal.sent]
      · simp [BlockOn.initial]
    · rfl
  · have hcost : cost (Body.ofOutcome body.eval : Body Empty Empty V E) = 6 := by
      cases body.eval <;> rfl
    simp only [rank, distance, Point.cost, wrapper, cost, hcost, remaining, BlockOn.initial,
      Signal.rank, waiterRank]
    omega

/-! ### Steps -/

/-- A step of the coroutines. -/
theorem Waits.tasks_step {a : Tasks.Label Empty V E} (hs : Waits r s p up)
    (h : step e s (.tasks a) = some t) :
  ∃ p' up', Waits r t p' up' ∧ rank t p' up' < rank s p up
  := by
  simp only [step] at h
  split at h
  · contradiction
  · rename_i tasks htasks
    obtain rfl := Option.some.inj h
    obtain ⟨p', up', hfollows, hlt⟩ := hs.tasks.step htasks
    refine ⟨p', up', ?_, ?_⟩
    · constructor
      · apply hfollows
      · obtain ⟨hbegun, hmutex, hflag, hawake, hthrough⟩ := hs.signals
        constructor
        · intro hsignal
          obtain ⟨i, r', rfl⟩ := hbegun hsignal
          obtain rfl := hs.tasks.finished i r' rfl
          simp [distance, Point.cost, remaining] at hlt
        · apply hmutex
        · apply hflag
        · apply hawake
        · apply hthrough
      · apply hs.returned
    · simp only [rank]
      omega

/-- A step of the wrapper's `FinalAwaiter`. -/
theorem Waits.signal_step (hs : Waits r s p up) (h : signalStep s = some t) :
  Waits r t p up ∧ rank t p up < rank s p up
  := by
  have hsignals : Signals t p := by
    apply hs.signals.signal _ h
    intro hidle
    simp only [signalStep, hidle] at h
    split at h
    · rename_i i below hframes
      obtain ⟨r', rfl⟩ := hs.tasks.finished_of_first hframes
      exact ⟨i, r', rfl⟩
    · contradiction
  have hsame : t.tasks = s.tasks ∧ t.returned = s.returned ∧ t.signal.rank + waiterRank t.waiter <
      s.signal.rank + waiterRank s.waiter := by
    cases hsignal : s.signal with
    | idle =>
        simp only [signalStep, hsignal] at h
        split at h
        · split at h
          · contradiction
          · obtain rfl := Option.some.inj h
            simp [Signal.rank]
        · contradiction
    | stored =>
        simp only [signalStep, hsignal, Option.some.injEq] at h
        subst h
        cases s.waiter <;> simp [Signal.rank, Waiter.notify, waiterRank]
    | locked | notified =>
        simp only [signalStep, hsignal, Option.some.injEq] at h
        subst h
        simp [Signal.rank]
    | unlocked => simp [signalStep, hsignal] at h
  obtain ⟨htasks, hreturned, hlt⟩ := hsame
  constructor
  · constructor
    · rw [htasks]
      apply hs.tasks
    · apply hsignals
    · rw [hreturned]
      apply hs.returned
  · simp only [rank]
    omega

/-- A move of the calling thread. -/
theorem Waits.waiter_step {m : Waiter.Move} (hs : Waits r s p up)
    (h : step e s (.waiter m) = some t) :
  Waits r t p up ∧ rank t p up + 1 ≤ rank s p up + (.waiter m : Label Empty V E).credit
  := by
  simp only [step] at h
  split at h
  · contradiction
  · rename_i w hw
    obtain rfl := Option.some.inj h
    constructor
    · constructor
      · apply hs.tasks
      · apply hs.signals.waiter hw
      · apply hs.returned
    · simp only [rank]
      obtain ⟨rfl, hw' | hw', -, rfl⟩ | ⟨rfl, hw', -, rfl⟩ | ⟨rfl, hw', -, rfl⟩ | ⟨rfl, hw', rfl⟩ |
        ⟨rfl, hw', rfl⟩ := Monitor.waiter_step_cases hw <;>
        simp only [hw', waiterRank, Label.credit] <;> omega

/-- The calling thread returns. -/
theorem Waits.leave (hs : Waits r s p up) (h : leave s = some t) :
  Returned r t
  := by
  obtain ⟨htasks, hsignals, -⟩ := hs
  simp only [BlockOn.leave] at h
  split at h
  · rename_i hleave
    have hsignal := hsignals.through hleave.1
    obtain ⟨i, r', rfl⟩ := hsignals.begun (by simp [hsignal])
    obtain ⟨hframes, hresult⟩ := htasks.ended
    simp only [hresult, Option.some.injEq] at h
    subst h
    have hids : ((s.tasks.destroyed ++ s.tasks.frames).map Frame.id).Perm
        (List.range s.tasks.created) := by
      apply (List.Perm.map _ List.perm_append_comm).trans htasks.accounted.ids
    constructor
    · rfl
    · apply hsignal
    · apply hleave.1
    · rfl
    · apply htasks.queue
    · apply htasks.calls
    · constructor
      · apply htasks.notified_le
      · intro f hf hne
        obtain hf | hf := List.mem_append.mp hf
        · apply (htasks.accounted.history f hf).2.2
        · simp only [hframes, List.mem_singleton] at hf
          exact absurd (congrArg Frame.id hf) hne
      · simp [active, Tasks.State.destroy, htasks.queue, htasks.calls, Point.queue, Point.calls]
      · apply hids.nodup_iff.mpr List.nodup_range
      · intro f hf
        obtain hf | hf := List.mem_append.mp hf
        · apply (htasks.accounted.history f hf).1
        · obtain rfl : f = ⟨0, .final⟩ := by simpa [hframes] using hf
          rfl
      · simp
    · apply hids
  · contradiction

/-- After `block_on` has returned there are no more steps. -/
theorem Returned.done {a : Label Empty V E} (hs : Returned r s) :
  step e s a = none
  := by
  obtain ⟨hreturned, hsignal, hwaiter, hframes, hqueue, hcalls, -, -⟩ := hs
  cases a with
  | tasks a =>
      have hnone : Tasks.step e s.tasks a = none := by
        cases a with
        | execute k d => simp [Tasks.step, hqueue]
        | go d | fire d r => simp [Tasks.step, State.split, hframes]
        | call m =>
            simp only [Tasks.step]
            split
            · rename_i c calls hm
              have hempty := List.flatten_eq_nil_iff.mp hcalls _ (List.mem_of_getElem? hm)
              contradiction
            · rfl
        | cancel token => exact token.elim
        | late k r =>
            simp only [Tasks.step]
            split
            · rename_i event _ _
              exact event.elim
            · rfl
      simp [step, hnone]
  | signal => simp [step, signalStep, hsignal]
  | waiter m => cases m <;> simp [step, hwaiter, Waiter.step]
  | leave => simp [step, BlockOn.leave, hreturned]

/-- Every step lowers the number of those still to be made, spurious wake-ups apart. -/
theorem Gives.step {a : Label Empty V E} {n : ℕ} (hs : Gives r s n) (h : step e s a = some t) :
  ∃ m, Gives r t m ∧ m + 1 ≤ n + a.credit
  := by
  obtain ⟨p, up, hwaits, rfl⟩ | ⟨hreturned, rfl⟩ := hs
  · cases a with
    | tasks a =>
        obtain ⟨p', up', ht, hlt⟩ := hwaits.tasks_step h
        refine ⟨_, Or.inl ⟨p', up', ht, rfl⟩, ?_⟩
        simp only [Label.credit]
        omega
    | signal =>
        obtain ⟨ht, hlt⟩ := hwaits.signal_step h
        refine ⟨_, Or.inl ⟨p, up, ht, rfl⟩, ?_⟩
        simp only [Label.credit]
        omega
    | waiter m =>
        obtain ⟨ht, hle⟩ := hwaits.waiter_step h
        exact ⟨_, Or.inl ⟨p, up, ht, rfl⟩, hle⟩
    | leave =>
        refine ⟨0, Or.inr ⟨hwaits.leave h, rfl⟩, ?_⟩
        have hthrough : s.waiter = .through := by
          simp only [BlockOn.step, BlockOn.leave] at h
          split at h
          · rename_i hleave
            apply hleave.1
          · contradiction
        simp only [rank, hthrough, waiterRank]
        omega
  · rw [hreturned.done] at h
    contradiction

/-! ### There is a step until `block_on` returns -/

/-- The calling thread can move while it holds the mutex. -/
theorem exists_move (free pred : Bool) {w : Waiter} (hw : w.holds = true) (hne : w ≠ .through) :
  ∃ m w', m ≠ .spurious ∧ w.step free pred m = some w'
  := by
  cases w with
  | holding => exact ⟨.check, _, by simp, rfl⟩
  | committed => exact ⟨.block, _, by simp, rfl⟩
  | through => contradiction
  | outside | blocked | woken => contradiction

theorem exists_step {a : Label Empty V E} (ha : a ≠ .waiter .spurious) (h : (step e s a).isSome) :
  ∃ a t, a ≠ .waiter .spurious ∧ step e s a = some t
  := by
  obtain ⟨t, ht⟩ := Option.isSome_iff_exists.mp h
  exact ⟨a, t, ha, ht⟩

/-- Until `block_on` returns there is a step other than a spurious wake-up. -/
theorem Waits.progress (e : E) (hs : Waits r s p up) :
  ∃ a t, a ≠ .waiter .spurious ∧ step e s a = some t
  := by
  obtain ⟨i, r', rfl⟩ | ⟨a, tasks, ha⟩ := hs.tasks.progress e
  · obtain ⟨hframes, hresult⟩ := hs.tasks.ended
    have hsignals := hs.signals
    cases hsignal : s.signal with
    | idle =>
        cases hholds : s.waiter.holds with
        | true =>
            have hne : s.waiter ≠ .through := by
              intro hw
              simp [hsignals.through hw] at hsignal
            obtain ⟨m, w, hm, hw⟩ := exists_move (!s.signal.holds) s.is_completed hholds hne
            apply exists_step (a := .waiter m) (by simpa using hm)
            simp [step, hw]
        | false =>
            apply exists_step (a := .signal) (by simp)
            simp [step, signalStep, hsignal, hframes, hholds]
    | locked | stored | notified =>
        apply exists_step (a := .signal) (by simp)
        simp [step, signalStep, hsignal]
    | unlocked =>
        have hraised : s.is_completed = true := by
          rw [hsignals.flag, hsignal]
          rfl
        have hsent : (monitor s).notified = true := by simp [monitor, hsignal, Signal.sent]
        cases hw : s.waiter with
        | outside | woken =>
            apply exists_step (a := .waiter .acquire) (by simp)
            simp [step, hw, hsignal, Waiter.step, Signal.holds]
        | holding =>
            apply exists_step (a := .waiter .check) (by simp)
            simp [step, hw, Waiter.step]
        | committed => exact absurd hw (hsignals.awake.committed hsent)
        | blocked => exact absurd hw (hsignals.awake.blocked hsent)
        | through =>
            apply exists_step (a := .leave) (by simp)
            simp [step, BlockOn.leave, hw, hs.returned, hresult]
  · apply exists_step (a := .tasks a) (by simp)
    simp [step, ha]

/-! ### The result -/

/-- What holds in every state of `block_on` of a program with outcome `r`. -/
structure Evaluates (e : E) (r : Except E V) (s : State Empty Empty V E) : Prop where
  /-- It returns, or rethrows, the outcome of the program. -/
  returns : ∀ r', s.returned = some r' → r' = r
  sound : Sound s.tasks
  /-- Until the wrapper has ended, something is on the scheduler or running. -/
  active_or_ended : s.returned = none → active s.tasks = 1 ∨ s.tasks.frames = [⟨0, .final⟩]
  /-- Until it has returned, there is a step to be made. -/
  progress : s.returned = none → ∃ a t, a ≠ .waiter .spurious ∧ step e s a = some t
  /-- When it has returned, every frame has been destroyed. -/
  all_destroyed : s.returned ≠ none → ∀ i < s.tasks.created, i ∈ s.tasks.destroyed.map Frame.id

theorem Gives.evaluates (e : E) {n : ℕ} (hs : Gives r s n) :
  Evaluates e r s
  := by
  obtain ⟨p, up, hwaits, -⟩ | ⟨hreturned, -⟩ := hs
  · constructor
    · intro r' hr'
      simp [hwaits.returned] at hr'
    · apply hwaits.tasks.sound
    · intro _
      apply hwaits.tasks.active_or_ended
    · intro _
      apply hwaits.progress e
    · intro hr'
      exact absurd hwaits.returned hr'
  · constructor
    · intro r' hr'
      rw [hreturned.returned] at hr'
      exact (Option.some.inj hr').symm
    · apply hreturned.sound
    · simp [hreturned.returned]
    · simp [hreturned.returned]
    · intro _ i hi
      apply hreturned.destroyed.mem_iff.mpr
      apply List.mem_range.mpr hi

/-- In every run `block_on` of a task evaluates the task, and the run has as many steps as it
takes, but for spurious wake-ups. -/
theorem block_on_evaluates {ov : Overload V} {task : Program V E} {as : List (Label Empty V E)}
    (h : Run (step e) Free (initial none (ov.task task).body) as s) :
  Evaluates e (ov.outcome task.value) s ∧
    as.length ≤ cost (ov.task task).body + 23 + (as.map Label.credit).sum
  := by
  have hinitial := Gives.initial (ov.task task).body
  rw [Program.eval_body, Overload.value_task] at hinitial
  obtain ⟨n, hgives, hlength⟩ := h.length_le_of_rank Label.credit (fun t a u n hg _ hstep =>
    hg.step hstep) hinitial
  constructor
  · apply hgives.evaluates
  · omega

/-- A task that awaits one that throws `7`, and catches the exception. -/
def catching : Program ℕ ℕ :=
  .tryCatch (.coAwait (.throw 7) .leave) (fun e => .leave (e + 1)) .coReturn

/-- The calling thread is blocked before the wrapper runs; at the end it is woken and returns
`8`. -/
theorem block_on_evaluates_catching :
  ∃ as s, Run (step 0) Free (initial none (Overload.value.task catching).body) as s ∧
    s.returned = some (.ok 8) ∧ Evaluates 0 (.ok 8) s ∧ as.length = 33
  := by
  let calls (d : ℕ) : List (Label Empty ℕ ℕ) := [.tasks (.execute 0 d), .tasks (.go d), .tasks (.go d)]
  let ends (d : ℕ) : List (Label Empty ℕ ℕ) := [.tasks (.go d), .tasks (.go d)]
  let as : List (Label Empty ℕ ℕ) := List.flatten
    [[.waiter .acquire, .waiter .check, .waiter .block], calls 0, [.tasks (.call 0)], calls 1,
      [.tasks (.call 1)], calls 2, [.tasks (.call 2)], calls 1, ends 1, [.tasks (.call 3)], calls 0,
      ends 0, [.signal, .signal, .signal, .signal], [.waiter .acquire, .waiter .check, .leave]]
  obtain ⟨s, hrun, hreturned⟩ : ∃ s : State Empty Empty ℕ ℕ, Run (step 0) Free
      (initial none (Overload.value.task catching).body) as s ∧ s.returned = some (.ok 8) := by
    apply exists_run_of_exec
    decide +kernel
  have hvalue : Overload.value.outcome catching.value = .ok 8 := rfl
  have hevaluates := (block_on_evaluates hrun).1
  rw [hvalue] at hevaluates
  have hlength : as.length = 33 := by decide
  exact ⟨as, s, hrun, hreturned, hevaluates, hlength⟩

end BlockOn

end Koroutine
