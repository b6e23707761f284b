import Koroutine.Combinator.WhenAll

/-!
# What `when_all` gives

Each wrapper writes its task's value to its own position of the results, or appends the exception to
the list, with the mutex locked.  The coroutine calls `await_resume` after the counter has reached
`0`, which is after every wrapper has done so.

The history of a run keeps two orders: the one in which the tasks completed, for their wrappers, and
the one in which the wrappers locked the mutex.  The exception that is rethrown is that of the first
failed task in the second order, which need not be the first in the other.
-/

open Transition

namespace Koroutine.WhenAll

variable {V E : Type*} {n : ℕ}

/-- The tasks in the order in which the `co_await` of their wrappers ended, and in the order in
which their wrappers locked the mutex. -/
structure History (n : ℕ) where
  completed : List (Fin n)
  locked : List (Fin n)

/-- The history after a step. -/
def record (s : State V E n) : Label n → History n → History n
  | .wrapper i, h =>
      match s.wrappers i with
      | .awaiting => { h with completed := h.completed ++ [i] }
      | .resumed => { h with locked := h.locked ++ [i] }
      | _ => h
  | _, h => h

/-- The step function, with the history. -/
def historyStep (ov : Overload) (outcomes : Fin n → Except E V) :
    History n × State V E n → Label n → Option (History n × State V E n) :=
  noted (step ov outcomes) record

/-- Before the coroutine is started. -/
def start (V E : Type*) (n : ℕ) : History n × State V E n := (⟨[], []⟩, initial V E n)

/-- The exception of a task that fails. -/
def failure : Except E V → Option E
  | .ok _ => none
  | .error e => some e

/-- The exceptions of the failed tasks in the list. -/
def failures (outcomes : Fin n → Except E V) (order : List (Fin n)) : List E :=
  order.filterMap fun i => failure (outcomes i)

/-- The exception of the first failed task in the list. -/
def firstFailure (outcomes : Fin n → Except E V) (order : List (Fin n)) : Option E :=
  (failures outcomes order).head?

/-- What the coroutine gives, with the tasks in the given order: their values, each at its position,
if there is no failure, or else the exception of the first failed task, and only after every task
has completed and its wrapper has decremented the counter. -/
structure Yields (outcomes : Fin n → Except E V) (order completed : List (Fin n))
    (s : State V E n) : Prop where
  values : ∀ vs : Fin n → V, (∀ i, outcomes i = .ok (vs i)) → ∀ o, s.outcome = some o →
    o = .ok fun i => some (vs i)
  rethrows : ∀ i e, outcomes i = .error e → ∀ o, s.outcome = some o →
    ∃ e', firstFailure outcomes order = some e' ∧ o = .error e'
  after_all : s.outcome ≠ none → ∀ i, i ∈ completed ∧ (s.wrappers i).uncounted = 0
  /-- No empty optional is dereferenced. -/
  nonempty : ∀ results, s.outcome = some (.ok results) → ∀ i, results i ≠ none

/-! ### The invariant -/

/-- The wrapper's `co_await` has ended. -/
def Stage.completed : Stage → Bool
  | .unborn | .created | .queued | .awaiting => false
  | .resumed | .locked | .stored | .unlocked | .counted _ | .dispatching | .settled | .finishing
  | .returned | .final => true

/-- The wrapper has locked the mutex. -/
def Stage.entered : Stage → Bool
  | .unborn | .created | .queued | .awaiting | .resumed => false
  | .locked | .stored | .unlocked | .counted _ | .dispatching | .settled | .finishing | .returned
  | .final => true

/-- The wrapper has recorded the outcome of its task. -/
def Stage.recorded : Stage → Bool
  | .unborn | .created | .queued | .awaiting | .resumed | .locked => false
  | .stored | .unlocked | .counted _ | .dispatching | .settled | .finishing | .returned
  | .final => true

/-- The wrapper of a task with outcome `r` holds the mutex. -/
def Stage.locks (ov : Overload) (r : Except E V) : Stage → Bool
  | .locked | .stored => true
  | .unlocked | .counted _ | .dispatching | .settled => !unlocksFirst ov r
  | .unborn | .created | .queued | .awaiting | .resumed | .finishing | .returned | .final => false

/-- The exception that the holder of the mutex has still to append. -/
def State.unrecorded (outcomes : Fin n → Except E V) (s : State V E n) : List E :=
  match s.mtx with
  | some i => if s.wrappers i = .locked then failures outcomes [i] else []
  | none => []

/-- What is recorded, and the history. -/
structure Recorded (ov : Overload) (outcomes : Fin n → Except E V)
    (x : History n × State V E n) : Prop where
  owned : Owned (fun i st => st.locks ov (outcomes i)) id x.2.wrappers x.2.mtx
  completed : ∀ i, (x.2.wrappers i).completed = true → i ∈ x.1.completed
  entered : ∀ i, (x.2.wrappers i).entered = true → i ∈ x.1.locked
  results : ∀ i v, (x.2.wrappers i).recorded = true → outcomes i = .ok v →
    x.2.results i = some v
  exceptions : failures outcomes x.1.locked = x.2.exceptions ++ x.2.unrecorded outcomes
  ready : 0 < x.2.queue ∨ x.2.suspend = .dispatching ∨ x.2.body = .resuming →
    x.2.remaining = 0

variable {ov : Overload} {outcomes : Fin n → Except E V} {h h' : History n} {s t : State V E n}
  {i : Fin n}

theorem Recorded.start :
  Recorded ov outcomes (start V E n)
  := by
  constructor
  · intro i hi
    contradiction
  · intro i hi
    contradiction
  · intro i hi
    contradiction
  · intro i v hi
    contradiction
  · rfl
  · simp [WhenAll.start, initial]

/-- A wrapper goes on to stage `st`, and nothing is recorded by its step. -/
theorem Recorded.goto {st : Stage} (hs : Recorded ov outcomes (h, s))
    (hw : t.wrappers = Function.update s.wrappers i st)
    (howned : Owned (fun i st => st.locks ov (outcomes i)) id t.wrappers t.mtx)
    (hrec : t.results = s.results ∧ t.exceptions = s.exceptions)
    (hcompleted : st.completed = true → i ∈ h'.completed)
    (hentered : st.entered = true → i ∈ h'.locked)
    (hrecorded : st.recorded = true → (s.wrappers i).recorded = true)
    (hmono : (∀ j ∈ h.completed, j ∈ h'.completed) ∧ ∀ j ∈ h.locked, j ∈ h'.locked)
    (hexc : failures outcomes h'.locked = t.exceptions ++ t.unrecorded outcomes)
    (hready : 0 < t.queue ∨ t.suspend = .dispatching ∨ t.body = .resuming → t.remaining = 0) :
  Recorded ov outcomes (h', t)
  := by
  constructor
  · apply howned
  · intro j hj
    simp only [hw] at hj
    by_cases hji : j = i
    · subst hji
      apply hcompleted
      simpa using hj
    · rw [Function.update_of_ne hji] at hj
      apply hmono.1
      apply hs.completed j hj
  · intro j hj
    simp only [hw] at hj
    by_cases hji : j = i
    · subst hji
      apply hentered
      simpa using hj
    · rw [Function.update_of_ne hji] at hj
      apply hmono.2
      apply hs.entered j hj
  · intro j v hj hv
    simp only [hw] at hj
    simp only [hrec.1]
    by_cases hji : j = i
    · subst hji
      apply hs.results j v _ hv
      apply hrecorded
      simpa using hj
    · rw [Function.update_of_ne hji] at hj
      apply hs.results j v hj hv
  · apply hexc
  · apply hready

theorem failures_append (order order' : List (Fin n)) :
  failures outcomes (order ++ order') = failures outcomes order ++ failures outcomes order'
  := List.filterMap_append

/-- A step that neither is made by a holder with an exception to append nor touches the mutex. -/
theorem State.unrecorded_goto {st : Stage} (hw : t.wrappers = Function.update s.wrappers i st)
    (hmtx : t.mtx = s.mtx) (hst : st ≠ .locked) (hi : s.wrappers i ≠ .locked) :
  t.unrecorded outcomes = s.unrecorded outcomes
  := by
  rw [unrecorded, unrecorded, hmtx, hw]
  cases s.mtx with
  | none => rfl
  | some j =>
      by_cases hji : j = i
      · subst hji
        simp [hst, hi]
      · simp [Function.update_of_ne hji]

/-- Where no wrapper holds the mutex there is nothing to append. -/
theorem State.unrecorded_free (hmtx : s.mtx = none) :
  s.unrecorded outcomes = []
  := by
  rw [unrecorded, hmtx]

/-- The wrapper that holds the mutex. -/
theorem State.unrecorded_held (hmtx : s.mtx = some i) :
  s.unrecorded outcomes = if s.wrappers i = .locked then failures outcomes [i] else []
  := by
  rw [unrecorded, hmtx]

/-- A wrapper goes on, and neither locks nor unlocks the mutex nor records. -/
theorem Recorded.goOn {st : Stage} (hs : Recorded ov outcomes (h, s))
    (hw : t.wrappers = Function.update s.wrappers i st)
    (hsame : t.mtx = s.mtx ∧ t.results = s.results ∧ t.exceptions = s.exceptions)
    (hlocks : st.locks ov (outcomes i) = true → (s.wrappers i).locks ov (outcomes i) = true)
    (hstages : (st.completed = true → (s.wrappers i).completed = true) ∧
      (st.entered = true → (s.wrappers i).entered = true) ∧
      (st.recorded = true → (s.wrappers i).recorded = true))
    (hst : st ≠ .locked ∧ s.wrappers i ≠ .locked)
    (hready : 0 < t.queue ∨ t.suspend = .dispatching ∨ t.body = .resuming → t.remaining = 0) :
  Recorded ov outcomes (h, t)
  := by
  obtain ⟨hmtx, hres, hexc⟩ := hsame
  apply hs.goto hw
  · rw [hw, hmtx]
    apply hs.owned.update hlocks
  · exact ⟨hres, hexc⟩
  · intro hi
    apply hs.completed i (hstages.1 hi)
  · intro hi
    apply hs.entered i (hstages.2.1 hi)
  · apply hstages.2.2
  · constructor <;> intro _ hj <;> apply hj
  · rw [hexc, State.unrecorded_goto hw hmtx hst.1 hst.2]
    apply hs.exceptions
  · apply hready

/-- A wrapper goes on, and unlocks the mutex. -/
theorem Recorded.unlock {st : Stage} (hs : Recorded ov outcomes (h, s))
    (hheld : (s.wrappers i).locks ov (outcomes i) = true)
    (hlocks : st.locks ov (outcomes i) = false)
    (hstages : (s.wrappers i).completed = true ∧ (s.wrappers i).entered = true ∧
      (s.wrappers i).recorded = true) :
  Recorded ov outcomes (h, s.unlock i st)
  := by
  have hne : s.wrappers i ≠ .locked := by
    intro hst
    simp [hst, Stage.recorded] at hstages
  have hexc := hs.exceptions
  rw [State.unrecorded_held (hs.owned i hheld), id, if_neg hne] at hexc
  refine hs.goto (i := i) rfl ?_ ?_ ?_ ?_ ?_ ?_ ?_ ?_
  · apply hs.owned.release Function.injective_id hheld hlocks
  · exact ⟨rfl, rfl⟩
  · intro _
    apply hs.completed i hstages.1
  · intro _
    apply hs.entered i hstages.2.1
  · intro _
    apply hstages.2.2
  · constructor <;> intro _ hj <;> apply hj
  · rw [State.unrecorded_free rfl]
    apply hexc
  · apply hs.ready

/-- The `co_await` of a wrapper ends. -/
theorem Recorded.complete (hs : Recorded ov outcomes (h, s)) (hi : s.wrappers i = .awaiting) :
  Recorded ov outcomes ({ h with completed := h.completed ++ [i] }, s.goto i .resumed)
  := by
  refine hs.goto (i := i) rfl ?_ ?_ ?_ ?_ ?_ ?_ ?_ ?_
  · apply hs.owned.update
    simp [Stage.locks]
  · exact ⟨rfl, rfl⟩
  · simp
  · simp [Stage.entered]
  · simp [Stage.recorded]
  · constructor
    · intro j hj
      apply List.mem_append_left _ hj
    · intro j hj
      apply hj
  · have hsame : (s.goto i .resumed).unrecorded outcomes = s.unrecorded outcomes := by
      refine State.unrecorded_goto (i := i) rfl rfl ?_ ?_ <;> simp [hi]
    rw [hsame]
    apply hs.exceptions
  · apply hs.ready

/-- A wrapper locks the mutex. -/
theorem Recorded.lock (hs : Recorded ov outcomes (h, s)) (hi : s.wrappers i = .resumed)
    (hfree : s.mtx = none) :
  Recorded ov outcomes ({ h with locked := h.locked ++ [i] }, s.lock i)
  := by
  have hexc := hs.exceptions
  have howned := hs.owned
  rw [State.unrecorded_free hfree, List.append_nil] at hexc
  simp only [hfree] at howned
  refine hs.goto (i := i) rfl ?_ ?_ ?_ ?_ ?_ ?_ ?_ ?_
  · apply howned.acquire
  · exact ⟨rfl, rfl⟩
  · intro _
    apply hs.completed i
    rw [hi]
    rfl
  · simp
  · simp [Stage.recorded]
  · constructor
    · intro j hj
      apply hj
    · intro j hj
      apply List.mem_append_left _ hj
  · have hheld : (s.lock i).unrecorded outcomes = failures outcomes [i] := by
      rw [State.unrecorded_held (i := i) rfl, if_pos]
      simp [State.lock]
    rw [hheld, failures_append, hexc]
    rfl
  · apply hs.ready

/-- A wrapper that holds the mutex records the outcome of its task. -/
theorem Recorded.record (hs : Recorded ov outcomes (h, s)) (hi : s.wrappers i = .locked)
    (hw : t.wrappers = Function.update s.wrappers i .stored) (hmtx : t.mtx = s.mtx)
    (hresults : ∀ j v, outcomes j = .ok v →
      t.results j = if j = i then some v else s.results j)
    (hexc : t.exceptions = s.exceptions ++ failures outcomes [i])
    (hready : 0 < t.queue ∨ t.suspend = .dispatching ∨ t.body = .resuming → t.remaining = 0) :
  Recorded ov outcomes (h, t)
  := by
  have hheld : s.mtx = some i := by
    apply hs.owned i
    simp only [hi]
    rfl
  have hpast := hs.exceptions
  rw [State.unrecorded_held hheld, if_pos hi] at hpast
  constructor
  · simp only [hw, hmtx]
    apply hs.owned.update
    intro _
    simp only [hi]
    rfl
  · intro j hj
    apply hs.completed j
    simp only [hw] at hj ⊢
    by_cases hji : j = i
    · rw [hji, hi]
      rfl
    · rwa [Function.update_of_ne hji] at hj
  · intro j hj
    apply hs.entered j
    simp only [hw] at hj ⊢
    by_cases hji : j = i
    · rw [hji, hi]
      rfl
    · rwa [Function.update_of_ne hji] at hj
  · intro j v hj hv
    simp only [hw] at hj
    simp only [hresults j v hv]
    by_cases hji : j = i
    · rw [if_pos hji]
    · rw [Function.update_of_ne hji] at hj
      rw [if_neg hji]
      apply hs.results j v hj hv
  · have hnothing : t.unrecorded outcomes = [] := by
      rw [State.unrecorded_held (hmtx.trans hheld), hw]
      simp
    rw [hexc, hnothing, List.append_nil]
    apply hpast
  · apply hready

/-- The value of a task is stored. -/
theorem Recorded.store {v : V} (hs : Recorded ov outcomes (h, s)) (hi : s.wrappers i = .locked)
    (hr : outcomes i = .ok v) :
  Recorded ov outcomes (h, s.store i v)
  := by
  refine hs.record hi rfl rfl ?_ ?_ hs.ready
  · intro j w hw
    by_cases hji : j = i
    · subst hji
      rw [hr] at hw
      simp [State.store, Except.ok.inj hw]
    · simp [State.store, hji]
  · simp [State.store, failures, failure, hr]

/-- The exception of a task is appended. -/
theorem Recorded.push {e : E} (hs : Recorded ov outcomes (h, s)) (hi : s.wrappers i = .locked)
    (hr : outcomes i = .error e) :
  Recorded ov outcomes (h, s.push i e)
  := by
  refine hs.record hi rfl rfl ?_ ?_ hs.ready
  · intro j w hw
    have hji : j ≠ i := by
      rintro rfl
      rw [hr] at hw
      contradiction
    simp [State.push, hji]
  · simp [State.push, failures, failure, hr]

/-- The wrapper decrements the counter before the coroutine is resumed. -/
theorem Valid.not_ready (hv : Valid s) (hi : (s.wrappers i).uncounted = 1) :
  s.remaining ≠ 0
  := by
  have hpending := (hv.counting.pending (i := i) (by omega)).1
  omega

/-- A wrapper decrements the counter. -/
theorem Recorded.decrement (hs : Recorded ov outcomes (h, s)) (hv : Valid s)
    (hbefore : (s.wrappers i).decrements ov (outcomes i) = true)
    (hi : (s.wrappers i).uncounted = 1) :
  Recorded ov outcomes (h, s.decrement i)
  := by
  refine hs.goOn (i := i) rfl ⟨rfl, rfl, rfl⟩ ?_ ?_ ?_ ?_
  · cases hst : s.wrappers i <;> simp_all [Stage.decrements, Stage.locks]
  · cases hst : s.wrappers i <;>
      simp_all [Stage.decrements, Stage.completed, Stage.entered, Stage.recorded]
  · cases hst : s.wrappers i <;> simp_all [Stage.decrements]
  · intro hr
    exact absurd (hs.ready hr) (hv.not_ready hi)

/-- Every step of a wrapper preserves `Recorded`. -/
theorem Recorded.wrapperStep (hs : Recorded ov outcomes (h, s)) (hv : Valid s)
    (hstep : wrapperStep ov (outcomes i) s i = some t) :
  Recorded ov outcomes (WhenAll.record s (.wrapper i) h, t)
  := by
  cases hst : s.wrappers i with
  | unborn | created | final => simp [WhenAll.wrapperStep, hst] at hstep
  | queued =>
      simp only [WhenAll.wrapperStep, hst, Option.some.injEq] at hstep
      subst hstep
      simp only [WhenAll.record, hst]
      refine hs.goOn (i := i) rfl ⟨rfl, rfl, rfl⟩ ?_ ?_ ?_ hs.ready <;>
        simp [hst, Stage.locks, Stage.completed, Stage.entered, Stage.recorded]
  | awaiting =>
      simp only [WhenAll.wrapperStep, hst, Option.some.injEq] at hstep
      subst hstep
      simp only [WhenAll.record, hst]
      apply hs.complete hst
  | resumed =>
      simp only [WhenAll.wrapperStep, hst, Option.ite_none_right_eq_some,
        Option.some.injEq] at hstep
      obtain ⟨hfree, rfl⟩ := hstep
      simp only [WhenAll.record, hst]
      apply hs.lock hst hfree
  | locked =>
      simp only [WhenAll.record, hst]
      cases hr : outcomes i with
      | ok v =>
          simp only [WhenAll.wrapperStep, hst, hr, Option.some.injEq] at hstep
          subst hstep
          apply hs.store hst hr
      | error e =>
          simp only [WhenAll.wrapperStep, hst, hr, Option.some.injEq] at hstep
          subst hstep
          apply hs.push hst hr
  | stored =>
      simp only [WhenAll.wrapperStep, hst, Option.some.injEq] at hstep
      simp only [WhenAll.record, hst]
      split at hstep
      · rename_i hfirst
        subst hstep
        apply hs.unlock <;>
          simp [hst, hfirst, Stage.locks, Stage.completed, Stage.entered, Stage.recorded]
      · rename_i hfirst
        subst hstep
        apply hs.decrement hv
        · simp [hst, Stage.decrements, hfirst]
        · rw [hst]
          rfl
  | unlocked =>
      simp only [WhenAll.wrapperStep, hst, Option.some.injEq] at hstep
      subst hstep
      simp only [WhenAll.record, hst]
      apply hs.decrement hv
      · rw [hst]
        rfl
      · rw [hst]
        rfl
  | counted last =>
      simp only [WhenAll.record, hst]
      have hgoto : ∀ st : Stage, st = .dispatching ∨ st = .settled →
          Recorded ov outcomes (h, s.goto i st) := by
        rintro st (rfl | rfl) <;>
          refine hs.goOn (i := i) rfl ⟨rfl, rfl, rfl⟩ ?_ ?_ ?_ hs.ready <;>
          simp [hst, Stage.locks, Stage.completed, Stage.entered, Stage.recorded]
      cases last with
      | true =>
          simp only [WhenAll.wrapperStep, hst, Option.some.injEq] at hstep
          subst hstep
          apply hgoto
          split <;> simp
      | false =>
          simp only [WhenAll.wrapperStep, hst, Option.some.injEq] at hstep
          subst hstep
          apply hgoto
          right
          rfl
  | dispatching =>
      simp only [WhenAll.wrapperStep, hst, Option.some.injEq] at hstep
      subst hstep
      simp only [WhenAll.record, hst]
      have hzero : s.remaining = 0 := by
        apply hv.counting.zero_of_signal (i := i)
        rw [hst]
        decide
      refine hs.goOn (i := i) rfl ⟨rfl, rfl, rfl⟩ ?_ ?_ ?_ ?_
      · simp [hst, Stage.locks]
      · simp [hst, Stage.completed, Stage.entered, Stage.recorded]
      · simp [hst]
      · intro _
        apply hzero
  | settled =>
      simp only [WhenAll.wrapperStep, hst, Option.some.injEq] at hstep
      simp only [WhenAll.record, hst]
      split at hstep
      · subst hstep
        refine hs.goOn (i := i) rfl ⟨rfl, rfl, rfl⟩ ?_ ?_ ?_ hs.ready <;>
          simp [hst, Stage.locks, Stage.completed, Stage.entered, Stage.recorded]
      · rename_i hfirst
        subst hstep
        apply hs.unlock <;>
          simp [hst, hfirst, Stage.locks, Stage.completed, Stage.entered, Stage.recorded]
  | finishing | returned =>
      simp only [WhenAll.wrapperStep, hst, Option.some.injEq] at hstep
      subst hstep
      simp only [WhenAll.record, hst]
      refine hs.goOn (i := i) rfl ⟨rfl, rfl, rfl⟩ ?_ ?_ ?_ hs.ready <;>
        simp [hst, Stage.locks, Stage.completed, Stage.entered, Stage.recorded]

/-- A step that changes no wrapper, not the mutex and not what is recorded. -/
theorem Recorded.congr (hs : Recorded ov outcomes (h, s)) (hw : t.wrappers = s.wrappers)
    (hsame : t.mtx = s.mtx ∧ t.results = s.results ∧ t.exceptions = s.exceptions)
    (hready : 0 < t.queue ∨ t.suspend = .dispatching ∨ t.body = .resuming → t.remaining = 0) :
  Recorded ov outcomes (h, t)
  := by
  obtain ⟨hmtx, hres, hexc⟩ := hsame
  obtain ⟨howned, hcompleted, hentered, hresults, hexceptions, -⟩ := hs
  constructor
  · simp only [hw, hmtx]
    apply howned
  · simp only [hw]
    apply hcompleted
  · simp only [hw]
    apply hentered
  · simp only [hw, hres]
    apply hresults
  · simp only [State.unrecorded, hmtx, hw, hexc]
    apply hexceptions
  · apply hready

/-- The body creates a wrapper, or starts it. -/
theorem Recorded.hire {b : Body} {st : Stage} (hs : Recorded ov outcomes (h, s))
    (hi : s.wrappers i = .unborn ∨ s.wrappers i = .created) (hst : st = .created ∨ st = .queued)
    (hb : b ≠ .resuming) :
  Recorded ov outcomes (h, (s.goto i st).goes b)
  := by
  refine hs.goOn (i := i) rfl ⟨rfl, rfl, rfl⟩ ?_ ?_ ?_ ?_
  · obtain rfl | rfl := hst <;> simp [Stage.locks]
  · obtain rfl | rfl := hst <;> simp [Stage.completed, Stage.entered, Stage.recorded]
  · obtain rfl | rfl := hst <;> obtain hi | hi := hi <;> simp [hi]
  · intro hr
    apply hs.ready
    obtain hq | hsus | hbody := hr
    · left
      apply hq
    · right
      left
      apply hsus
    · contradiction

/-- Every step of the body preserves `Recorded`. -/
theorem Recorded.bodyStep (hs : Recorded ov outcomes (h, s)) (hv : Valid s)
    (hstep : bodyStep ov s = some t) :
  Recorded ov outcomes (h, t)
  := by
  have hready := hs.ready
  have hfresh := hv.fresh
  cases bodyStep_effect hstep with
  | build before hk =>
      rw [before] at hfresh
      apply hs.hire (Or.inl (hfresh.unmade ⟨_, hk⟩ le_rfl)) (Or.inl rfl)
      simp
  | start before hk =>
      rw [before] at hfresh
      apply hs.hire (Or.inr (hfresh.unstarted ⟨_, hk⟩ hk le_rfl)) (Or.inr rfl)
      simp
  | pass before ready =>
      refine hs.congr rfl ⟨rfl, rfl, rfl⟩ ?_
      intro _
      apply ready
  | suspend before ready =>
      refine hs.congr rfl ⟨rfl, rfl, rfl⟩ ?_
      intro hr
      apply hready
      left
      simpa using hr
  | empty before | enter before | built before | started before | resume before | leave before =>
      refine hs.congr rfl ⟨rfl, rfl, rfl⟩ ?_
      intro hr
      apply hready
      obtain hq | hsus | hb := hr
      · left
        apply hq
      · right
        left
        apply hsus
      · contradiction

/-- Every step of `await_suspend` preserves `Recorded`. -/
theorem Recorded.suspendStep (hs : Recorded ov outcomes (h, s)) (hstep : suspendStep s = some t) :
  Recorded ov outcomes (h, t)
  := by
  have hready := hs.ready
  cases hst : s.suspend with
  | uncalled | returned => simp [WhenAll.suspendStep, hst] at hstep
  | entered =>
      simp only [WhenAll.suspendStep, hst, Option.some.injEq] at hstep
      subst hstep
      refine hs.congr rfl ⟨rfl, rfl, rfl⟩ ?_
      intro hr
      apply hready
      simpa [hst] using hr
  | stored =>
      simp only [WhenAll.suspendStep, hst, Option.some.injEq] at hstep
      subst hstep
      refine hs.congr rfl ⟨rfl, rfl, rfl⟩ ?_
      intro hr
      by_cases hzero : s.remaining = 0
      · apply hzero
      · apply hready
        simpa [State.suspends, hzero, hst] using hr
  | dispatching =>
      simp only [WhenAll.suspendStep, hst, Option.some.injEq] at hstep
      subst hstep
      refine hs.congr rfl ⟨rfl, rfl, rfl⟩ ?_
      intro _
      apply hready
      right
      left
      apply hst

/-- Every step preserves `Recorded`. -/
theorem Recorded.step {a : Label n} (hs : Recorded ov outcomes (h, s)) (hv : Valid s)
    (hstep : step ov outcomes s a = some t) :
  Recorded ov outcomes (WhenAll.record s a h, t)
  := by
  cases a with
  | wrapper i => apply hs.wrapperStep hv hstep
  | body => apply hs.bodyStep hv hstep
  | suspend => apply hs.suspendStep hstep
  | resume =>
      simp only [WhenAll.step, Option.ite_none_right_eq_some, Option.some.injEq] at hstep
      obtain ⟨⟨-, hq⟩, rfl⟩ := hstep
      refine hs.congr rfl ⟨rfl, rfl, rfl⟩ ?_
      intro _
      apply hs.ready
      left
      apply hq

/-! ### The outcome -/

/-- A wrapper that has decremented the counter has recorded the outcome of its task. -/
theorem Stage.recorded_of_counted {st : Stage} (h : st.uncounted = 0) :
  st.completed = true ∧ st.entered = true ∧ st.recorded = true
  := by
  cases st <;> simp_all [Stage.uncounted, Stage.completed, Stage.entered, Stage.recorded]

/-- When every wrapper has decremented the counter, every exception is recorded. -/
theorem Recorded.exceptions_eq (hs : Recorded ov outcomes (h, s))
    (hall : ∀ i, (s.wrappers i).uncounted = 0) :
  s.exceptions = failures outcomes h.locked
  := by
  have hnothing : s.unrecorded outcomes = [] := by
    rw [State.unrecorded]
    cases s.mtx with
    | none => rfl
    | some j =>
        have hj : s.wrappers j ≠ .locked := by
          intro hst
          have := hall j
          simp [hst, Stage.uncounted] at this
        simp [hj]
  have hexc := hs.exceptions
  rw [hnothing, List.append_nil] at hexc
  apply hexc.symm

/-- What the coroutine gives: the first exception in the order in which wrappers locked the mutex,
or else the values. -/
structure Given (outcomes : Fin n → Except E V) (h : History n) (s : State V E n)
    (o : Except E (Fin n → Option V)) : Prop where
  counted : ∀ i, (s.wrappers i).uncounted = 0
  failed : ∀ e, firstFailure outcomes h.locked = some e → o = .error e
  passed : firstFailure outcomes h.locked = none →
    ∃ results, o = .ok results ∧ ∀ i v, outcomes i = .ok v → results i = some v

/-- `await_resume` with the counter at `0`. -/
theorem Recorded.awaitResume (hs : Recorded ov outcomes (h, s)) (hv : Valid s)
    (hzero : s.remaining = 0) :
  Given outcomes h s s.awaitResume
  := by
  have hcounting := hv.counting
  rw [hzero] at hcounting
  have hall := hcounting.all_counted
  have hexc := hs.exceptions_eq hall
  constructor
  · apply hall
  · intro e he
    rw [firstFailure, ← hexc] at he
    obtain ⟨rest, hrest⟩ := List.head?_eq_some_iff.mp he
    rw [State.awaitResume, hrest]
  · intro hnone
    rw [firstFailure, ← hexc, List.head?_eq_none_iff] at hnone
    refine ⟨s.results, ?_, ?_⟩
    · rw [State.awaitResume, hnone]
    · intro i v hi
      apply hs.results i v (Stage.recorded_of_counted (hall i)).2.2 hi

/-- Where the counter is at `0` no wrapper locks the mutex any more, and none is counted again. -/
theorem counted_step {a : Label n} (hv : Valid s) (hall : ∀ i, (s.wrappers i).uncounted = 0)
    (hstep : step ov outcomes s a = some t) :
  (∀ i, (t.wrappers i).uncounted = 0) ∧ (record s a h).locked = h.locked
  := by
  cases a with
  | suspend =>
      constructor
      · cases hst : s.suspend with
        | uncalled | returned => simp [step, suspendStep, hst] at hstep
        | entered | stored | dispatching =>
            simp only [step, suspendStep, hst, Option.some.injEq] at hstep
            subst hstep
            apply hall
      · rfl
  | resume =>
      simp only [step, Option.ite_none_right_eq_some, Option.some.injEq] at hstep
      obtain ⟨-, rfl⟩ := hstep
      exact ⟨hall, rfl⟩
  | body =>
      have hfresh := hv.fresh
      constructor
      · cases bodyStep_effect hstep with
        | build before hk =>
            rw [before] at hfresh
            have := hall ⟨_, hk⟩
            simp [hfresh.unmade ⟨_, hk⟩ le_rfl, Stage.uncounted] at this
        | start before hk =>
            rw [before] at hfresh
            have := hall ⟨_, hk⟩
            simp [hfresh.unstarted ⟨_, hk⟩ hk le_rfl, Stage.uncounted] at this
        | _ => apply hall
      · rfl
  | wrapper i =>
      have hi := hall i
      constructor
      · intro j
        have hj := hall j
        by_cases hji : j = i
        · subst hji
          cases wrapperStep_effect hstep with
          | quiet before quiet => rw [quiet.wrappers, Function.update_self, quiet.uncounted, hi]
          | decrement before uncounted => omega
          | decide before =>
              simp only [State.goto, Function.update_self]
              split <;> rfl
          | dispatch before => simp [State.dispatch, Stage.uncounted]
        · cases wrapperStep_effect hstep with
          | quiet before quiet => rw [quiet.wrappers, Function.update_of_ne hji, hj]
          | decrement before uncounted => omega
          | decide before => simp [State.goto, Function.update_of_ne hji, hj]
          | dispatch before => simp [State.dispatch, Function.update_of_ne hji, hj]
      · cases hst : s.wrappers i <;> simp [record, hst]
        simp [hst, Stage.uncounted] at hi

/-- A step other than `await_resume` gives nothing on, if there are tasks. -/
theorem outcome_step {a : Label n} (hstep : step ov outcomes s a = some t) :
  t.outcome = s.outcome ∨ (n = 0 ∧ t.outcome = some (.ok s.results)) ∨
    (a = .body ∧ s.body = .resuming ∧ t.wrappers = s.wrappers ∧ t.outcome = some s.awaitResume)
  := by
  cases a with
  | wrapper i =>
      left
      cases hst : s.wrappers i with
      | unborn | created | final => simp [step, wrapperStep, hst] at hstep
      | resumed =>
          simp only [step, wrapperStep, hst, Option.ite_none_right_eq_some,
            Option.some.injEq] at hstep
          obtain ⟨-, rfl⟩ := hstep
          rfl
      | locked =>
          cases hr : outcomes i <;>
            simp only [step, wrapperStep, hst, hr, Option.some.injEq] at hstep <;>
            subst hstep <;> rfl
      | stored | settled =>
          simp only [step, wrapperStep, hst, Option.some.injEq] at hstep
          split at hstep <;> subst hstep <;> rfl
      | counted last =>
          cases last <;> simp only [step, wrapperStep, hst, Option.some.injEq] at hstep <;>
            subst hstep <;> rfl
      | queued | awaiting | unlocked | dispatching | finishing | returned =>
          simp only [step, wrapperStep, hst, Option.some.injEq] at hstep
          subst hstep
          rfl
  | body =>
      cases bodyStep_effect hstep with
      | empty before none =>
          right
          left
          exact ⟨none, rfl⟩
      | resume before =>
          right
          right
          exact ⟨rfl, before, rfl, rfl⟩
      | _ =>
          left
          rfl
  | suspend =>
      left
      cases hst : s.suspend with
      | uncalled | returned => simp [step, suspendStep, hst] at hstep
      | entered | stored | dispatching =>
          simp only [step, suspendStep, hst, Option.some.injEq] at hstep
          subst hstep
          rfl
  | resume =>
      left
      simp only [step, Option.ite_none_right_eq_some, Option.some.injEq] at hstep
      obtain ⟨-, rfl⟩ := hstep
      rfl

/-- The invariant. -/
structure Good (ov : Overload) (outcomes : Fin n → Except E V) (x : History n × State V E n) :
    Prop where
  valid : Valid x.2
  recorded : Recorded ov outcomes x
  given : ∀ o, x.2.outcome = some o → Given outcomes x.1 x.2 o

theorem Good.start :
  Good ov outcomes (start V E n)
  := by
  constructor
  · apply Valid.initial
  · apply Recorded.start
  · intro o ho
    contradiction

/-- Every step preserves `Good`. -/
theorem Good.step {x y : History n × State V E n} {a : Label n} (hx : Good ov outcomes x)
    (hstep : historyStep ov outcomes x a = some y) :
  Good ov outcomes y
  := by
  obtain ⟨h, s⟩ := x
  obtain ⟨h', t⟩ := y
  obtain ⟨rfl, hstep⟩ := noted_eq_some.mp hstep
  obtain ⟨hv, hr, hgiven⟩ := hx
  constructor
  · apply hv.step hstep
  · apply hr.step hv hstep
  · intro o ho
    obtain hsame | ⟨rfl, hempty⟩ | ⟨rfl, hb, hw, hout⟩ := outcome_step hstep
    · rw [hsame] at ho
      obtain ⟨hcounted, hfailed, hpassed⟩ := hgiven o ho
      obtain ⟨hcounted', hlocked⟩ := counted_step (h := h) hv hcounted hstep
      constructor
      · apply hcounted'
      · rw [hlocked]
        apply hfailed
      · rw [hlocked]
        apply hpassed
    · rw [hempty] at ho
      obtain rfl := Option.some.inj ho
      have hnone : ∀ order : List (Fin 0), order = [] := by
        intro order
        cases order with
        | nil => rfl
        | cons i order => exact i.elim0
      constructor
      · intro i
        exact i.elim0
      · intro e he
        rw [hnone (record s a h).locked] at he
        contradiction
      · intro _
        exact ⟨s.results, rfl, fun i => i.elim0⟩
    · have hzero : s.remaining = 0 := by
        apply hr.ready
        right
        right
        apply hb
      obtain ⟨hcounted, hfailed, hpassed⟩ := hr.awaitResume hv hzero
      rw [hout] at ho
      obtain rfl := Option.some.inj ho
      constructor
      · rw [hw]
        apply hcounted
      · apply hfailed
      · apply hpassed

/-- There is a first failure if and only if there is one. -/
theorem firstFailure_eq_none {order : List (Fin n)} (hall : ∀ i, i ∈ order) :
  firstFailure outcomes order = none ↔ ∀ i, ∃ v, outcomes i = .ok v
  := by
  rw [firstFailure, List.head?_eq_none_iff, failures, List.filterMap_eq_nil_iff]
  constructor
  · intro hnone i
    have hi := hnone i (hall i)
    cases hout : outcomes i with
    | ok v => exact ⟨v, rfl⟩
    | error e =>
        rw [hout] at hi
        contradiction
  · intro hok i _
    obtain ⟨v, hv⟩ := hok i
    rw [hv]
    rfl

theorem Good.yields {x : History n × State V E n} (hx : Good ov outcomes x) :
  Yields outcomes x.1.locked x.1.completed x.2
  := by
  obtain ⟨-, hr, hgiven⟩ := hx
  have hall : ∀ o, x.2.outcome = some o → ∀ i, i ∈ x.1.locked := by
    intro o ho i
    apply hr.entered i
    apply (Stage.recorded_of_counted ((hgiven o ho).counted i)).2.1
  constructor
  · intro vs hvs o ho
    have hnone : firstFailure outcomes x.1.locked = none :=
      (firstFailure_eq_none (hall o ho)).mpr fun i => ⟨vs i, hvs i⟩
    obtain ⟨results, rfl, hresults⟩ := (hgiven o ho).passed hnone
    congr
    funext i
    apply hresults i (vs i) (hvs i)
  · intro i e hi o ho
    cases hfirst : firstFailure outcomes x.1.locked with
    | none =>
        obtain ⟨v, hv⟩ := (firstFailure_eq_none (hall o ho)).mp hfirst i
        rw [hi] at hv
        contradiction
    | some e' => exact ⟨e', rfl, (hgiven o ho).failed e' hfirst⟩
  · intro hne i
    obtain ⟨o, ho⟩ := Option.ne_none_iff_exists'.mp hne
    have hcounted := (hgiven o ho).counted i
    constructor
    · apply hr.completed i
      apply (Stage.recorded_of_counted hcounted).1
    · apply hcounted
  · intro results ho i
    cases hfirst : firstFailure outcomes x.1.locked with
    | none =>
        obtain ⟨results', heq, hresults⟩ := (hgiven _ ho).passed hfirst
        obtain rfl := Except.ok.inj heq
        obtain ⟨v, hv⟩ := (firstFailure_eq_none (hall _ ho)).mp hfirst i
        simp [hresults i v hv]
    | some e =>
        have := (hgiven _ ho).failed e hfirst
        contradiction

/-- In every run `when_all` yields the values of its tasks, each at its position, or, after all
tasks have completed, the exception of the failed task whose wrapper was the first to lock the
mutex. -/
theorem yields_by_locking {as : List (Label n)} {x : History n × State V E n}
    (h : Run (historyStep ov outcomes) Free (start V E n) as x) :
  Yields outcomes x.1.locked x.1.completed x.2
  := by
  have hgood : Good ov outcomes x := by
    apply h.invariant (Good ov outcomes) _ Good.start
    intro y a z hy _ hstep
    apply hy.step hstep
  apply hgood.yields

/-- Of three tasks the last one fails first, the second one later. -/
theorem yields_last_of_three :
  ∃ as x, Run (historyStep .vector ![.ok 1, .error "second", .error "third"]) Free
      (start ℕ String 3) as x ∧
    x.1.locked = [2, 1, 0] ∧ x.2.outcome = some (.error "third") ∧
    Yields ![.ok 1, .error "second", .error "third"] x.1.locked x.1.completed x.2
  := by
  obtain ⟨x, hrun, hlocked, hout⟩ : ∃ x,
      Run (historyStep .vector ![.ok 1, .error "second", .error "third"]) Free (start ℕ String 3)
        (List.flatten [List.replicate 10 .body, List.replicate 2 .suspend,
          List.replicate 9 (.wrapper 2), List.replicate 9 (.wrapper 1), List.replicate 9 (.wrapper 0),
          [.resume, .body]]) x ∧
      x.1.locked = [2, 1, 0] ∧ x.2.outcome = some (.error "third") := by
    apply exists_run_of_exec
    decide
  exact ⟨_, x, hrun, hlocked, hout, yields_by_locking hrun⟩

/-- Both tasks fail, the first one first; the wrapper of the second one is the first to lock the
mutex. -/
theorem rethrows_second_failure :
  ∃ as x, Run (historyStep .variadic ![.error "first", .error "second"]) Free
      (start ℕ String 2) as x ∧
    x.1.completed = [0, 1] ∧ x.2.outcome = some (.error "second") ∧
    ¬ Yields ![.error "first", .error "second"] x.1.completed x.1.completed x.2
  := by
  obtain ⟨x, hrun, hcompleted, hout⟩ : ∃ x,
      Run (historyStep .variadic ![.error "first", .error "second"]) Free (start ℕ String 2)
        (List.flatten [List.replicate 8 .body, List.replicate 2 .suspend,
          List.replicate 2 (.wrapper 0), List.replicate 9 (.wrapper 1), List.replicate 7 (.wrapper 0),
          [.resume, .body]]) x ∧
      x.1.completed = [0, 1] ∧ x.2.outcome = some (.error "second") := by
    apply exists_run_of_exec
    decide
  refine ⟨_, x, hrun, hcompleted, hout, ?_⟩
  intro hyields
  obtain ⟨e, he, heq⟩ := hyields.rethrows 0 "first" rfl _ hout
  rw [hcompleted] at he
  obtain rfl : "first" = e := Option.some.inj he
  simp at heq

end Koroutine.WhenAll
