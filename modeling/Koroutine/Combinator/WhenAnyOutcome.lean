import Koroutine.Combinator.WhenAny

/-!
# What `when_any` gives

The winner of the compare-exchange raises `completed` before it locks the mutex and records its
outcome.  The coroutine may see the flag, in `await_ready` or in the second look of
`await_suspend`, and run `await_resume` before the winner has the mutex.  It then finds nothing
recorded and throws.  Where `await_resume` does not run in that window it gives the winner's
outcome.
-/

open Transition

namespace Koroutine.WhenAny

variable {V E : Type*} {n : ℕ}

/-- What the coroutine should give when wrapper `i` has won and its task has the outcome `r`. -/
def delivered (ov : Overload) (i : Fin n) : Except E V → Outcome V E n
  | .ok v => .result i v
  | .error e => ov.fail e

/-- Wrapper `i` has won the compare-exchange. -/
def State.Won (s : State V E n) (i : Fin n) : Prop :=
  0 < (s.wrappers i).winner

/-- The outcome `r` of wrapper `i`'s task is recorded. -/
def State.Holds (s : State V E n) (i : Fin n) : Except E V → Prop
  | .ok v => s.exception = none ∧ s.result = some (i, v)
  | .error e => s.exception = some e

/-- There is a winner as soon as `completed` is set, there is one only, and what the coroutine gives
is the winner's outcome. -/
structure GivesFirst (ov : Overload) (outcomes : Fin n → Except E V) (s : State V E n) : Prop where
  exists_won : s.completed = true → ∃ i, s.Won i
  unique : ∀ i j, s.Won i → s.Won j → i = j
  outcome : ∀ o, s.outcome = some o → ∃ i, s.Won i ∧ o = delivered ov i (outcomes i)

/-- `await_resume` does not run while the winner has yet to lock the mutex. -/
def ResumesLate (s : State V E n) (a : Label n) : Prop :=
  a = .body → s.body = .resuming → ∀ i, s.wrappers i ≠ .won

/-! ### The invariant -/

/-- The mutex names the wrapper that holds it, the recorded outcome is the winner's, and the
coroutine is not resumed before a wrapper has won. -/
structure Recorded (outcomes : Fin n → Except E V) (s : State V E n) : Prop where
  owned : Owned (fun _ st => st.locks) id s.wrappers s.mtx
  recorded : ∀ i, (s.wrappers i).recorded = true → s.Holds i (outcomes i)
  blank : (∀ i, (s.wrappers i).recorded = false) → s.exception = none ∧ s.result = none
  ready : 0 < s.queue ∨ s.suspend = .dispatching ∨ s.body = .resuming → s.completed = true

theorem Recorded.initial (outcomes : Fin n → Except E V) :
  Recorded outcomes (initial V E n)
  := by
  constructor
  · intro i hi
    contradiction
  · intro i hi
    contradiction
  · intro _
    exact ⟨rfl, rfl⟩
  · simp [WhenAny.initial]

/-- Only a winner records. -/
theorem Stage.winner_of_recorded {st : Stage} (h : st.recorded = true) :
  0 < st.winner
  := by
  cases st with
  | finishing b | gone b => cases b <;> simp_all [Stage.recorded, Stage.winner]
  | _ => simp_all [Stage.recorded, Stage.winner]

/-- A wrapper goes on, and nothing is recorded by its step. -/
theorem Recorded.goto {outcomes : Fin n → Except E V} {s t : State V E n} {i : Fin n} {st : Stage}
    (hs : Recorded outcomes s) (hw : t.wrappers = Function.update s.wrappers i st)
    (howned : Owned (fun _ st => st.locks) id t.wrappers t.mtx)
    (hrec : t.exception = s.exception ∧ t.result = s.result)
    (hr : st.recorded = (s.wrappers i).recorded)
    (hready : 0 < t.queue ∨ t.suspend = .dispatching ∨ t.body = .resuming → t.completed = true) :
  Recorded outcomes t
  := by
  have hsame : ∀ j, (t.wrappers j).recorded = (s.wrappers j).recorded := by
    intro j
    rw [hw]
    by_cases hji : j = i
    · rw [hji, Function.update_self, hr]
    · rw [Function.update_of_ne hji]
  constructor
  · apply howned
  · intro j hj
    rw [hsame j] at hj
    have hholds := hs.recorded j hj
    cases hout : outcomes j <;> simp_all [State.Holds]
  · intro hall
    rw [hrec.1, hrec.2]
    apply hs.blank
    intro j
    rw [← hsame j, hall j]
  · apply hready

/-- The winner records its outcome. -/
theorem Recorded.store {outcomes : Fin n → Except E V} {s : State V E n} {i : Fin n}
    (hs : Recorded outcomes s) (hv : Valid s) (hi : s.wrappers i = .locked) :
  Recorded outcomes (s.store i (outcomes i))
  := by
  have hwon : s.Won i := by simp [State.Won, hi, Stage.winner]
  have hnobody : ∀ j, (s.wrappers j).recorded = false := by
    intro j
    cases hj : (s.wrappers j).recorded with
    | false => rfl
    | true =>
        obtain rfl := hv.elected.unique hwon (Stage.winner_of_recorded hj)
        simp [hi, Stage.recorded] at hj
  obtain ⟨hexc, hres⟩ := hs.blank hnobody
  have hwrappers : (s.store i (outcomes i)).wrappers = Function.update s.wrappers i .stored := by
    cases outcomes i <;> rfl
  have hmtx : (s.store i (outcomes i)).mtx = s.mtx := by
    cases outcomes i <;> rfl
  have hready : (s.store i (outcomes i)).queue = s.queue ∧
      (s.store i (outcomes i)).suspend = s.suspend ∧ (s.store i (outcomes i)).body = s.body ∧
      (s.store i (outcomes i)).completed = s.completed := by
    cases outcomes i <;> exact ⟨rfl, rfl, rfl, rfl⟩
  constructor
  · rw [hwrappers, hmtx]
    apply hs.owned.update
    intro _
    rw [hi]
    rfl
  · intro j hj
    rw [hwrappers] at hj
    obtain rfl : j = i := by
      by_contra hji
      rw [Function.update_of_ne hji, hnobody j] at hj
      contradiction
    cases hout : outcomes j <;> simp [State.Holds, State.store, hexc]
  · intro hall
    have hstored := hall i
    simp [hwrappers, Stage.recorded] at hstored
  · rw [hready.1, hready.2.1, hready.2.2.1, hready.2.2.2]
    apply hs.ready

/-- A wrapper goes on without locking or unlocking the mutex. -/
theorem Recorded.goOn {outcomes : Fin n → Except E V} {s : State V E n} {i : Fin n} {st : Stage}
    (hs : Recorded outcomes s) (hlocks : st.locks = true → (s.wrappers i).locks = true)
    (hr : st.recorded = (s.wrappers i).recorded) :
  Recorded outcomes (s.goto i st)
  := hs.goto rfl (hs.owned.update hlocks) ⟨rfl, rfl⟩ hr hs.ready

/-- Every step of a wrapper preserves `Recorded`. -/
theorem Recorded.wrapperStep {outcomes : Fin n → Except E V} {s t : State V E n} {i : Fin n}
    (hs : Recorded outcomes s) (hv : Valid s) (h : wrapperStep (outcomes i) s i = some t) :
  Recorded outcomes t
  := by
  have howned := hs.owned
  have hraced := hv.raced i
  cases hst : s.wrappers i with
  | unborn | gone => simp [WhenAny.wrapperStep, hst] at h
  | awaiting =>
      simp only [WhenAny.wrapperStep, hst, Option.some.injEq] at h
      subst h
      apply hs.goOn <;> simp [hst, Stage.locks, Stage.recorded]
  | resumed =>
      simp only [WhenAny.wrapperStep, hst, Option.some.injEq] at h
      split at h
      · subst h
        apply hs.goOn <;> simp [hst, Stage.locks, Stage.recorded]
      · subst h
        refine hs.goto rfl (howned.update ?_) ⟨rfl, rfl⟩ ?_ ?_
        · simp [Stage.locks]
        · rw [hst]
          rfl
        · intro _
          rfl
  | won =>
      simp only [WhenAny.wrapperStep, hst, Option.ite_none_right_eq_some, Option.some.injEq] at h
      obtain ⟨hfree, rfl⟩ := h
      rw [hfree] at howned
      refine hs.goto rfl howned.acquire ⟨rfl, rfl⟩ ?_ hs.ready
      rw [hst]
      rfl
  | locked =>
      simp only [WhenAny.wrapperStep, hst, Option.some.injEq] at h
      subst h
      apply hs.store hv hst
  | stored =>
      simp only [WhenAny.wrapperStep, hst, Option.some.injEq] at h
      subst h
      apply hs.goOn
      · intro _
        rw [hst]
        rfl
      · rw [hst]
        split <;> rfl
  | dispatching =>
      simp only [WhenAny.wrapperStep, hst, Option.some.injEq] at h
      subst h
      refine hs.goto rfl (howned.update ?_) ⟨rfl, rfl⟩ ?_ ?_
      · intro _
        rw [hst]
        rfl
      · rw [hst]
        rfl
      · intro _
        apply hraced
        rw [hst]
        rfl
  | settled =>
      simp only [WhenAny.wrapperStep, hst, Option.some.injEq] at h
      subst h
      refine hs.goto rfl (howned.release Function.injective_id ?_ rfl) ⟨rfl, rfl⟩ ?_ hs.ready
      · rw [hst]
        rfl
      · rw [hst]
        rfl
  | finishing b =>
      simp only [WhenAny.wrapperStep, hst, Option.some.injEq] at h
      subst h
      apply hs.goOn
      · simp [Stage.locks]
      · rw [hst]
        cases b <;> rfl

/-- A step that changes no wrapper, not the mutex and not what is recorded. -/
theorem Recorded.congr {outcomes : Fin n → Except E V} {s t : State V E n}
    (hs : Recorded outcomes s) (hw : t.wrappers = s.wrappers) (hmtx : t.mtx = s.mtx)
    (hrec : t.exception = s.exception ∧ t.result = s.result)
    (hready : 0 < t.queue ∨ t.suspend = .dispatching ∨ t.body = .resuming → t.completed = true) :
  Recorded outcomes t
  := by
  constructor
  · rw [hw, hmtx]
    apply hs.owned
  · intro j hj
    rw [hw] at hj
    have hholds := hs.recorded j hj
    cases hout : outcomes j <;> simp_all [State.Holds]
  · intro hall
    rw [hw] at hall
    rw [hrec.1, hrec.2]
    apply hs.blank hall
  · apply hready

/-- Every step of the body preserves `Recorded`. -/
theorem Recorded.bodyStep {ov : Overload} {outcomes : Fin n → Except E V} {s t : State V E n}
    (hs : Recorded outcomes s) (hv : Valid s) (h : bodyStep ov s = some t) :
  Recorded outcomes t
  := by
  have hready := hs.ready
  have hunmade := hv.unmade
  cases bodyStep_effect h with
  | launch before hk =>
      rw [before] at hunmade
      have hunborn := hunmade ⟨_, hk⟩ le_rfl
      refine hs.goto rfl (hs.owned.update ?_) ⟨rfl, rfl⟩ ?_ ?_
      · simp [Stage.locks]
      · rw [hunborn]
        rfl
      · intro hr
        apply hready
        simpa [State.goes, State.goto, before] using hr
  | pass before ready =>
      refine hs.congr rfl rfl ⟨rfl, rfl⟩ ?_
      intro _
      apply ready
  | suspend before ready =>
      refine hs.congr rfl rfl ⟨rfl, rfl⟩ ?_
      intro hr
      apply hready
      left
      simpa using hr
  | empty before | enter before | launched before | resume before | leave before =>
      refine hs.congr rfl rfl ⟨rfl, rfl⟩ ?_
      intro hr
      apply hready
      obtain hq | hsus | hb := hr
      · left
        apply hq
      · right
        left
        apply hsus
      · contradiction

/-- Every step of `await_suspend` preserves `Recorded`. -/
theorem Recorded.suspendStep {outcomes : Fin n → Except E V} {s t : State V E n}
    (hs : Recorded outcomes s) (h : suspendStep s = some t) :
  Recorded outcomes t
  := by
  have hready := hs.ready
  cases hst : s.suspend with
  | uncalled | returned => simp [WhenAny.suspendStep, hst] at h
  | entered =>
      simp only [WhenAny.suspendStep, hst, Option.some.injEq] at h
      subst h
      refine hs.congr rfl rfl ⟨rfl, rfl⟩ ?_
      intro hr
      apply hready
      simpa [hst] using hr
  | stored =>
      simp only [WhenAny.suspendStep, hst, Option.some.injEq] at h
      subst h
      refine hs.congr rfl rfl ⟨rfl, rfl⟩ ?_
      intro hr
      cases hc : s.completed with
      | true => apply hc
      | false =>
          rw [← hc]
          apply hready
          simpa [State.suspends, hc, hst] using hr
  | dispatching =>
      simp only [WhenAny.suspendStep, hst, Option.some.injEq] at h
      subst h
      refine hs.congr rfl rfl ⟨rfl, rfl⟩ ?_
      intro _
      apply hready
      right
      left
      apply hst

/-- Every step preserves `Recorded`. -/
theorem Recorded.step {ov : Overload} {outcomes : Fin n → Except E V} {s t : State V E n}
    {a : Label n} (hs : Recorded outcomes s) (hv : Valid s) (h : step ov outcomes s a = some t) :
  Recorded outcomes t
  := by
  cases a with
  | wrapper i => apply hs.wrapperStep hv h
  | body => apply hs.bodyStep hv h
  | suspend => apply hs.suspendStep h
  | resume =>
      simp only [WhenAny.step, Option.ite_none_right_eq_some, Option.some.injEq] at h
      obtain ⟨⟨-, hq⟩, rfl⟩ := h
      refine hs.congr rfl rfl ⟨rfl, rfl⟩ ?_
      intro _
      apply hs.ready
      left
      apply hq

/-! ### The outcome -/

/-- A step of a wrapper keeps a winner a winner, and gives nothing on. -/
theorem wrapperStep_won {r : Except E V} {s t : State V E n} {i : Fin n}
    (h : wrapperStep r s i = some t) :
  ∃ st, t.wrappers = Function.update s.wrappers i st ∧ (s.wrappers i).winner ≤ st.winner ∧
    t.outcome = s.outcome
  := by
  cases hst : s.wrappers i with
  | unborn | gone => simp [wrapperStep, hst] at h
  | awaiting | dispatching | settled =>
      simp only [wrapperStep, hst, Option.some.injEq] at h
      subst h
      refine ⟨_, rfl, ?_, rfl⟩
      decide
  | resumed =>
      simp only [wrapperStep, hst, Option.some.injEq] at h
      split at h <;> subst h
      · refine ⟨_, rfl, ?_, rfl⟩
        decide
      · refine ⟨_, rfl, ?_, rfl⟩
        decide
  | won =>
      simp only [wrapperStep, hst, Option.ite_none_right_eq_some, Option.some.injEq] at h
      obtain ⟨-, rfl⟩ := h
      refine ⟨_, rfl, ?_, rfl⟩
      decide
  | locked =>
      simp only [wrapperStep, hst, Option.some.injEq] at h
      subst h
      cases r <;> refine ⟨.stored, rfl, ?_, rfl⟩ <;> decide
  | stored =>
      simp only [wrapperStep, hst, Option.some.injEq] at h
      subst h
      refine ⟨_, rfl, ?_, rfl⟩
      split <;> decide
  | finishing b =>
      simp only [wrapperStep, hst, Option.some.injEq] at h
      subst h
      refine ⟨_, rfl, ?_, rfl⟩
      cases b <;> decide

/-- A winner stays one. -/
theorem won_step {ov : Overload} {outcomes : Fin n → Except E V} {s t : State V E n}
    {a : Label n} (hv : Valid s) (h : step ov outcomes s a = some t) {i : Fin n} (hi : s.Won i) :
  t.Won i
  := by
  unfold State.Won at hi ⊢
  cases a with
  | wrapper j =>
      obtain ⟨st, hw, hle, -⟩ := wrapperStep_won h
      rw [hw]
      by_cases hij : i = j
      · subst hij
        rw [Function.update_self]
        omega
      · rw [Function.update_of_ne hij]
        apply hi
  | body =>
      have hunmade := hv.unmade
      cases bodyStep_effect h with
      | @launch k before hk =>
          rw [before] at hunmade
          have hne : i ≠ ⟨k, hk⟩ := by
            rintro rfl
            rw [hunmade _ le_rfl] at hi
            contradiction
          simpa [State.goes, State.goto, hne] using hi
      | _ => apply hi
  | suspend =>
      cases hst : s.suspend with
      | uncalled | returned => simp [step, suspendStep, hst] at h
      | entered | stored | dispatching =>
          simp only [step, suspendStep, hst, Option.some.injEq] at h
          subst h
          apply hi
  | resume =>
      simp only [step, Option.ite_none_right_eq_some, Option.some.injEq] at h
      obtain ⟨-, rfl⟩ := h
      apply hi

/-- A step other than `await_resume` gives nothing on, if there are tasks. -/
theorem outcome_step {ov : Overload} {outcomes : Fin n → Except E V} {s t : State V E n}
    {a : Label n} (hn : 0 < n) (h : step ov outcomes s a = some t) :
  t.outcome = s.outcome ∨
    (a = .body ∧ s.body = .resuming ∧ s.mtx = none ∧ t.outcome = some (s.awaitResume ov))
  := by
  cases a with
  | wrapper i =>
      obtain ⟨st, -, -, hout⟩ := wrapperStep_won h
      left
      apply hout
  | body =>
      cases bodyStep_effect h with
      | empty before none => omega
      | resume before free =>
          right
          exact ⟨rfl, before, free, rfl⟩
      | _ =>
          left
          rfl
  | suspend =>
      left
      cases hst : s.suspend with
      | uncalled | returned => simp [step, suspendStep, hst] at h
      | entered | stored | dispatching =>
          simp only [step, suspendStep, hst, Option.some.injEq] at h
          subst h
          rfl
  | resume =>
      left
      simp only [step, Option.ite_none_right_eq_some, Option.some.injEq] at h
      obtain ⟨-, rfl⟩ := h
      rfl

/-- Where the mutex is free and the winner has got past the compare-exchange, its outcome is
recorded. -/
theorem Recorded.of_free {outcomes : Fin n → Except E V} {s : State V E n} {i : Fin n}
    (hs : Recorded outcomes s) (hfree : s.mtx = none) (hi : s.Won i) (hne : s.wrappers i ≠ .won) :
  s.Holds i (outcomes i)
  := by
  apply hs.recorded i
  have hunlocked : (s.wrappers i).locks = false := by
    cases hl : (s.wrappers i).locks with
    | false => rfl
    | true =>
        have := hs.owned i hl
        simp [hfree] at this
  unfold State.Won at hi
  cases hst : s.wrappers i with
  | finishing b | gone b => cases b <;> simp_all [Stage.winner, Stage.recorded]
  | _ => simp_all [Stage.winner, Stage.locks]

/-- `await_resume` gives on what is recorded. -/
theorem awaitResume_of_holds {ov : Overload} {s : State V E n} {i : Fin n} {r : Except E V}
    (h : s.Holds i r) :
  s.awaitResume ov = delivered ov i r
  := by
  cases r with
  | ok v =>
      obtain ⟨hexc, hres⟩ := h
      simp [State.awaitResume, hexc, hres, delivered]
  | error e =>
      have hexc : s.exception = some e := h
      simp [State.awaitResume, hexc, delivered]

/-- Where nothing is recorded `await_resume` gives no task's outcome. -/
theorem awaitResume_of_blank {ov : Overload} {s : State V E n} {i : Fin n} {r : Except E V}
    (h : s.exception = none ∧ s.result = none) :
  s.awaitResume ov = .runtimeError ov.noResult ∧ s.awaitResume ov ≠ delivered ov i r
  := by
  have hresume : s.awaitResume ov = .runtimeError ov.noResult := by
    simp [State.awaitResume, h.1, h.2]
  use hresume
  rw [hresume]
  cases r with
  | ok v => simp [delivered]
  | error e => cases ov <;> simp [delivered, Overload.fail]

/-- What holds in a run in which `await_resume` does not run too early. -/
structure Good (ov : Overload) (outcomes : Fin n → Except E V) (s : State V E n) : Prop where
  valid : Valid s
  recorded : Recorded outcomes s
  outcome : ∀ o, s.outcome = some o → ∃ i, s.Won i ∧ o = delivered ov i (outcomes i)

theorem Good.initial (ov : Overload) (outcomes : Fin n → Except E V) :
  Good ov outcomes (initial V E n)
  := by
  constructor
  · apply Valid.initial
  · apply Recorded.initial
  · intro o ho
    contradiction

theorem Good.givesFirst {ov : Overload} {outcomes : Fin n → Except E V} {s : State V E n}
    (hs : Good ov outcomes s) :
  GivesFirst ov outcomes s
  := by
  constructor
  · intro hc
    have helected := hs.valid.elected
    rw [hc] at helected
    apply helected.exists_winner
  · intro i j hi hj
    apply hs.valid.elected.unique hi hj
  · apply hs.outcome

/-- The coroutine is about to call `await_resume` only after a wrapper has won. -/
theorem Good.winner {ov : Overload} {outcomes : Fin n → Except E V} {s : State V E n}
    (hs : Good ov outcomes s) (hb : s.body = .resuming) :
  ∃ i, s.Won i
  := by
  apply hs.givesFirst.exists_won
  apply hs.recorded.ready
  right
  right
  apply hb

/-- A step that does not run `await_resume` too early preserves `Good`. -/
theorem Good.step {ov : Overload} {outcomes : Fin n → Except E V} {s t : State V E n}
    {a : Label n} (hn : 0 < n) (hs : Good ov outcomes s) (ha : ResumesLate s a)
    (h : step ov outcomes s a = some t) :
  Good ov outcomes t
  := by
  constructor
  · apply hs.valid.step h
  · apply hs.recorded.step hs.valid h
  · intro o ho
    obtain hsame | ⟨rfl, hb, hfree, hout⟩ := outcome_step hn h
    · rw [hsame] at ho
      obtain ⟨i, hi, ho⟩ := hs.outcome o ho
      use i, won_step hs.valid h hi, ho
    · obtain ⟨i, hi⟩ := hs.winner hb
      use i, won_step hs.valid h hi
      have hholds := hs.recorded.of_free hfree hi (ha rfl hb i)
      rw [hout] at ho
      rw [← Option.some.inj ho, awaitResume_of_holds hholds]

/-- Running `await_resume` too early gives no task's outcome. -/
theorem not_givesFirst_of_early {ov : Overload} {outcomes : Fin n → Except E V}
    {s t : State V E n} {a : Label n} (hs : Good ov outcomes s)
    (ha : ¬ ResumesLate s a) (h : step ov outcomes s a = some t) :
  t.outcome = some (.runtimeError ov.noResult) ∧ ¬ GivesFirst ov outcomes t
  := by
  unfold ResumesLate at ha
  push Not at ha
  obtain ⟨rfl, hb, i, hi⟩ := ha
  have hwon : s.Won i := by simp [State.Won, hi, Stage.winner]
  have hblank : s.exception = none ∧ s.result = none := by
    apply hs.recorded.blank
    intro j
    cases hj : (s.wrappers j).recorded with
    | false => rfl
    | true =>
        obtain rfl := hs.valid.elected.unique hwon (Stage.winner_of_recorded hj)
        simp [hi, Stage.recorded] at hj
  have hout : t.outcome = some (s.awaitResume ov) := by
    cases bodyStep_effect h with
    | resume before free => rfl
    | _ before => simp [before] at hb
  constructor
  · rw [hout, (awaitResume_of_blank (i := i) (r := outcomes i) hblank).1]
  · intro hgives
    obtain ⟨j, -, hj⟩ := hgives.outcome _ hout
    apply (awaitResume_of_blank hblank).2 hj

/-- A run of `when_any` on at least one task goes only through states in which one wrapper wins and
the coroutine gives that wrapper's outcome, exactly when `await_resume` never runs between the
winner's compare-exchange and its locking of the mutex. -/
theorem givesFirst_iff_resumesLate {ov : Overload} {outcomes : Fin n → Except E V}
    {t : State V E n} {as : List (Label n)} (hn : 0 < n) :
  Run (step ov outcomes) (Visits (GivesFirst ov outcomes)) (initial V E n) as t ↔
    Run (step ov outcomes) (Meets ResumesLate) (initial V E n) as t
  := by
  apply Run.visits_iff_meets (Good ov outcomes) _ _ _ (Good.initial ov outcomes)
  · intro s a u hs ha e
    apply hs.step hn ha e
  · intro s hs
    apply hs.givesFirst
  · intro s a u hs ha e
    apply (not_givesFirst_of_early hs ha e).2

instance (s : State V E n) (a : Label n) : Decidable (ResumesLate s a) :=
  inferInstanceAs (Decidable (_ → _ → _))

/-- Of three tasks the second, which fails, completes first, and the coroutine resumes after it has
unlocked the mutex. -/
theorem gives_second_of_three :
  ∃ as t, Run (step .variadic ![.ok 1, .error "refused", .ok 3])
      (Visits (GivesFirst .variadic ![.ok 1, .error "refused", .ok 3])) (initial ℕ String 3) as t ∧
    t.outcome = some (.unexpected "refused")
  := by
  obtain ⟨t, hrun, hout⟩ : ∃ t, Run (step .variadic ![.ok 1, .error "refused", .ok 3])
      (Meets ResumesLate) (initial ℕ String 3)
      (List.flatten [List.replicate 6 .body, List.replicate 2 .suspend,
        List.replicate 7 (.wrapper 1), [.resume], List.replicate 2 (.wrapper 0), [.body]]) t ∧
      t.outcome = some (.unexpected "refused") := by
    apply exists_run_of_exec_guarded
    decide
  exact ⟨_, t, (givesFirst_iff_resumesLate (by decide)).mpr hrun, hout⟩

/-- With one task, whose wrapper has won and has yet to lock the mutex when `await_ready` looks, the
coroutine throws. -/
theorem no_result_one :
  ∃ as t, Run (step .vector fun _ : Fin 1 => (.ok 7 : Except String ℕ)) Free
      (initial ℕ String 1) as t ∧
    t.outcome = some (.runtimeError "when_any: internal error - no result available")
  := by
  use List.flatten [List.replicate 3 .body, List.replicate 2 (.wrapper 0),
    List.replicate 2 .body]
  apply exists_run_of_exec
  decide

end Koroutine.WhenAny
