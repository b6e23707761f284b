import Mathlib.Data.Fintype.Basic
import Koroutine.Sync.Linked

/-!
# Who owns the mutex

`lock` and `try_lock` take the mutex where `_locked` is false, and `unlock` passes it on.  A
notification sets `_locked` and resumes the waiter as an owner without looking whether another
coroutine owns the mutex.
-/

open Transition

namespace Koroutine.Sync

variable {ι κ : Type*}

/-- At most one coroutine owns the mutex, and `_locked` says whether one does. -/
def Exclusive (locked : Bool) (owns : ι → Bool) : Prop :=
  (∀ i j, owns i = true → owns j = true → i = j) ∧ (locked = true ↔ ∃ i, owns i = true)

/-- `acquire_for_notify` finds the mutex free. -/
def FindsFree (s : State ι κ) : Label ι κ → Prop
  | .proceed i => ∀ w ws, s.stage i = .notifying (w :: ws) → s.locked = false
  | _ => True

/-- The stages of `wait` from the release of the mutex until it is given back. -/
def Stage.without : Stage ι κ → Bool
  | .handing _ (some _) | .releasing _ | .waiting _ | .taken _ => true
  | _ => false

/-- The mutex is owned exclusively, and not by a coroutine in `wait`. -/
structure Guarded (s : State ι κ) : Prop where
  linked : s.Linked
  exclusive : Exclusive s.locked s.owns
  without : ∀ i, (s.stage i).without = true → s.owns i = false

theorem Guarded.initial :
  Guarded (initial ι κ)
  := by
  constructor
  · apply Linked.initial
  · constructor
    · intro i j h
      contradiction
    · simp [Sync.initial]
  · intro i _
    rfl

variable {s t : State ι κ}

/-- A step in which only coroutines in `wait` go on in it, without becoming owners. -/
theorem Guarded.of_without (hs : Guarded s) (hlinked : t.Linked)
    (hexclusive : Exclusive t.locked t.owns)
    (hwithout : ∀ j, (t.stage j).without = true →
      (s.stage j).without = true ∧ t.owns j = s.owns j) :
  Guarded t
  := by
  constructor
  · apply hlinked
  · apply hexclusive
  · intro j hj
    obtain ⟨hj', howns⟩ := hwithout j hj
    rw [howns]
    apply hs.without j hj'

variable [DecidableEq ι] {owns : ι → Bool} {i : ι}

/-! ### Taking and releasing the mutex -/

/-- The mutex is taken where it was free. -/
theorem Exclusive.acquire (hs : Exclusive false owns) :
  Exclusive true (Function.update owns i true)
  := by
  have howns : ∀ j, Function.update owns i true j = true → j = i := by
    intro j hj
    by_contra hne
    rw [Function.update_of_ne hne] at hj
    have := hs.2.mpr ⟨j, hj⟩
    contradiction
  constructor
  · intro j k hj hk
    rw [howns j hj, howns k hk]
  · constructor
    · intro _
      use i
      apply Function.update_self
    · intro _
      rfl

/-- The mutex is released by its owner. -/
theorem Exclusive.release {locked : Bool} (hs : Exclusive locked owns) (hi : owns i = true) :
  Exclusive false (Function.update owns i false)
  := by
  have hnone : ∀ j, Function.update owns i false j ≠ true := by
    intro j hj
    by_cases hj' : j = i
    · subst hj'
      simp at hj
    · rw [Function.update_of_ne hj'] at hj
      apply hj' (hs.1 j i hj hi)
  constructor
  · intro j k hj
    apply absurd hj (hnone j)
  · constructor
    · intro h
      contradiction
    · rintro ⟨j, hj⟩
      apply absurd hj (hnone j)

/-! ### The steps -/

/-- `unlock`, called by the owner. -/
theorem Guarded.unlock {wait : Option κ} (hs : Guarded s) (hi : s.owns i = true)
    (hrunning : s.stage i = .running) :
  Guarded (unlock s i wait)
  := by
  have hactive : (s.stage i).passive = false := by rw [hrunning]; rfl
  have hlinked := hs.linked.unlock hactive wait
  have hreleased := hs.exclusive.release hi
  unfold Sync.unlock at hlinked ⊢
  split at hlinked
  · constructor
    · apply hlinked
    · apply hreleased
    · intro j hj
      by_cases hj' : j = i
      · subst hj'
        apply Function.update_self
      · simp only [State.release, Function.update_of_ne hj'] at hj ⊢
        apply hs.without j hj
  · rename_i next rest hwaiters
    have hlocked : s.locked = true := hs.exclusive.2.mpr ⟨i, hi⟩
    have hnext : next ≠ i := by
      rintro rfl
      have hqueued := hs.linked.queued next (hwaiters ▸ List.mem_cons_self)
      rw [hrunning] at hqueued
      contradiction
    constructor
    · apply hlinked
    · simp only [State.handOver, hlocked]
      apply hreleased.acquire
    · intro j hj
      by_cases hj' : j = next
      · subst hj'
        simp [State.handOver, hnext, Stage.without] at hj
      · by_cases hji : j = i
        · subst hji
          simp [State.handOver, hj']
        · simp only [State.handOver, Function.update_of_ne hj', Function.update_of_ne hji] at hj ⊢
          apply hs.without j hj

/-- A coroutine goes on by itself, and may take the mutex. -/
theorem Guarded.goTo {x : Stage ι κ} (hs : Guarded s) (hlinked : t.Linked)
    (hexclusive : Exclusive t.locked t.owns) (hstage : t.stage = Function.update s.stage i x)
    (hx : x.without = false) (howns : ∀ j, j ≠ i → t.owns j = s.owns j) :
  Guarded t
  := by
  apply hs.of_without hlinked hexclusive
  intro j hj
  rw [hstage] at hj
  by_cases hj' : j = i
  · subst hj'
    rw [Function.update_self, hx] at hj
    contradiction
  · rw [Function.update_of_ne hj'] at hj
    exact ⟨hj, howns j hj'⟩

/-- A coroutine resumes another, and goes on. -/
theorem Guarded.wake {x : Stage ι κ} {j : ι} {waited : Bool} (hs : Guarded s)
    (hlinked : (s.wake i x j waited).Linked)
    (hx : x.without = true → (s.stage i).without = true) :
  Guarded (s.wake i x j waited)
  := by
  apply hs.of_without hlinked hs.exclusive
  intro j' hj'
  refine ⟨?_, rfl⟩
  by_cases hi : j' = i
  · subst hi
    apply hx
    simpa [State.wake] using hj'
  · by_cases hj : j' = j
    · subst hj
      simp [State.wake, hi, Stage.without] at hj'
    · simpa [State.wake, hi, hj] using hj'

/-- A waiter is given a free mutex. -/
theorem Guarded.give {w : ι} {ws : List ι} (hs : Guarded s) (hfree : s.locked = false)
    (hlinked : (s.acquireForNotify i w ws).Linked) :
  Guarded (s.acquireForNotify i w ws)
  := by
  have hexclusive := hs.exclusive
  rw [hfree] at hexclusive
  apply hs.of_without hlinked hexclusive.acquire
  intro j hj
  by_cases hi : j = i
  · subst hi
    simp [State.acquireForNotify, Stage.without] at hj
  · by_cases hw : j = w
    · subst hw
      simp [State.acquireForNotify, hi, Stage.without] at hj
    · simpa [State.acquireForNotify, hi, hw] using hj

variable [DecidableEq κ]

/-- Waiters are taken, and stay in `wait`. -/
theorem Guarded.take {kind : Notify} {k : κ} (hs : Guarded s)
    (hlinked : (s.take i kind k).Linked) :
  Guarded (s.take i kind k)
  := by
  apply hs.of_without hlinked hs.exclusive
  intro j hj
  refine ⟨?_, rfl⟩
  by_cases hj' : j = i
  · subst hj'
    simp [State.take, Stage.without] at hj
  · by_cases htake : j ∈ kind.takes (s.cv_waiters k)
    · rw [(hs.linked.waiting j k).mp (kind.mem_of_takes htake)]
      rfl
    · simpa [State.take, hj', htake] using hj

theorem Guarded.proceed (hs : Guarded s) (ha : FindsFree s (.proceed i))
    (h : proceed s i = some t) :
  Guarded t
  := by
  have hlinked := hs.linked.proceed h
  have hexclusive := hs.exclusive
  cases proceed_effect h with
  | resume before | done before | goOn before =>
      apply hs.goTo hlinked hexclusive rfl rfl
      intro j _
      rfl
  | @resumeNext next wait before =>
      apply hs.wake hlinked
      rw [before]
      cases wait with
      | none => exact id
      | some k => exact id
  | enqueue before =>
      apply hs.of_without hlinked hexclusive
      intro j hj
      refine ⟨?_, rfl⟩
      by_cases hj' : j = i
      · rw [hj', before]
        rfl
      · simpa [State.enqueueCv, hj'] using hj
  | take before => apply hs.take hlinked
  | give before => apply hs.give (ha _ _ before) hlinked
  | resumeWaiter before =>
      apply hs.wake hlinked
      intro hx
      contradiction
  | spin => apply hs
  | acquire before free =>
      rw [free] at hexclusive
      apply hs.goTo hlinked hexclusive.acquire rfl rfl
      intro j hj
      apply Function.update_of_ne hj

/-- Every step in which a notification finds the mutex free keeps it owned exclusively. -/
theorem Guarded.step {a : Label ι κ} (hs : Guarded s) (ha : FindsFree s a)
    (h : Sync.step s a = some t) :
  Guarded t
  := by
  have hlinked := hs.linked.step h
  have hexclusive := hs.exclusive
  cases a with
  | lock i =>
      simp only [Sync.step] at h
      split at h
      · split at h
        · obtain rfl := Option.some.inj h
          apply hs.goTo hlinked hexclusive rfl rfl
          intro j _
          rfl
        · rename_i hfree
          obtain rfl := Option.some.inj h
          rw [Bool.eq_false_iff.mpr hfree] at hexclusive
          apply hs.goTo hlinked hexclusive.acquire rfl rfl
          intro j hj
          apply Function.update_of_ne hj
      · contradiction
  | try_lock i =>
      simp only [Sync.step] at h
      split at h
      · rename_i hstage
        split at h
        · obtain rfl := Option.some.inj h
          apply hs
        · rename_i hfree
          obtain rfl := Option.some.inj h
          rw [Bool.eq_false_iff.mpr hfree] at hexclusive
          apply hs.of_without hlinked hexclusive.acquire
          intro j hj
          have hj' : j ≠ i := by
            rintro rfl
            rw [State.acquire, hstage] at hj
            contradiction
          exact ⟨hj, Function.update_of_ne hj' _ _⟩
      · contradiction
  | unlock i =>
      simp only [Sync.step, Option.ite_none_right_eq_some, Option.some.injEq] at h
      obtain ⟨⟨hstage, howns⟩, rfl⟩ := h
      apply hs.unlock howns hstage
  | wait i k =>
      simp only [Sync.step, Option.ite_none_right_eq_some, Option.some.injEq] at h
      obtain ⟨⟨hstage, howns⟩, rfl⟩ := h
      have hnew : Guarded (s.newAwaiter i) := ⟨hs.linked, hs.exclusive, hs.without⟩
      apply hnew.unlock howns hstage
  | notify i kind k =>
      simp only [Sync.step, Option.ite_none_right_eq_some, Option.some.injEq] at h
      obtain ⟨hstage, rfl⟩ := h
      apply hs.goTo hlinked hexclusive rfl rfl
      intro j _
      rfl
  | proceed i =>
      apply hs.proceed ha h

/-- A notification that finds the mutex taken makes a second owner. -/
theorem Guarded.not_exclusive {a : Label ι κ} (hs : Guarded s) (ha : ¬ FindsFree s a)
    (h : Sync.step s a = some t) :
  ¬ Exclusive t.locked t.owns
  := by
  cases a with
  | lock i | try_lock i | unlock i | wait i k | notify i kind k => apply absurd trivial ha
  | proceed i =>
      simp only [FindsFree, not_forall, Bool.not_eq_false] at ha
      obtain ⟨w, ws, hstage, hlocked⟩ := ha
      simp only [Sync.step, Sync.proceed, hstage, Option.some.injEq] at h
      subst h
      obtain ⟨o, ho⟩ := hs.exclusive.2.mp hlocked
      have htaken := hs.linked.taken hstage List.mem_cons_self
      have hw : s.owns w = false := by
        apply hs.without
        rw [htaken]
        rfl
      have hne : o ≠ w := by
        rintro rfl
        rw [ho] at hw
        contradiction
      rintro ⟨hunique, -⟩
      apply hne
      apply hunique
      · simp [State.acquireForNotify, hne, ho]
      · simp [State.acquireForNotify]

/-- A run goes only through states in which at most one coroutine owns the mutex and `_locked` says
whether one does, exactly when every `acquire_for_notify` finds the mutex free. -/
theorem exclusive_iff_finds_free {as : List (Label ι κ)} :
  Run step (Visits fun s => Exclusive s.locked s.owns) (initial ι κ) as t ↔
    Run step (Meets FindsFree) (initial ι κ) as t
  := by
  apply Run.visits_iff_meets Guarded _ _ _ Guarded.initial
  · intro s a u hs ha e
    apply hs.step ha e
  · intro s hs
    apply hs.exclusive
  · intro s a u hs ha e
    apply hs.not_exclusive ha e

instance (s : State ι κ) : (a : Label ι κ) → Decidable (FindsFree s a)
  | .lock _ | .try_lock _ | .unlock _ | .wait _ _ | .notify _ _ _ => .isTrue trivial
  | .proceed i =>
      match h : s.stage i with
      | .notifying (w :: ws) =>
          decidable_of_iff (s.locked = false) (by simp [FindsFree, h])
      | .running | .acquired | .queued | .granted _ | .handing _ _ | .releasing _ | .waiting _
      | .taken _ | .notified _ | .calling _ _ | .notifying [] | .waking _ _ | .scheduled _ =>
          .isTrue (by simp [FindsFree, h])

instance [Fintype ι] (locked : Bool) (owns : ι → Bool) : Decidable (Exclusive locked owns) :=
  inferInstanceAs (Decidable (_ ∧ _))

/-- The second coroutine unlocks before it notifies: the first is given a free mutex. -/
theorem finds_free_two :
  ∃ as t, Run step (Visits fun s => Exclusive s.locked s.owns) (initial (Fin 2) Unit) as t ∧
    t.stage 0 = .running ∧ t.owns 0 = true
  := by
  obtain ⟨t, hrun, ht⟩ : ∃ t, Run step (Meets FindsFree) (initial (Fin 2) Unit)
      [.lock 0, .proceed 0, .proceed 0, .wait 0 (), .lock 1, .proceed 0, .proceed 1, .proceed 1,
        .unlock 1, .notify 1 .one (), .proceed 1, .proceed 1, .proceed 1, .proceed 0] t ∧
      t.stage 0 = .running ∧ t.owns 0 = true := by
    apply exists_run_of_exec_guarded
    decide
  exact ⟨_, t, exclusive_iff_finds_free.mpr hrun, ht⟩

/-- The second coroutine notifies while it owns the mutex: both own it. -/
theorem two_owners_two :
  ∃ as t, Run step Free (initial (Fin 2) Unit) as t ∧ ¬ Exclusive t.locked t.owns
  := by
  use [.lock 0, .proceed 0, .proceed 0, .wait 0 (), .proceed 0, .lock 1, .proceed 1, .proceed 1,
    .notify 1 .one (), .proceed 1, .proceed 1]
  apply exists_run_of_exec
  decide

end Koroutine.Sync
