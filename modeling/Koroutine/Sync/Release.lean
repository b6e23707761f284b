import Mathlib.Data.Fintype.Basic
import Koroutine.Sync.Linked

/-!
# Releasing the mutex and waiting

`wait` releases the mutex in one section and enqueues the coroutine in another, under the mutex of
the condition variable.  A notification that takes the lists of waiters in between does not see the
coroutine.
-/

open Transition

namespace Koroutine.Sync

variable {ι κ : Type*} [DecidableEq κ]

/-- A notification sees every coroutine that had released the mutex when it began, and if it
notifies all, leaves none of them waiting. -/
def Sees (s : State ι κ) : Label ι κ → State ι κ → Prop
  | .proceed i, t => ∀ kind k, s.stage i = .calling kind k → ∀ j, s.owed i j = true →
      j ∈ s.cv_waiters k ∧ (kind = .all → (t.stage j).inWait k = false)
  | _, _ => True

/-- A notification takes its waiters when the coroutines that had released the mutex as it began
have enqueued themselves. -/
def TakesLate (s : State ι κ) : Label ι κ → Prop
  | .proceed i => ∀ kind k, s.stage i = .calling kind k → ∀ j, s.owed i j = true →
      (s.stage j).beforeEnqueue k = false
  | _ => True

/-- A coroutine that a notification owes is still in `wait`. -/
structure Owing (s : State ι κ) : Prop where
  linked : s.Linked
  owed : ∀ i kind k j, s.stage i = .calling kind k → s.owed i j = true →
    (s.stage j).inWait k = true

theorem Owing.initial :
  Owing (initial ι κ)
  := by
  constructor
  · apply Linked.initial
  · intro i kind k j h
    contradiction

/-- Going from stage `x` to `y` begins no notification and leaves no `wait`. -/
structure Keeps (x y : Stage ι κ) : Prop where
  calling : ∀ kind k, y = .calling kind k → x = .calling kind k
  inWait : ∀ k, x.inWait k = true → y.inWait k = true

theorem Keeps.refl (x : Stage ι κ) :
  Keeps x x
  := by
  constructor
  · intro kind k h
    apply h
  · intro k h
    apply h

theorem Keeps.trans {x y z : Stage ι κ} (h : Keeps x y) (h' : Keeps y z) :
  Keeps x z
  := by
  constructor
  · intro kind k hz
    apply h.calling kind k (h'.calling kind k hz)
  · intro k hx
    apply h'.inWait k (h.inWait k hx)

variable {s t : State ι κ}

/-- A step that begins no notification and ends no `wait`. -/
theorem Owing.of_keeps (hs : Owing s) (hlinked : t.Linked) (howed : t.owed = s.owed)
    (h : ∀ j, Keeps (s.stage j) (t.stage j)) :
  Owing t
  := by
  constructor
  · apply hlinked
  · intro i kind k j hi hj
    rw [howed] at hj
    apply (h j).inWait
    apply hs.owed i kind k j ((h i).calling kind k hi) hj

/-- A coroutine in `wait` that has enqueued itself is in the list, and one that is in the list has
enqueued itself. -/
theorem State.Linked.mem_iff {k : κ} {j : ι} (hs : s.Linked)
    (hwait : (s.stage j).inWait k = true) :
  j ∈ s.cv_waiters k ↔ (s.stage j).beforeEnqueue k = false
  := by
  rw [hs.waiting]
  cases h : s.stage j with
  | waiting k' =>
      rw [h] at hwait
      obtain rfl : k = k' := by simpa [Stage.inWait] using hwait
      simp [Stage.beforeEnqueue]
  | handing next wait =>
      rw [h] at hwait
      cases wait with
      | none => contradiction
      | some k' =>
          obtain rfl : k = k' := by simpa [Stage.inWait] using hwait
          simp [Stage.beforeEnqueue]
  | releasing k' =>
      rw [h] at hwait
      obtain rfl : k = k' := by simpa [Stage.inWait] using hwait
      simp [Stage.beforeEnqueue]
  | _ =>
      rw [h] at hwait
      contradiction

variable [DecidableEq ι] {i : ι}

/-- One coroutine goes on. -/
theorem keeps_update {stage : ι → Stage ι κ} {x : Stage ι κ} (h : Keeps (stage i) x) (j : ι) :
  Keeps (stage j) (Function.update stage i x j)
  := by
  by_cases hj : j = i
  · subst hj
    rw [Function.update_self]
    apply h
  · rw [Function.update_of_ne hj]
    apply Keeps.refl

/-- Two coroutines go on. -/
theorem keeps_update_update {stage : ι → Stage ι κ} {w : ι} {x y : Stage ι κ} (hne : i ≠ w)
    (hw : Keeps (stage w) y) (hi : Keeps (stage i) x) (j : ι) :
  Keeps (stage j) (Function.update (Function.update stage w y) i x j)
  := by
  apply (keeps_update hw j).trans
  apply keeps_update
  rw [Function.update_of_ne hne]
  apply hi

/-- The coroutine a notification owes is taken, or goes on waiting. -/
theorem Owing.take {kind : Notify} {k : κ} (hs : Owing s) (hlinked : (s.take i kind k).Linked)
    (hi : s.stage i = .calling kind k) :
  Owing (s.take i kind k)
  := by
  constructor
  · apply hlinked
  · intro n kind' k' j hn hj
    have hne : n ≠ i := by
      rintro rfl
      simp [State.take] at hn
    have hcalling : s.stage n = .calling kind' k' := by
      simp only [State.take, Function.update_of_ne hne] at hn
      split at hn
      · contradiction
      · apply hn
    simp only [State.take, hne, false_or] at hj
    split at hj
    · contradiction
    · rename_i hfree
      have hwait := hs.owed n kind' k' j hcalling hj
      have hji : j ≠ i := by
        rintro rfl
        rw [hi] at hwait
        contradiction
      simpa [State.take, hji, hfree] using hwait

theorem Owing.unlock {wait : Option κ} (hs : Owing s) (hi : s.stage i = .running) :
  Owing (unlock s i wait)
  := by
  have hactive : (s.stage i).passive = false := by rw [hi]; rfl
  have hlinked := hs.linked.unlock hactive wait
  unfold Sync.unlock at hlinked ⊢
  split at hlinked
  · apply hs.of_keeps hlinked rfl
    apply keeps_update
    rw [hi]
    cases wait <;> constructor <;> simp [afterUnlock, Stage.inWait]
  · rename_i next rest hwaiters
    have hqueued := hs.linked.queued next (hwaiters ▸ List.mem_cons_self)
    apply hs.of_keeps hlinked rfl
    apply keeps_update_update
    · rintro rfl
      rw [hi] at hqueued
      contradiction
    · rw [hqueued]
      constructor <;> simp [Stage.inWait]
    · rw [hi]
      constructor <;> simp [Stage.inWait]

theorem Owing.proceed (hs : Owing s) (h : proceed s i = some t) :
  Owing t
  := by
  have hlinked := hs.linked.proceed h
  cases proceed_effect h with
  | resume before | enqueue before | done before | goOn before | acquire before free =>
      apply hs.of_keeps hlinked rfl
      apply keeps_update
      rw [before]
      constructor <;> simp [Stage.inWait]
  | @resumeNext next wait before =>
      have hgranted := hs.linked.granted before
      apply hs.of_keeps hlinked rfl
      apply keeps_update_update
      · rintro rfl
        rw [before] at hgranted
        contradiction
      · rw [hgranted]
        constructor <;> simp [Stage.inWait]
      · rw [before]
        cases wait <;> constructor <;> simp [afterUnlock, Stage.inWait]
  | take before => apply hs.take hlinked before
  | @give w ws before =>
      have htaken := hs.linked.taken before List.mem_cons_self
      apply hs.of_keeps hlinked rfl
      apply keeps_update_update
      · rintro rfl
        rw [before] at htaken
        contradiction
      · rw [htaken]
        constructor <;> simp [Stage.inWait]
      · rw [before]
        constructor <;> simp [Stage.inWait]
  | @resumeWaiter w ws before =>
      have hnotified := hs.linked.notified before
      apply hs.of_keeps hlinked rfl
      apply keeps_update_update
      · rintro rfl
        rw [before] at hnotified
        contradiction
      · rw [hnotified]
        constructor <;> simp [Stage.inWait]
      · rw [before]
        constructor <;> simp [Stage.inWait]
  | spin => apply hs

/-- Every step keeps what notifications owe. -/
theorem Owing.step {a : Label ι κ} (hs : Owing s) (h : step s a = some t) :
  Owing t
  := by
  have hlinked := hs.linked.step h
  cases a with
  | lock i =>
      simp only [Sync.step] at h
      split at h
      · rename_i hstage
        split at h <;>
        · obtain rfl := Option.some.inj h
          apply hs.of_keeps hlinked rfl
          apply keeps_update
          rw [hstage]
          constructor <;> simp [Stage.inWait]
      · contradiction
  | try_lock i =>
      simp only [Sync.step] at h
      split at h
      · split at h <;>
        · obtain rfl := Option.some.inj h
          exact ⟨hs.linked, hs.owed⟩
      · contradiction
  | unlock i =>
      simp only [Sync.step, Option.ite_none_right_eq_some, Option.some.injEq] at h
      obtain ⟨⟨hstage, -⟩, rfl⟩ := h
      apply hs.unlock hstage
  | wait i k =>
      simp only [Sync.step, Option.ite_none_right_eq_some, Option.some.injEq] at h
      obtain ⟨⟨hstage, -⟩, rfl⟩ := h
      have hnew : Owing (s.newAwaiter i) := ⟨hs.linked, hs.owed⟩
      apply hnew.unlock hstage
  | notify i kind k =>
      simp only [Sync.step, Option.ite_none_right_eq_some, Option.some.injEq] at h
      obtain ⟨hstage, rfl⟩ := h
      constructor
      · apply hlinked
      · intro n kind' k' j hn hj
        -- a running coroutine is not in `wait`
        have hji : (s.stage j).inWait k' = true → j ≠ i := by
          rintro hwait rfl
          rw [hstage] at hwait
          contradiction
        by_cases hni : n = i
        · subst hni
          obtain ⟨rfl, rfl⟩ : kind = kind' ∧ k = k' := by simpa [State.beginNotify] using hn
          have hwait : (s.stage j).inWait k = true := by simpa [State.beginNotify] using hj
          simpa [State.beginNotify, hji hwait] using hwait
        · simp only [State.beginNotify, Function.update_of_ne hni] at hn hj
          have hwait := hs.owed n kind' k' j hn hj
          simpa [State.beginNotify, hji hwait] using hwait
  | proceed i =>
      apply hs.proceed h

/-- A notification sees the coroutines it owes exactly when it takes its waiters late. -/
theorem Owing.sees_iff {a : Label ι κ} (hs : Owing s) (h : Sync.step s a = some t) :
  Sees s a t ↔ TakesLate s a
  := by
  cases a with
  | lock i | try_lock i | unlock i | wait i k | notify i kind k => simp [Sees, TakesLate]
  | proceed i =>
      constructor
      · intro hsees kind k hi j hj
        apply (hs.linked.mem_iff (hs.owed i kind k j hi hj)).mp
        apply (hsees kind k hi j hj).1
      · intro hlate kind k hi j hj
        have hmem : j ∈ s.cv_waiters k := by
          apply (hs.linked.mem_iff (hs.owed i kind k j hi hj)).mpr
          apply hlate kind k hi j hj
        use hmem
        rintro rfl
        simp only [Sync.step, Sync.proceed, hi, Option.some.injEq] at h
        subst h
        by_cases hji : j = i
        · subst hji
          simp [State.take, Stage.inWait]
        · simp [State.take, hji, Notify.takes, hmem, Stage.inWait]

/-- In a run every notification sees the coroutines that had released the mutex when it began,
exactly when every notification takes its waiters after these have enqueued themselves. -/
theorem sees_iff_takes_late {as : List (Label ι κ)} :
  Run step Sees (initial ι κ) as t ↔ Run step (Meets TakesLate) (initial ι κ) as t
  := by
  apply Run.congr Owing _ _ Owing.initial
  · intro s a u hs _ e
    apply hs.step e
  · intro s a u hs e
    apply hs.sees_iff e

instance [Fintype ι] (s : State ι κ) : (a : Label ι κ) → Decidable (TakesLate s a)
  | .lock _ | .try_lock _ | .unlock _ | .wait _ _ | .notify _ _ _ => .isTrue trivial
  | .proceed i =>
      match h : s.stage i with
      | .calling kind k =>
          decidable_of_iff (∀ j, s.owed i j = true → (s.stage j).beforeEnqueue k = false)
            (by simp [TakesLate, h])
      | .running | .acquired | .queued | .granted _ | .handing _ _ | .releasing _ | .waiting _
      | .taken _ | .notified _ | .notifying _ | .waking _ _ | .scheduled _ =>
          .isTrue (by simp [TakesLate, h])

/-- The first coroutine enqueues itself between the beginning of the notification and its taking
of the waiters, and is resumed. -/
theorem takes_late_two :
  ∃ as t, Run step Sees (initial (Fin 2) Unit) as t ∧ t.stage 0 = .running
  := by
  obtain ⟨t, hrun, ht⟩ : ∃ t, Run step (Meets TakesLate) (initial (Fin 2) Unit)
      [.lock 0, .proceed 0, .proceed 0, .wait 0 (), .notify 1 .all (), .proceed 0, .proceed 1,
        .proceed 1, .proceed 1, .proceed 0] t ∧ t.stage 0 = .running := by
    apply exists_run_of_exec_guarded
    decide
  exact ⟨_, t, sees_iff_takes_late.mpr hrun, ht⟩

/-- The second coroutine takes the mutex the first has released, notifies all and unlocks it.  The
first enqueues itself afterwards, and waits. -/
theorem missed_all_two :
  ∃ as s t bs u, Run step Free (initial (Fin 2) Unit) as s ∧ step s (.proceed 1) = some t ∧
    ¬ Sees s (.proceed 1) t ∧ Run step Free t bs u ∧
    u.stage 0 = .waiting () ∧ u.stage 1 = .running ∧ u.locked = false
  := by
  obtain ⟨s, hrun, ⟨hstage, howed, hnone⟩, hafter⟩ :
      ∃ s, Run step Free (initial (Fin 2) Unit) [.lock 0, .proceed 0, .proceed 0, .wait 0 (),
        .lock 1, .proceed 1, .proceed 1, .notify 1 .all ()] s ∧
      (s.stage 1 = .calling .all () ∧ s.owed 1 0 = true ∧ s.cv_waiters () = []) ∧
      (exec step (s.take 1 .all ()) [.proceed 1, .unlock 1, .proceed 0]).any
        (fun u => u.stage 0 = .waiting () ∧ u.stage 1 = .running ∧ u.locked = false) = true := by
    apply exists_run_of_exec
    decide
  obtain ⟨u, hu, hq⟩ := exists_run_of_exec hafter
  refine ⟨_, s, s.take 1 .all (), _, u, hrun, ?_, ?_, hu, hq⟩
  · simp [step, proceed, hstage]
  · intro hsees
    have hmem := (hsees .all () hstage 0 howed).1
    rw [hnone] at hmem
    contradiction

end Koroutine.Sync
