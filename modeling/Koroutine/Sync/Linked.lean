import Mathlib.Data.List.Nodup
import Koroutine.Sync.Basic
import Koroutine.Transition.Run

/-!
# Lists and stages agree

A coroutine in a list of waiters is at the stage that says so, and a coroutine in the middle of
`unlock` or of a notification has taken the coroutines it is about to resume.  Every step preserves
this.
-/

open Transition

namespace Koroutine.Sync

variable {ι κ : Type*}

/-- The stages in which a coroutine does not make steps of its own. -/
def Stage.passive : Stage ι κ → Bool
  | .queued | .granted _ | .waiting _ | .taken _ | .notified _ => true
  | _ => false

/-- The stages in which a step of coroutine `i` may find and change another coroutine. -/
def Stage.heldBy [DecidableEq ι] (i : ι) : Stage ι κ → Bool
  | .queued | .waiting _ => true
  | .granted j | .taken j | .notified j => j = i
  | _ => false

/-- Coroutine `i`, at the given stage, has taken `j` and brought it to stage `y`. -/
def Stage.Has (i : ι) : Stage ι κ → ι → Stage ι κ → Prop
  | .handing next _, j, y => j = next ∧ y = .granted i
  | .notifying ws, j, y => j ∈ ws ∧ y = .taken i
  | .waking w ws, j, y => (j = w ∧ y = .notified i) ∨ (j ∈ ws ∧ y = .taken i)
  | _, _, _ => False

/-- The waiters still to be given the mutex. -/
def Stage.pending : Stage ι κ → List ι
  | .notifying ws | .waking _ ws => ws
  | _ => []

/-- The lists of waiters and the stages agree. -/
structure Linked (waiters : List ι) (cv_waiters : κ → List ι) (stage : ι → Stage ι κ) : Prop where
  queued : ∀ i ∈ waiters, stage i = .queued
  waiting : ∀ i k, i ∈ cv_waiters k ↔ stage i = .waiting k
  queued_once : waiters.Nodup
  waiting_once : ∀ k, (cv_waiters k).Nodup
  has : ∀ i j y, (stage i).Has i j y → stage j = y
  pending_once : ∀ i, (stage i).pending.Nodup

/-- The lists of waiters of a state agree with its stages. -/
def State.Linked (s : State ι κ) : Prop := Sync.Linked s.waiters s.cv_waiters s.stage

theorem Linked.initial :
  (initial ι κ).Linked
  := by
  constructor <;> simp [Sync.initial, Stage.Has, Stage.pending]

/-! ### The waiters a notification takes and those it leaves -/

theorem Notify.mem_of_takes {ws : List ι} {j : ι} (kind : Notify) (h : j ∈ kind.takes ws) :
  j ∈ ws
  := by
  cases kind with
  | one => apply List.mem_of_mem_take h
  | all => apply h

theorem Notify.nodup_takes {ws : List ι} (kind : Notify) (h : ws.Nodup) :
  (kind.takes ws).Nodup
  := by
  cases kind with
  | one => apply h.sublist (List.take_sublist 1 ws)
  | all => apply h

theorem Notify.nodup_leaves {ws : List ι} (kind : Notify) (h : ws.Nodup) :
  (kind.leaves ws).Nodup
  := by
  cases kind with
  | one => apply h.sublist (List.drop_sublist 1 ws)
  | all => apply List.nodup_nil

/-- The waiters left are those not taken. -/
theorem Notify.mem_leaves_iff {ws : List ι} {j : ι} (kind : Notify) (h : ws.Nodup) :
  j ∈ kind.leaves ws ↔ j ∈ ws ∧ j ∉ kind.takes ws
  := by
  cases kind with
  | all => simp [Notify.leaves, Notify.takes]
  | one =>
      cases ws with
      | nil => simp [Notify.leaves]
      | cons w ws =>
          have hw := (List.nodup_cons.mp h).1
          simp only [Notify.leaves, Notify.takes, List.drop_one, List.tail_cons, List.take_succ_cons,
            List.take_zero, List.mem_cons, List.not_mem_nil, or_false]
          constructor
          · intro hj
            refine ⟨.inr hj, ?_⟩
            rintro rfl
            contradiction
          · rintro ⟨rfl | hj, hne⟩
            · contradiction
            · apply hj

/-! ### Stages and what they hold -/

variable {waiters waiters' : List ι} {cv_waiters cv_waiters' : κ → List ι}
  {stage stage' : ι → Stage ι κ} {i : ι}

theorem Stage.Has.passive {x y : Stage ι κ} {j : ι} (h : x.Has i j y) :
  y.passive = true
  := by
  cases x <;> simp only [Stage.Has] at h
  · obtain ⟨-, rfl⟩ := h
    rfl
  · obtain ⟨-, rfl⟩ := h
    rfl
  · obtain ⟨-, rfl⟩ | ⟨-, rfl⟩ := h <;> rfl

/-- What one coroutine has taken another does not hold. -/
theorem Stage.Has.eq_of_heldBy [DecidableEq ι] {x y : Stage ι κ} {j i' : ι} (h : x.Has i j y)
    (hy : y.heldBy i' = true) :
  i = i'
  := by
  cases x <;> simp only [Stage.Has] at h
  · obtain ⟨-, rfl⟩ := h
    simpa [Stage.heldBy] using hy
  · obtain ⟨-, rfl⟩ := h
    simpa [Stage.heldBy] using hy
  · obtain ⟨-, rfl⟩ | ⟨-, rfl⟩ := h <;> simpa [Stage.heldBy] using hy

/-- A coroutine that makes steps is at none of the passive stages. -/
theorem ne_of_passive {x y : Stage ι κ} (hx : x.passive = false) (hy : y.passive = true) :
  x ≠ y
  := by
  rintro rfl
  rw [hx] at hy
  contradiction

/-- The coroutine `unlock` is about to resume. -/
theorem State.Linked.granted {s : State ι κ} {next : ι} {wait : Option κ} (hs : s.Linked)
    (h : s.stage i = .handing next wait) :
  s.stage next = .granted i
  := by
  apply hs.has i
  rw [h]
  exact ⟨rfl, rfl⟩

/-- The waiters a notification has still to wake. -/
theorem State.Linked.taken {s : State ι κ} {ws : List ι} {j : ι} (hs : s.Linked)
    (h : s.stage i = .notifying ws) (hj : j ∈ ws) :
  s.stage j = .taken i
  := by
  apply hs.has i
  rw [h]
  exact ⟨hj, rfl⟩

/-- The waiter a notification is about to resume. -/
theorem State.Linked.notified {s : State ι κ} {w : ι} {ws : List ι} (hs : s.Linked)
    (h : s.stage i = .waking w ws) :
  s.stage w = .notified i
  := by
  apply hs.has i
  rw [h]
  exact .inl ⟨rfl, rfl⟩

variable [DecidableEq ι]

/-- A coroutine outside `waiters` may change its stage. -/
theorem queued_update {x : Stage ι κ} (h : ∀ j ∈ waiters, stage j = .queued)
    (hi : stage i ≠ .queued) :
  ∀ j ∈ waiters, Function.update stage i x j = .queued
  := by
  intro j hj
  have hne : j ≠ i := by
    rintro rfl
    apply hi (h j hj)
  rw [Function.update_of_ne hne]
  apply h j hj

/-- A coroutine outside the lists of the condition variables may change its stage. -/
theorem waiting_update {x : Stage ι κ} (h : ∀ j k, j ∈ cv_waiters k ↔ stage j = .waiting k)
    (hi : ∀ k, stage i ≠ .waiting k) (hx : ∀ k, x ≠ .waiting k) :
  ∀ j k, j ∈ cv_waiters k ↔ Function.update stage i x j = .waiting k
  := by
  intro j k
  by_cases hj : j = i
  · subst hj
    rw [h, Function.update_self]
    constructor
    · intro hw
      apply absurd hw (hi k)
    · intro hw
      apply absurd hw (hx k)
  · rw [Function.update_of_ne hj]
    apply h

/-- A step of coroutine `i`, in which it changes its own stage and that of coroutines it holds,
which are left without any taken themselves. -/
theorem Linked.step (hs : Linked waiters cv_waiters stage) (hi : (stage i).passive = false)
    (hother : ∀ j, j ≠ i → stage' j = stage j ∨
      (stage j).heldBy i = true ∧ (stage' j).pending = [] ∧ ∀ j' y, ¬ (stage' j).Has j j' y)
    (hqueued : ∀ j ∈ waiters', stage' j = .queued)
    (hwaiting : ∀ j k, j ∈ cv_waiters' k ↔ stage' j = .waiting k)
    (hqueued_once : waiters'.Nodup) (hwaiting_once : ∀ k, (cv_waiters' k).Nodup)
    (hhas : ∀ j y, (stage' i).Has i j y → stage' j = y) (hpending : (stage' i).pending.Nodup) :
  Linked waiters' cv_waiters' stage'
  := by
  constructor
  · apply hqueued
  · apply hwaiting
  · apply hqueued_once
  · apply hwaiting_once
  · intro i' j y h
    by_cases hi' : i' = i
    · subst hi'
      apply hhas j y h
    · obtain heq | ⟨-, -, hnone⟩ := hother i' hi'
      · rw [heq] at h
        have hj := hs.has i' j y h
        have hne : j ≠ i := by
          rintro rfl
          apply ne_of_passive hi h.passive hj
        obtain heq' | ⟨hheld, -⟩ := hother j hne
        · rw [heq', hj]
        · rw [hj] at hheld
          apply absurd (h.eq_of_heldBy hheld) hi'
      · apply absurd h (hnone j y)
  · intro j
    by_cases hj : j = i
    · rw [hj]
      apply hpending
    · obtain heq | ⟨-, hnil, -⟩ := hother j hj
      · rw [heq]
        apply hs.pending_once j
      · rw [hnil]
        apply List.nodup_nil

/-- A coroutine goes on by itself, to a stage in which it has taken no other. -/
theorem Linked.goTo {x : Stage ι κ} (hs : Linked waiters cv_waiters stage)
    (hi : (stage i).passive = false) (hx : x.passive = false) (hpending : x.pending = [])
    (hhas : ∀ j y, ¬ x.Has i j y) :
  Linked waiters cv_waiters (Function.update stage i x)
  := by
  apply hs.step hi
  · intro j hj
    left
    apply Function.update_of_ne hj
  · apply queued_update hs.queued
    apply ne_of_passive hi rfl
  · apply waiting_update hs.waiting
    · intro k
      apply ne_of_passive hi rfl
    · rintro k rfl
      contradiction
  · apply hs.queued_once
  · apply hs.waiting_once
  · intro j y h
    rw [Function.update_self] at h
    apply absurd h (hhas j y)
  · rw [Function.update_self, hpending]
    apply List.nodup_nil

/-- A coroutine enqueues itself for the mutex. -/
theorem Linked.enqueue (hs : Linked waiters cv_waiters stage) (hi : (stage i).passive = false) :
  Linked (waiters ++ [i]) cv_waiters (Function.update stage i .queued)
  := by
  have hne : ∀ j ∈ waiters, j ≠ i := by
    rintro j hj rfl
    apply ne_of_passive hi rfl (hs.queued j hj)
  apply hs.step hi
  · intro j hj
    left
    apply Function.update_of_ne hj
  · intro j hj
    obtain hj | hj := List.mem_append.mp hj
    · rw [Function.update_of_ne (hne j hj)]
      apply hs.queued j hj
    · rw [List.mem_singleton.mp hj, Function.update_self]
  · apply waiting_update hs.waiting
    · intro k
      apply ne_of_passive hi rfl
    · intro k h
      contradiction
  · rw [← List.concat_eq_append]
    apply List.Nodup.concat _ hs.queued_once
    intro h
    apply hne i h rfl
  · apply hs.waiting_once
  · intro j y h
    rw [Function.update_self] at h
    contradiction
  · rw [Function.update_self]
    apply List.nodup_nil

/-- A coroutine enqueues itself for a condition variable. -/
theorem Linked.enqueueCv [DecidableEq κ] {k : κ} (hs : Linked waiters cv_waiters stage)
    (hi : (stage i).passive = false) :
  Linked waiters (Function.update cv_waiters k (cv_waiters k ++ [i]))
    (Function.update stage i (.waiting k))
  := by
  have hnot : ∀ k', i ∉ cv_waiters k' := by
    intro k' h
    apply ne_of_passive hi rfl ((hs.waiting i k').mp h)
  apply hs.step hi
  · intro j hj
    left
    apply Function.update_of_ne hj
  · apply queued_update hs.queued
    apply ne_of_passive hi rfl
  · intro j k'
    by_cases hj : j = i
    · subst hj
      by_cases hk : k' = k
      · subst hk
        simp
      · have hk' : k ≠ k' := fun h => hk h.symm
        simp [hk, hk', hnot]
    · by_cases hk : k' = k
      · subst hk
        simp [hj, hs.waiting]
      · simp [hj, hk, hs.waiting]
  · apply hs.queued_once
  · intro k'
    by_cases hk : k' = k
    · subst hk
      rw [Function.update_self, ← List.concat_eq_append]
      apply List.Nodup.concat (hnot k') (hs.waiting_once k')
    · rw [Function.update_of_ne hk]
      apply hs.waiting_once
  · intro j y h
    rw [Function.update_self] at h
    contradiction
  · rw [Function.update_self]
    apply List.nodup_nil

/-- `unlock` takes the coroutine at the front of `waiters`. -/
theorem Linked.handOver {next : ι} {rest : List ι} {wait : Option κ}
    (hs : Linked (next :: rest) cv_waiters stage) (hi : (stage i).passive = false) :
  Linked rest cv_waiters
    (Function.update (Function.update stage next (.granted i)) i (.handing next wait))
  := by
  have hnext : stage next = .queued := hs.queued next List.mem_cons_self
  have hne : next ≠ i := by
    rintro rfl
    apply ne_of_passive hi rfl hnext
  obtain ⟨hfirst, hrest⟩ := List.nodup_cons.mp hs.queued_once
  apply hs.step hi
  · intro j hj
    rw [Function.update_of_ne hj]
    by_cases hj' : j = next
    · subst hj'
      right
      rw [Function.update_self, hnext]
      exact ⟨rfl, rfl, fun _ _ => id⟩
    · left
      apply Function.update_of_ne hj'
  · intro j hj
    have hj' : j ≠ next := by
      rintro rfl
      contradiction
    have hqueued := hs.queued j (List.mem_cons_of_mem next hj)
    have hji : j ≠ i := by
      rintro rfl
      apply ne_of_passive hi rfl hqueued
    rw [Function.update_of_ne hji, Function.update_of_ne hj', hqueued]
  · apply waiting_update
    · apply waiting_update hs.waiting
      · intro k h
        rw [hnext] at h
        contradiction
      · intro k h
        contradiction
    · intro k
      rw [Function.update_of_ne hne.symm]
      apply ne_of_passive hi rfl
    · intro k h
      contradiction
  · apply hrest
  · apply hs.waiting_once
  · intro j y h
    rw [Function.update_self] at h
    obtain ⟨rfl, rfl⟩ := h
    rw [Function.update_of_ne hne, Function.update_self]
  · rw [Function.update_self]
    apply List.nodup_nil

/-- A notification takes waiters of a condition variable. -/
theorem Linked.take [DecidableEq κ] {kind : Notify} {k : κ}
    (hs : Linked waiters cv_waiters stage) (hi : (stage i).passive = false) :
  Linked waiters (Function.update cv_waiters k (kind.leaves (cv_waiters k)))
    (Function.update (fun j => if j ∈ kind.takes (cv_waiters k) then .taken i else stage j) i
      (.notifying (kind.takes (cv_waiters k))))
  := by
  have htaken : ∀ j ∈ kind.takes (cv_waiters k), stage j = .waiting k := by
    intro j hj
    apply (hs.waiting j k).mp
    apply kind.mem_of_takes hj
  have hne : ∀ j ∈ kind.takes (cv_waiters k), j ≠ i := by
    rintro j hj rfl
    apply ne_of_passive hi rfl (htaken j hj)
  apply hs.step hi
  · intro j hj
    rw [Function.update_of_ne hj]
    split
    · rename_i htake
      right
      rw [htaken j htake]
      exact ⟨rfl, rfl, fun _ _ => id⟩
    · left
      rfl
  · intro j hj
    have hqueued := hs.queued j hj
    have hji : j ≠ i := by
      rintro rfl
      apply ne_of_passive hi rfl hqueued
    have hfree : j ∉ kind.takes (cv_waiters k) := by
      intro h
      rw [htaken j h] at hqueued
      contradiction
    rw [Function.update_of_ne hji, if_neg hfree, hqueued]
  · apply waiting_update
    · intro j k'
      have hmem := kind.mem_leaves_iff (hs.waiting_once k) (j := j)
      by_cases hk : k' = k
      · subst hk
        rw [Function.update_self, hmem, hs.waiting]
        split <;> simp [*]
      · rw [Function.update_of_ne hk, hs.waiting]
        split
        · rename_i htake
          rw [htaken j htake]
          constructor
          · intro h
            apply absurd (Stage.waiting.inj h).symm hk
          · intro h
            contradiction
        · rfl
    · intro k'
      have hfree : i ∉ kind.takes (cv_waiters k) := fun h => hne i h rfl
      rw [if_neg hfree]
      apply ne_of_passive hi rfl
    · intro k' h
      contradiction
  · apply hs.queued_once
  · intro k'
    by_cases hk : k' = k
    · subst hk
      rw [Function.update_self]
      apply kind.nodup_leaves (hs.waiting_once k')
    · rw [Function.update_of_ne hk]
      apply hs.waiting_once
  · intro j y h
    rw [Function.update_self] at h
    obtain ⟨hj, rfl⟩ := h
    rw [Function.update_of_ne (hne j hj), if_pos hj]
  · rw [Function.update_self]
    apply kind.nodup_takes (hs.waiting_once k)

/-- Coroutine `i` goes on with one of those it has taken, `w`, which it brings to another stage,
and keeps others. -/
theorem Linked.carryOn {w : ι} {x y : Stage ι κ} (hs : Linked waiters cv_waiters stage)
    (hi : (stage i).passive = false) (hw : (stage w).heldBy i = true)
    (hqueued : stage w ≠ .queued) (hwaiting : ∀ k, stage w ≠ .waiting k)
    (hy : y.pending = []) (hyqueued : y ≠ .queued) (hywaiting : ∀ k, y ≠ .waiting k)
    (hyhas : ∀ j z, ¬ y.Has w j z) (hx : x.passive = false)
    (hxhas : ∀ j z, x.Has i j z → (j = w ∧ z = y) ∨ (j ≠ w ∧ stage j = z))
    (hpending : x.pending.Nodup) :
  Linked waiters cv_waiters (Function.update (Function.update stage w y) i x)
  := by
  have hne : w ≠ i := by
    rintro rfl
    cases h : stage w <;> rw [h] at hi hw <;> contradiction
  apply hs.step hi
  · intro j hj
    rw [Function.update_of_ne hj]
    by_cases hj' : j = w
    · subst hj'
      right
      rw [Function.update_self]
      exact ⟨hw, hy, hyhas⟩
    · left
      apply Function.update_of_ne hj'
  · apply queued_update
    · apply queued_update hs.queued hqueued
    · rw [Function.update_of_ne hne.symm]
      apply ne_of_passive hi rfl
  · apply waiting_update
    · apply waiting_update hs.waiting hwaiting hywaiting
    · intro k
      rw [Function.update_of_ne hne.symm]
      apply ne_of_passive hi rfl
    · intro k
      apply ne_of_passive hx rfl
  · apply hs.queued_once
  · apply hs.waiting_once
  · intro j z h
    rw [Function.update_self] at h
    obtain ⟨rfl, rfl⟩ | ⟨hj, hz⟩ := hxhas j z h
    · rw [Function.update_of_ne hne, Function.update_self]
    · have hji : j ≠ i := by
        rintro rfl
        apply ne_of_passive hi h.passive hz
      rw [Function.update_of_ne hji, Function.update_of_ne hj, hz]
  · rw [Function.update_self]
    apply hpending

/-! ### The steps of the model -/

variable {s t : State ι κ}

/-- What a coroutine that does not run its own code does next. -/
inductive Effect [DecidableEq κ] (s : State ι κ) (i : ι) : State ι κ → Prop
  | resume (before : s.stage i = .acquired) : Effect s i (s.goTo i (.scheduled false))
  | resumeNext {next : ι} {wait : Option κ} (before : s.stage i = .handing next wait) :
      Effect s i (s.wake i (afterUnlock wait) next false)
  | enqueue {k : κ} (before : s.stage i = .releasing k) : Effect s i (s.enqueueCv i k)
  | take {kind : Notify} {k : κ} (before : s.stage i = .calling kind k) :
      Effect s i (s.take i kind k)
  | done (before : s.stage i = .notifying []) : Effect s i (s.goTo i .running)
  | give {w : ι} {ws : List ι} (before : s.stage i = .notifying (w :: ws)) :
      Effect s i (s.acquireForNotify i w ws)
  | resumeWaiter {w : ι} {ws : List ι} (before : s.stage i = .waking w ws) :
      Effect s i (s.wake i (.notifying ws) w true)
  | goOn {waited : Bool} (before : s.stage i = .scheduled waited) :
      Effect s i (s.goTo i .running)
  | spin : Effect s i s
  | acquire {waited : Bool} (before : s.stage i = .scheduled waited) (free : s.locked = false) :
      Effect s i ((s.acquire i).goTo i .running)

/-- Every such step has one of the effects. -/
theorem proceed_effect [DecidableEq κ] (h : proceed s i = some t) :
  Effect s i t
  := by
  cases hst : s.stage i with
  | running | queued | granted j | waiting k | taken j | notified j => simp [proceed, hst] at h
  | acquired =>
      simp only [proceed, hst, Option.some.injEq] at h
      subst h
      apply Effect.resume hst
  | handing next wait =>
      simp only [proceed, hst, Option.some.injEq] at h
      subst h
      apply Effect.resumeNext hst
  | releasing k =>
      simp only [proceed, hst, Option.some.injEq] at h
      subst h
      apply Effect.enqueue hst
  | calling kind k =>
      simp only [proceed, hst, Option.some.injEq] at h
      subst h
      apply Effect.take hst
  | notifying ws =>
      cases ws with
      | nil =>
          simp only [proceed, hst, Option.some.injEq] at h
          subst h
          apply Effect.done hst
      | cons w ws =>
          simp only [proceed, hst, Option.some.injEq] at h
          subst h
          apply Effect.give hst
  | waking w ws =>
      simp only [proceed, hst, Option.some.injEq] at h
      subst h
      apply Effect.resumeWaiter hst
  | scheduled waited =>
      simp only [proceed, hst] at h
      split at h
      · obtain rfl := Option.some.inj h
        apply Effect.goOn hst
      · split at h
        · obtain rfl := Option.some.inj h
          apply Effect.spin
        · rename_i hfree
          obtain rfl := Option.some.inj h
          apply Effect.acquire hst (Bool.eq_false_iff.mpr hfree)

/-- A notification gives the mutex to a waiter it has taken. -/
theorem State.Linked.give {w : ι} {ws : List ι} (hs : s.Linked)
    (h : s.stage i = .notifying (w :: ws)) :
  (s.acquireForNotify i w ws).Linked
  := by
  have hi : (s.stage i).passive = false := by rw [h]; rfl
  have honce := hs.pending_once i
  rw [h] at honce
  obtain ⟨hw, hws⟩ := List.nodup_cons.mp honce
  have htaken := hs.taken h List.mem_cons_self
  apply Sync.Linked.carryOn hs hi <;> try simp [htaken, Stage.heldBy, Stage.pending, Stage.Has,
    Stage.passive]
  · rintro j z (⟨rfl, rfl⟩ | ⟨hj, rfl⟩)
    · left
      exact ⟨rfl, rfl⟩
    · right
      constructor
      · rintro rfl
        contradiction
      · apply hs.taken h (List.mem_cons_of_mem w hj)
  · apply hws

/-- A notification resumes the waiter it has given the mutex. -/
theorem State.Linked.resumeWaiter {w : ι} {ws : List ι} (hs : s.Linked)
    (h : s.stage i = .waking w ws) :
  (s.wake i (.notifying ws) w true).Linked
  := by
  have hi : (s.stage i).passive = false := by rw [h]; rfl
  have honce := hs.pending_once i
  rw [h] at honce
  have hnotified := hs.notified h
  apply Sync.Linked.carryOn hs hi <;> try simp [hnotified, Stage.heldBy, Stage.pending, Stage.Has,
    Stage.passive]
  · intro j hj
    have htaken : s.stage j = .taken i := by
      apply hs.has i
      rw [h]
      exact .inr ⟨hj, rfl⟩
    constructor
    · rintro rfl
      rw [hnotified] at htaken
      contradiction
    · apply htaken
  · apply honce

theorem State.Linked.unlock (hs : s.Linked) (hi : (s.stage i).passive = false)
    (wait : Option κ) :
  (unlock s i wait).Linked
  := by
  unfold Sync.unlock
  split
  · apply Sync.Linked.goTo hs hi <;> cases wait <;> simp [afterUnlock, Stage.passive, Stage.pending,
      Stage.Has]
  · rename_i next rest hwaiters
    unfold State.Linked at hs
    rw [hwaiters] at hs
    apply Sync.Linked.handOver hs hi

theorem State.Linked.proceed [DecidableEq κ] (hs : s.Linked) (h : proceed s i = some t) :
  t.Linked
  := by
  cases proceed_effect h with
  | resume before | done before | goOn before | acquire before free =>
      have hi : (s.stage i).passive = false := by rw [before]; rfl
      apply Sync.Linked.goTo hs hi rfl rfl
      simp [Stage.Has]
  | @resumeNext next wait before =>
      have hi : (s.stage i).passive = false := by rw [before]; rfl
      apply Sync.Linked.carryOn hs hi <;>
        cases wait <;>
        simp [hs.granted before, Stage.heldBy, Stage.pending, Stage.Has, Stage.passive, afterUnlock]
  | enqueue before =>
      apply Sync.Linked.enqueueCv hs
      rw [before]
      rfl
  | take before =>
      apply Sync.Linked.take hs
      rw [before]
      rfl
  | give before => apply hs.give before
  | resumeWaiter before => apply hs.resumeWaiter before
  | spin => apply hs

/-- Every step keeps the lists and the stages in agreement. -/
theorem State.Linked.step [DecidableEq κ] {a : Label ι κ} (hs : s.Linked) (h : step s a = some t) :
  t.Linked
  := by
  cases a with
  | lock i =>
      simp only [Sync.step] at h
      split at h
      · rename_i hstage
        have hi : (s.stage i).passive = false := by rw [hstage]; rfl
        split at h
        · obtain rfl := Option.some.inj h
          apply Sync.Linked.enqueue hs hi
        · obtain rfl := Option.some.inj h
          apply Sync.Linked.goTo hs hi rfl rfl
          simp [Stage.Has]
      · contradiction
  | try_lock i =>
      simp only [Sync.step] at h
      split at h
      · split at h <;>
        · obtain rfl := Option.some.inj h
          apply hs
      · contradiction
  | unlock i =>
      simp only [Sync.step, Option.ite_none_right_eq_some, Option.some.injEq] at h
      obtain ⟨⟨hstage, -⟩, rfl⟩ := h
      apply hs.unlock
      rw [hstage]
      rfl
  | wait i k =>
      simp only [Sync.step, Option.ite_none_right_eq_some, Option.some.injEq] at h
      obtain ⟨⟨hstage, -⟩, rfl⟩ := h
      have hnew : (s.newAwaiter i).Linked := hs
      apply hnew.unlock
      rw [State.newAwaiter, hstage]
      rfl
  | notify i kind k =>
      simp only [Sync.step, Option.ite_none_right_eq_some, Option.some.injEq] at h
      obtain ⟨hstage, rfl⟩ := h
      apply Sync.Linked.goTo hs _ rfl rfl
      · simp [Stage.Has]
      · rw [hstage]
        rfl
  | proceed i =>
      apply hs.proceed h

end Koroutine.Sync
