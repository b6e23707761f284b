import Koroutine.Sync.Linked

/-!
# Coroutines destroyed while they wait

The destructors of `LockAwaiter` and `WaitAwaiter` remove the awaiter from the list of waiters.  A
coroutine that `unlock` or a notification has taken from the list is in no list any more: when it is
destroyed before it resumes, what it was given stays with it.

A coroutine may be destroyed at any point between the `co_await` of `lock` or `wait` and its
resumption.  A destroyed coroutine makes no step, except that a thread that is inside the
`after_suspend` of its awaiter goes on; the others treat its awaiter as before.
-/

open Transition

namespace Koroutine.Sync

namespace Destroying

variable {ι κ : Type*}

/-- The mutex, the condition variables and the coroutines, with those that are not destroyed. -/
structure State (ι κ : Type*) where
  base : Sync.State ι κ
  alive : ι → Bool

/-- A step as before, or the destruction of a coroutine. -/
inductive Event (ι κ : Type*)
  | step (a : Label ι κ)
  | destroy (i : ι)
  deriving DecidableEq

/-- The coroutine has called `co_await` on a `LockAwaiter` or a `WaitAwaiter` and has not resumed.
-/
def awaits : Stage ι κ → Bool
  | .acquired | .queued | .granted _ | .handing _ (some _) | .releasing _ | .waiting _ | .taken _
  | .notified _ | .scheduled _ => true
  | .running | .handing _ none | .calling _ _ | .notifying _ | .waking _ _ => false

/-- A thread is inside `after_suspend` of its awaiter, and goes on by itself. -/
def suspending : Stage ι κ → Bool
  | .acquired | .handing _ (some _) | .releasing _ => true
  | _ => false

/-- The coroutine that makes a step. -/
def actor : Label ι κ → ι
  | .lock i | .try_lock i | .unlock i | .wait i _ | .notify i _ _ | .proceed i => i

/-- All coroutines run, and the mutex is free. -/
def initial (ι κ : Type*) : State ι κ where
  base := Sync.initial ι κ
  alive := fun _ => true

/-- A live coroutine owns the mutex, or has been given it and will resume as its owner. -/
def State.Owned (x : State ι κ) : Prop := ∃ i, x.alive i = true ∧ x.base.owns i = true

/-- The mutex is not left locked. -/
def State.Heeded (x : State ι κ) : Prop := x.base.locked = true → x.Owned

/-- A coroutine that is destroyed leaves the mutex free or to another owner that lives, and where a
notification gives the mutex to a waiter, that one or another owner lives. -/
def Spares (x : State ι κ) : Event ι κ → Prop
  | .destroy i =>
      x.base.locked = true → ∃ j, j ≠ i ∧ x.alive j = true ∧ x.base.owns j = true
  | .step (.proceed i) =>
      ∀ w ws, x.base.stage i = .notifying (w :: ws) → x.alive w = true ∨ x.Owned
  | .step _ => True

/-- The mutex is not left locked, and no destroyed coroutine waits for it. -/
structure Good (x : State ι κ) : Prop where
  heeded : x.Heeded
  waiters : ∀ i ∈ x.base.waiters, x.alive i = true

variable {x y : State ι κ} {i : ι}

theorem Good.initial :
  Good (initial ι κ)
  := by
  constructor
  · intro h
    contradiction
  · intro i hi
    contradiction

/-- A step that changes neither the mutex nor its owners, and adds no waiter. -/
theorem Good.congr {t : Sync.State ι κ} (hx : Good x) (hlocked : t.locked = x.base.locked)
    (howns : t.owns = x.base.owns) (hwaiters : t.waiters = x.base.waiters) :
  Good { x with base := t }
  := by
  constructor
  · intro h
    rw [State.Owned]
    simp only [howns]
    apply hx.heeded
    rw [← hlocked]
    apply h
  · intro j hj
    apply hx.waiters j
    rw [← hwaiters]
    apply hj

variable [DecidableEq ι]

/-- The frame is destroyed, and the destructor of the awaiter removes it from the lists. -/
def State.destroy (x : State ι κ) (i : ι) : State ι κ where
  base := { x.base with
    waiters := x.base.waiters.filter fun j => j ≠ i
    cv_waiters := fun k => (x.base.cv_waiters k).filter fun j => j ≠ i }
  alive := Function.update x.alive i false

/-! ### The invariant -/

/-- A live coroutine takes the mutex. -/
theorem Good.acquire {t : Sync.State ι κ} (hx : Good x) (hi : x.alive i = true)
    (howns : t.owns = Function.update x.base.owns i true) (hwaiters : t.waiters = x.base.waiters) :
  Good { x with base := t }
  := by
  constructor
  · intro _
    refine ⟨i, hi, ?_⟩
    simp [howns]
  · intro j hj
    apply hx.waiters j
    rw [← hwaiters]
    apply hj

/-- `unlock` frees the mutex, or gives it to a waiter, which lives. -/
theorem Good.unlock (hx : Good x) (wait : Option κ) :
  Good { x with base := Sync.unlock x.base i wait }
  := by
  rw [Sync.unlock]
  cases hwaiters : x.base.waiters with
  | nil =>
      constructor
      · intro h
        contradiction
      · intro j hj
        apply hx.waiters j hj
  | cons next waiters =>
      have hnext : x.alive next = true := by
        apply hx.waiters next
        rw [hwaiters]
        exact List.mem_cons_self
      constructor
      · intro _
        refine ⟨next, hnext, ?_⟩
        simp [Sync.State.handOver]
      · intro j hj
        apply hx.waiters j
        rw [hwaiters]
        apply List.mem_cons_of_mem next hj

/-- The destructor of a waiter. -/
theorem Good.destroy (hx : Good x) (ha : Spares x (.destroy i)) :
  Good (x.destroy i)
  := by
  constructor
  · intro h
    obtain ⟨j, hji, hj, howns⟩ := ha h
    refine ⟨j, ?_, howns⟩
    simpa [State.destroy, hji] using hj
  · intro j hj
    obtain ⟨hj, hji⟩ := List.mem_filter.mp hj
    have hne : j ≠ i := by simpa using hji
    simpa [State.destroy, hne] using hx.waiters j hj

/-! ### The steps -/

variable [DecidableEq κ]

/-- The step function. -/
def step (x : State ι κ) : Event ι κ → Option (State ι κ)
  | .step a =>
      if x.alive (actor a) ∨ suspending (x.base.stage (actor a)) then
        match Sync.step x.base a with
        | none => none
        | some t => some { x with base := t }
      else none
  | .destroy i => if x.alive i ∧ awaits (x.base.stage i) then some (x.destroy i) else none

/-- What a coroutine does that does not run its own code. -/
theorem Good.proceed {t : Sync.State ι κ} (hx : Good x)
    (halive : x.alive i = true ∨ suspending (x.base.stage i) = true)
    (ha : Spares x (.step (.proceed i))) (h : Sync.proceed x.base i = some t) :
  Good { x with base := t }
  := by
  cases proceed_effect h with
  | resume | resumeNext | enqueue | take | done | resumeWaiter | goOn =>
      refine hx.congr rfl rfl rfl
  | spin => apply hx
  | acquire before free =>
      have hi : x.alive i = true := by
        rw [before] at halive
        simpa [suspending] using halive
      refine hx.acquire hi rfl rfl
  | @give w ws before =>
      constructor
      · intro _
        obtain hw | ⟨j, hj, howns⟩ := ha w ws before
        · refine ⟨w, hw, ?_⟩
          simp [Sync.State.acquireForNotify]
        · refine ⟨j, hj, ?_⟩
          by_cases hjw : j = w
          · simp [Sync.State.acquireForNotify, hjw]
          · simpa [Sync.State.acquireForNotify, hjw] using howns
      · apply hx.waiters

omit [DecidableEq ι] [DecidableEq κ] in
/-- A coroutine that runs its own code makes a step only while it lives. -/
theorem alive_of_running (hstage : x.base.stage i = .running)
    (halive : x.alive i = true ∨ suspending (x.base.stage i) = true) :
  x.alive i = true
  := by
  rw [hstage] at halive
  simpa [suspending] using halive

/-- A step that meets the condition preserves `Good`. -/
theorem Good.step {e : Event ι κ} (hx : Good x) (ha : Spares x e)
    (h : step x e = some y) :
  Good y
  := by
  cases e with
  | destroy i =>
      simp only [Destroying.step, Option.ite_none_right_eq_some, Option.some.injEq] at h
      obtain ⟨-, rfl⟩ := h
      apply hx.destroy ha
  | step a =>
      simp only [Destroying.step, Option.ite_none_right_eq_some] at h
      obtain ⟨halive, h⟩ := h
      split at h
      · contradiction
      · rename_i t ht
        obtain rfl := Option.some.inj h
        cases a with
        | proceed i => apply hx.proceed halive ha ht
        | lock i =>
            simp only [Sync.step] at ht
            split at ht
            · rename_i hstage
              have hi := alive_of_running hstage halive
              split at ht
              · obtain rfl := Option.some.inj ht
                constructor
                · apply hx.heeded
                · intro j hj
                  obtain hj | hj := List.mem_append.mp hj
                  · apply hx.waiters j hj
                  · obtain rfl := List.mem_singleton.mp hj
                    apply hi
              · obtain rfl := Option.some.inj ht
                refine hx.acquire hi rfl rfl
            · contradiction
        | try_lock i =>
            simp only [Sync.step] at ht
            split at ht
            · rename_i hstage
              have hi := alive_of_running hstage halive
              split at ht
              · obtain rfl := Option.some.inj ht
                apply hx
              · obtain rfl := Option.some.inj ht
                refine hx.acquire hi rfl rfl
            · contradiction
        | unlock i =>
            simp only [Sync.step, Option.ite_none_right_eq_some, Option.some.injEq] at ht
            obtain ⟨-, rfl⟩ := ht
            apply hx.unlock
        | wait i k =>
            simp only [Sync.step, Option.ite_none_right_eq_some, Option.some.injEq] at ht
            obtain ⟨-, rfl⟩ := ht
            have hnew : Good { x with base := x.base.newAwaiter i } := hx.congr rfl rfl rfl
            apply hnew.unlock
        | notify i kind k =>
            simp only [Sync.step, Option.ite_none_right_eq_some, Option.some.injEq] at ht
            obtain ⟨-, rfl⟩ := ht
            refine hx.congr rfl rfl rfl

/-- A step that does not meet the condition leaves the mutex locked, without an owner that lives. -/
theorem not_heeded_of_abandon {e : Event ι κ} (ha : ¬ Spares x e) (h : step x e = some y) :
  ¬ y.Heeded
  := by
  cases e with
  | destroy i =>
      simp only [Spares, not_forall] at ha
      obtain ⟨hlocked, hnone⟩ := ha
      simp only [Destroying.step, Option.ite_none_right_eq_some, Option.some.injEq] at h
      obtain ⟨-, rfl⟩ := h
      intro hheeded
      obtain ⟨j, hj, howns⟩ := hheeded hlocked
      have hji : j ≠ i := by
        rintro rfl
        simp [State.destroy] at hj
      apply hnone
      refine ⟨j, hji, ?_, howns⟩
      simpa [State.destroy, hji] using hj
  | step a =>
      cases a with
      | lock i | try_lock i | unlock i | wait i k | notify i kind k => exact absurd trivial ha
      | proceed i =>
          simp only [Spares, not_forall] at ha
          obtain ⟨w, ws, hstage, hdead⟩ := ha
          obtain ⟨hw, hnone⟩ := not_or.mp hdead
          simp only [Destroying.step, Option.ite_none_right_eq_some, Sync.step, Sync.proceed, actor,
            hstage, Option.some.injEq] at h
          obtain ⟨-, rfl⟩ := h
          intro hheeded
          obtain ⟨j, hj, howns⟩ := hheeded rfl
          have hjw : j ≠ w := by
            rintro rfl
            contradiction
          apply hnone
          refine ⟨j, hj, ?_⟩
          simpa [Sync.State.acquireForNotify, hjw] using howns

/-- A run never leaves the mutex locked without an owner that lives or will resume as its owner
exactly when no step of it destroys the last such owner, or gives the mutex to a destroyed waiter
while there is none. -/
theorem heeded_iff_spares {es : List (Event ι κ)} :
  Run step (Visits State.Heeded) (initial ι κ) es x ↔ Run step (Meets Spares) (initial ι κ) es x
  := by
  apply Run.visits_iff_meets Good _ _ _ Good.initial
  · intro s e t hs ha h
    apply hs.step ha h
  · intro s hs
    apply hs.heeded
  · intro s e t _ ha h
    apply not_heeded_of_abandon ha h

/-- Coroutine `1` waits for the mutex, is given it by `unlock`, and is destroyed before it resumes.
-/
theorem left_locked :
  ∃ es x, Run step Free (initial (Fin 2) (Fin 1)) es x ∧
    x.base.locked = true ∧ x.base.waiters = [] ∧ x.base.stage 0 = .running ∧
    x.base.owns 0 = false ∧ x.alive 1 = false ∧ ¬ x.Heeded
  := by
  obtain ⟨x, hrun, hlocked, hwaiters, hstage, howns, halive⟩ : ∃ x,
      Run step Free (initial (Fin 2) (Fin 1))
        [.step (.lock 0), .step (.proceed 0), .step (.proceed 0), .step (.lock 1),
          .step (.unlock 0), .step (.proceed 0), .destroy 1] x ∧
      x.base.locked = true ∧ x.base.waiters = [] ∧ x.base.stage 0 = .running ∧
      x.base.owns 0 = false ∧ x.alive 1 = false := by
    apply exists_run_of_exec
    decide
  refine ⟨_, x, hrun, hlocked, hwaiters, hstage, howns, halive, ?_⟩
  intro hheeded
  obtain ⟨i, hi, howner⟩ := hheeded hlocked
  obtain rfl | rfl : i = 0 ∨ i = 1 := by omega
  · rw [howns] at howner
    contradiction
  · rw [halive] at hi
    contradiction

end Destroying

end Koroutine.Sync
