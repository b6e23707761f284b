import Koroutine.Transition.Run
import Mathlib.Data.List.Nodup
import Mathlib.Data.List.Range
import Mathlib.Data.Nat.Notation
import Mathlib.Logic.Function.Basic

/-!
# Callbacks that call the token

`cancel` runs the callbacks, and `on_cancel` runs its callback where the token is cancelled, while
they hold the mutex.  A callback is code of its own, which may call `cancel` and `on_cancel` on the
same token, with further callbacks.  A thread that holds the mutex and calls either of them waits
for itself.

Registrations are numbered in the order of their `on_cancel` calls.
-/

open Transition

namespace Koroutine

namespace Reentering

/-- What a thread or a callback has still to do with the token before it returns or throws. -/
inductive Code
  | done
  | throw
  | cancel (next : Code)
  | on_cancel (callback next : Code)
  deriving DecidableEq

/-- The next step of the code is a call that locks the mutex. -/
def Code.calls : Code → Bool
  | .cancel _ | .on_cancel _ _ => true
  | .done | .throw => false

/-- A part of the stack of a thread. -/
inductive Frame
  /-- Code of the thread or of a callback.  At a call of `cancel` or `on_cancel` it is about to lock
  the mutex. -/
  | code (code : Code)
  /-- In `cancel`, with the mutex locked. -/
  | cancelling
  /-- In `on_cancel`, with the mutex locked. -/
  | registering (callback : Code)
  /-- In the loop of `cancel`, with these callbacks still to call. -/
  | notifying (todo : List (ℕ × Code))
  /-- At the end of a call. -/
  | unlocking
  deriving DecidableEq

/-- The token, the stacks of the threads, how many callbacks have been registered, and which of them
have been called. -/
structure State where
  cancelled : Bool
  mtx : Option ℕ
  callbacks : List (ℕ × Code)
  stack : ℕ → List Frame
  registered : ℕ
  ran : List ℕ

/-- A new token, and threads with their code. -/
def initial (code : ℕ → Code) : State where
  cancelled := false
  mtx := none
  callbacks := []
  stack := fun c => [.code (code c)]
  registered := 0
  ran := []

namespace State

/-- The thread goes on with another stack. -/
def goTo (s : State) (c : ℕ) (stack : List Frame) : State :=
  { s with stack := Function.update s.stack c stack }

/-- The thread locks the mutex. -/
def lock (s : State) (c : ℕ) (stack : List Frame) : State :=
  { s.goTo c stack with mtx := some c }

/-- The thread unlocks the mutex. -/
def unlock (s : State) (c : ℕ) (stack : List Frame) : State :=
  { s.goTo c stack with mtx := none }

end State

/-- `on_cancel`, holding the mutex. -/
def onCancel (s : State) (c : ℕ) (callback : Code) (rest : List Frame) : State :=
  if s.cancelled then
    { s.goTo c (.code callback :: .unlocking :: rest) with
      registered := s.registered + 1, ran := s.ran ++ [s.registered] }
  else
    { s.goTo c (.unlocking :: rest) with
      registered := s.registered + 1, callbacks := s.callbacks ++ [(s.registered, callback)] }

/-- `cancel`, holding the mutex. -/
def cancel (s : State) (c : ℕ) (rest : List Frame) : State :=
  if s.cancelled then s.goTo c (.unlocking :: rest)
  else { s.goTo c (.notifying s.callbacks :: rest) with cancelled := true }

/-- Whether an exception leaves a call that has locked the mutex, and the stack it leaves: it is
caught in the loop of `cancel`. -/
def unwind : List Frame → Bool × List Frame
  | [] => (false, [])
  | .notifying todo :: rest => (false, .notifying todo :: rest)
  | .unlocking :: rest => (true, (unwind rest).2)
  | _ :: rest => unwind rest

/-- The next step of thread `c`. -/
def step (s : State) (c : ℕ) : Option State :=
  match s.stack c with
  | [] => none
  | .code .done :: rest => some (s.goTo c rest)
  | .code .throw :: rest =>
      some (if (unwind rest).1 then s.unlock c (unwind rest).2 else s.goTo c (unwind rest).2)
  | .code (.cancel next) :: rest =>
      if s.mtx = none then some (s.lock c (.cancelling :: .code next :: rest)) else none
  | .code (.on_cancel callback next) :: rest =>
      if s.mtx = none then some (s.lock c (.registering callback :: .code next :: rest)) else none
  | .cancelling :: rest => some (cancel s c rest)
  | .registering callback :: rest => some (onCancel s c callback rest)
  | .notifying ((n, callback) :: todo) :: rest =>
      some { s.goTo c (.code callback :: .notifying todo :: rest) with ran := s.ran ++ [n] }
  | .notifying [] :: rest => some { s.goTo c (.unlocking :: rest) with callbacks := [] }
  | .unlocking :: rest => some (s.unlock c rest)

/-- How many steps the thread that holds the mutex makes before it unlocks it, at most. -/
def work (s : State) (c : ℕ) : ℕ :=
  match s.stack c with
  | .cancelling :: _ => 2 * s.callbacks.length + 3
  | .registering _ :: _ => 3
  | .notifying todo :: _ => 2 * todo.length + 2
  | .code _ :: .notifying todo :: _ => 2 * todo.length + 3
  | .code _ :: .unlocking :: _ => 2
  | .unlocking :: _ => 1
  | _ => 0

/-- No thread waits for itself, each that holds the mutex comes nearer to unlocking it, and
callbacks run at most once, all of them if the token has been cancelled. -/
structure Safe (s : State) : Prop where
  never_waits : ∀ c code rest, s.mtx = some c → s.stack c = .code code :: rest → code.calls = false
  goes_on : ∀ c, s.mtx = some c → ∃ t, step s c = some t ∧ (t.mtx = none ∨ work t c < work s c)
  once : s.ran.Nodup
  all : s.mtx = none → s.ran = if s.cancelled then List.range s.registered else []

/-- A callback that is called does not begin with a call that locks the mutex. -/
def Plain (s : State) (c : ℕ) : Prop :=
  match s.stack c with
  | .notifying ((_, callback) :: _) :: _ => callback.calls = false
  | .registering callback :: _ => s.cancelled = true → callback.calls = false
  | _ => True

/-! ### The invariant -/

/-- No call is being made: either all callbacks have run, or none. -/
def State.Resting (s : State) : Prop :=
  if s.cancelled then s.callbacks = [] ∧ s.ran = List.range s.registered
  else s.ran = [] ∧ s.callbacks.map Prod.fst = List.range s.registered

/-- In the loop of `cancel`. -/
def State.Notifies (s : State) (todo : List (ℕ × Code)) : Prop :=
  s.cancelled = true ∧ s.ran ++ todo.map Prod.fst = List.range s.registered

/-- The stack of the thread that holds the mutex. -/
inductive Holding (s : State) : List Frame → Prop
  | cancelling {next : Code} (resting : s.Resting) : Holding s [.cancelling, .code next]
  | registering {callback next : Code} (resting : s.Resting) :
      Holding s [.registering callback, .code next]
  | unlocking {next : Code} (resting : s.Resting) : Holding s [.unlocking, .code next]
  | notifying {todo : List (ℕ × Code)} {next : Code} (notifies : s.Notifies todo) :
      Holding s [.notifying todo, .code next]
  | called {callback next : Code} {todo : List (ℕ × Code)} (plain : callback.calls = false)
      (notifies : s.Notifies todo) : Holding s [.code callback, .notifying todo, .code next]
  | invoked {callback next : Code} (plain : callback.calls = false) (resting : s.Resting) :
      Holding s [.code callback, .unlocking, .code next]

/-- The stack of another thread. -/
def Outside (stack : List Frame) : Prop := stack = [] ∨ ∃ code, stack = [.code code]

/-- Callbacks are called by the thread that holds the mutex, and do not call the token. -/
structure Good (s : State) : Prop where
  holder : ∀ c, s.mtx = some c → Holding s (s.stack c)
  others : ∀ c, s.mtx ≠ some c → Outside (s.stack c)
  resting : s.mtx = none → s.Resting

variable {s t : State} {c : ℕ}

theorem Good.initial (code : ℕ → Code) :
  Good (initial code)
  := by
  constructor
  · intro c h
    contradiction
  · intro c _
    right
    exact ⟨code c, rfl⟩
  · intro _
    exact ⟨rfl, rfl⟩

/-- The thread that holds the mutex goes on holding it. -/
theorem Good.hold {stack : List Frame} (hs : Good s) (hmtx : s.mtx = some c)
    (ht : t.stack = Function.update s.stack c stack) (htmtx : t.mtx = some c)
    (hholding : Holding t stack) :
  Good t
  := by
  constructor
  · intro c' hc'
    obtain rfl : c = c' := Option.some.inj (htmtx.symm.trans hc')
    rw [ht, Function.update_self]
    apply hholding
  · intro c' hc'
    have hne : c' ≠ c := by
      rintro rfl
      contradiction
    rw [ht, Function.update_of_ne hne]
    apply hs.others
    rw [hmtx]
    rw [htmtx] at hc'
    apply hc'
  · intro hnone
    rw [htmtx] at hnone
    contradiction

/-- The thread that holds the mutex unlocks it. -/
theorem Good.release {stack : List Frame} (hs : Good s) (hmtx : s.mtx = some c)
    (hresting : s.Resting) (hstack : Outside stack) :
  Good (s.unlock c stack)
  := by
  constructor
  · intro c' hc'
    contradiction
  · intro c' _
    by_cases hne : c' = c
    · subst hne
      simpa [State.unlock, State.goTo] using hstack
    · have hother : s.mtx ≠ some c' := by
        rw [hmtx]
        intro heq
        apply hne (Option.some.inj heq).symm
      simpa [State.unlock, State.goTo, hne] using hs.others c' hother
  · intro _
    apply hresting

/-- A thread that does not hold the mutex goes on without it. -/
theorem Good.stay {stack : List Frame} (hs : Good s) (hmtx : s.mtx ≠ some c)
    (hstack : Outside stack) :
  Good (s.goTo c stack)
  := by
  constructor
  · intro c' hc'
    have hne : c' ≠ c := by
      rintro rfl
      contradiction
    have hholder := hs.holder c' hc'
    have hstack' : (s.goTo c stack).stack c' = s.stack c' := Function.update_of_ne hne _ _
    rw [hstack']
    cases h : s.stack c' <;> rw [h] at hholder <;> cases hholder <;> constructor <;> assumption
  · intro c' hc'
    by_cases hne : c' = c
    · subst hne
      simpa [State.goTo] using hstack
    · simpa [State.goTo, hne] using hs.others c' hc'
  · intro hnone
    apply hs.resting hnone

/-- A thread locks the mutex. -/
theorem Good.lock {stack : List Frame} (hs : Good s) (hmtx : s.mtx = none)
    (hholding : Holding (s.lock c stack) stack) :
  Good (s.lock c stack)
  := by
  constructor
  · intro c' hc'
    obtain rfl : c = c' := Option.some.inj hc'
    simpa [State.lock, State.goTo] using hholding
  · intro c' hc'
    have hne : c' ≠ c := by
      rintro rfl
      apply hc' rfl
    have hother : s.mtx ≠ some c' := by simp [hmtx]
    simpa [State.lock, State.goTo, hne] using hs.others c' hother
  · intro hnone
    contradiction

/-- A step of the thread that holds the mutex. -/
theorem Good.holder_step (hs : Good s) (hmtx : s.mtx = some c) (hc : Plain s c)
    (h : step s c = some t) :
  Good t
  := by
  have hholding := hs.holder c hmtx
  generalize hst : s.stack c = stack at hholding
  cases hholding with
  | @cancelling next resting =>
      simp only [step, hst, Option.some.injEq] at h
      subst h
      simp only [cancel]
      split
      · refine hs.hold hmtx rfl hmtx ?_
        exact Holding.unlocking resting
      · rename_i hcancelled
        rw [State.Resting, if_neg hcancelled] at resting
        refine hs.hold hmtx rfl hmtx ?_
        apply Holding.notifying
        constructor
        · rfl
        · simpa [State.goTo, resting.1] using resting.2
  | @registering callback next resting =>
      simp only [step, hst, Option.some.injEq] at h
      subst h
      simp only [onCancel]
      split
      · rename_i hcancelled
        simp only [Plain, hst] at hc
        rw [State.Resting, if_pos hcancelled] at resting
        refine hs.hold hmtx rfl hmtx ?_
        apply Holding.invoked (hc hcancelled)
        simp [State.Resting, State.goTo, hcancelled, resting.1, resting.2, List.range_succ]
      · rename_i hcancelled
        rw [State.Resting, if_neg hcancelled] at resting
        refine hs.hold hmtx rfl hmtx ?_
        apply Holding.unlocking
        simp [State.Resting, State.goTo, hcancelled, resting.1, resting.2, List.range_succ]
  | @unlocking next resting =>
      simp only [step, hst, Option.some.injEq] at h
      subst h
      apply hs.release hmtx resting
      right
      exact ⟨next, rfl⟩
  | @notifying todo next notifies =>
      obtain ⟨hcancelled, hrest⟩ := notifies
      cases todo with
      | nil =>
          simp only [step, hst, Option.some.injEq] at h
          subst h
          refine hs.hold hmtx rfl hmtx ?_
          apply Holding.unlocking
          simpa [State.Resting, State.goTo, hcancelled] using hrest
      | cons entry todo =>
          obtain ⟨n, callback⟩ := entry
          simp only [step, hst, Option.some.injEq] at h
          subst h
          simp only [Plain, hst] at hc
          refine hs.hold hmtx rfl hmtx ?_
          apply Holding.called hc
          constructor
          · apply hcancelled
          · simpa [State.goTo] using hrest
  | @called callback next todo plain notifies =>
      cases callback with
      | cancel next' | on_cancel callback' next' => contradiction
      | done | throw =>
          simp only [step, hst, unwind, Bool.false_eq_true, if_false, Option.some.injEq] at h
          subst h
          refine hs.hold hmtx rfl hmtx ?_
          exact Holding.notifying notifies
  | @invoked callback next plain resting =>
      cases callback with
      | cancel next' | on_cancel callback' next' => contradiction
      | done =>
          simp only [step, hst, Option.some.injEq] at h
          subst h
          refine hs.hold hmtx rfl hmtx ?_
          exact Holding.unlocking resting
      | throw =>
          simp only [step, hst, unwind, if_true, Option.some.injEq] at h
          subst h
          apply hs.release hmtx resting
          left
          rfl

/-- A step of a thread that does not hold the mutex. -/
theorem Good.other_step (hs : Good s) (hmtx : s.mtx ≠ some c) (h : step s c = some t) :
  Good t
  := by
  obtain hst | ⟨code, hst⟩ := hs.others c hmtx
  · simp [step, hst] at h
  · cases code with
    | done | throw =>
        simp only [step, hst, unwind, Bool.false_eq_true, if_false, Option.some.injEq] at h
        subst h
        apply hs.stay hmtx
        left
        rfl
    | cancel next =>
        simp only [step, hst, Option.ite_none_right_eq_some, Option.some.injEq] at h
        obtain ⟨hfree, rfl⟩ := h
        apply hs.lock hfree
        exact Holding.cancelling (hs.resting hfree)
    | on_cancel callback next =>
        simp only [step, hst, Option.ite_none_right_eq_some, Option.some.injEq] at h
        obtain ⟨hfree, rfl⟩ := h
        apply hs.lock hfree
        exact Holding.registering (hs.resting hfree)

/-- Every step that meets the condition preserves `Good`. -/
theorem Good.step (hs : Good s) (hc : Plain s c) (h : step s c = some t) :
  Good t
  := by
  by_cases hmtx : s.mtx = some c
  · apply hs.holder_step hmtx hc h
  · apply hs.other_step hmtx h

/-! ### What is safe -/

/-- The thread that holds the mutex comes nearer to unlocking it. -/
theorem Good.goes_on (hs : Good s) (hmtx : s.mtx = some c) :
  ∃ t, Reentering.step s c = some t ∧ (t.mtx = none ∨ work t c < work s c)
  := by
  have hholding := hs.holder c hmtx
  generalize hst : s.stack c = stack at hholding
  cases hholding with
  | cancelling resting =>
      refine ⟨_, by simp only [Reentering.step, hst]; rfl, ?_⟩
      right
      simp only [cancel]
      split <;> simp [work, State.goTo, hst]
  | registering resting =>
      refine ⟨_, by simp only [Reentering.step, hst]; rfl, ?_⟩
      right
      simp only [onCancel]
      split <;> simp [work, State.goTo, hst]
  | unlocking resting =>
      refine ⟨_, by simp only [Reentering.step, hst]; rfl, ?_⟩
      left
      rfl
  | @notifying todo next notifies =>
      cases todo with
      | nil =>
          refine ⟨_, by simp only [Reentering.step, hst]; rfl, ?_⟩
          right
          simp [work, State.goTo, hst]
      | cons entry todo =>
          refine ⟨_, by simp only [Reentering.step, hst]; rfl, ?_⟩
          right
          simp [work, State.goTo, hst]
          omega
  | @called callback next todo plain notifies =>
      cases callback with
      | cancel next' | on_cancel callback' next' => contradiction
      | done | throw =>
          refine ⟨_, by simp only [Reentering.step, hst]; rfl, ?_⟩
          right
          simp [work, State.goTo, hst, unwind]
  | @invoked callback next plain resting =>
      cases callback with
      | cancel next' | on_cancel callback' next' => contradiction
      | done =>
          refine ⟨_, by simp only [Reentering.step, hst]; rfl, ?_⟩
          right
          simp [work, State.goTo, hst]
      | throw =>
          refine ⟨_, by simp only [Reentering.step, hst]; rfl, ?_⟩
          left
          rfl

/-- The callbacks that have been called are different. -/
theorem Good.once (hs : Good s) :
  s.ran.Nodup
  := by
  have hresting : s.Resting → s.ran.Nodup := by
    intro hresting
    rw [State.Resting] at hresting
    split at hresting
    · rw [hresting.2]
      apply List.nodup_range
    · rw [hresting.1]
      apply List.nodup_nil
  have hnotifies : ∀ {todo}, s.Notifies todo → s.ran.Nodup := by
    intro todo hnotifies
    have hnodup : (s.ran ++ todo.map Prod.fst).Nodup := by
      rw [hnotifies.2]
      apply List.nodup_range
    apply List.Nodup.of_append_left hnodup
  cases hmtx : s.mtx with
  | none => apply hresting (hs.resting hmtx)
  | some c =>
      have hholding := hs.holder c hmtx
      generalize s.stack c = stack at hholding
      cases hholding with
      | cancelling resting | registering resting | unlocking resting => apply hresting resting
      | invoked plain resting => apply hresting resting
      | notifying notifies => apply hnotifies notifies
      | called plain notifies => apply hnotifies notifies

theorem Good.safe (hs : Good s) :
  Safe s
  := by
  constructor
  · intro c code rest hmtx hst
    have hholding := hs.holder c hmtx
    rw [hst] at hholding
    cases hholding with
    | called plain notifies => apply plain
    | invoked plain resting => apply plain
  · intro c hmtx
    apply hs.goes_on hmtx
  · apply hs.once
  · intro hnone
    have hresting := hs.resting hnone
    rw [State.Resting] at hresting
    split at hresting
    · rename_i hcancelled
      rw [hcancelled, hresting.2]
      rfl
    · rename_i hcancelled
      rw [hresting.1, if_neg hcancelled]

/-! ### A thread that waits for itself -/

/-- The stacks while thread `c` waits for itself. -/
structure Blocked (c : ℕ) (s : State) : Prop where
  holds : s.mtx = some c
  waits : ∃ code rest, s.stack c = .code code :: rest ∧ code.calls = true
  others : ∀ c', c' ≠ c → Outside (s.stack c')

/-- A thread that waits for itself makes no step. -/
theorem Blocked.stuck (hs : Blocked c s) :
  step s c = none
  := by
  obtain ⟨code, rest, hst, hcalls⟩ := hs.waits
  cases code with
  | done | throw => contradiction
  | cancel next | on_cancel callback next => simp [step, hst, hs.holds]

/-- A callback that calls the token waits for the mutex its thread holds. -/
theorem Good.blocked (hs : Good s) (hc : ¬ Plain s c) (h : Reentering.step s c = some t) :
  Blocked c t
  := by
  have hmtx : s.mtx = some c := by
    by_contra hmtx
    obtain hst | ⟨code, hst⟩ := hs.others c hmtx <;> simp [Plain, hst] at hc
  have hothers : ∀ c', c' ≠ c → Outside (s.stack c') := by
    intro c' hne
    apply hs.others
    rw [hmtx]
    intro heq
    apply hne (Option.some.inj heq).symm
  have hholding := hs.holder c hmtx
  generalize hst : s.stack c = stack at hholding
  cases hholding with
  | cancelling resting | unlocking resting => simp [Plain, hst] at hc
  | called plain notifies | invoked plain resting => simp [Plain, hst] at hc
  | @registering callback next resting =>
      simp only [Plain, hst, Classical.not_imp] at hc
      simp only [Reentering.step, hst, Option.some.injEq, onCancel, if_pos hc.1] at h
      subst h
      constructor
      · apply hmtx
      · exact ⟨callback, _, Function.update_self .., by simpa using hc.2⟩
      · intro c' hne
        simpa [State.goTo, hne] using hothers c' hne
  | @notifying todo next notifies =>
      cases todo with
      | nil => simp [Plain, hst] at hc
      | cons entry todo =>
          obtain ⟨n, callback⟩ := entry
          simp only [Plain, hst] at hc
          simp only [Reentering.step, hst, Option.some.injEq] at h
          subst h
          constructor
          · apply hmtx
          · exact ⟨callback, _, Function.update_self .., by simpa using hc⟩
          · intro c' hne
            simpa [State.goTo, hne] using hothers c' hne

theorem Blocked.not_safe (hs : Blocked c s) :
  ¬ Safe s
  := by
  intro hsafe
  obtain ⟨t, ht, -⟩ := hsafe.goes_on c hs.holds
  rw [hs.stuck] at ht
  contradiction

/-- The others do not unlock the mutex. -/
theorem Blocked.step {c' : ℕ} (hs : Blocked c s) (h : step s c' = some t) :
  Blocked c t ∧ t.ran = s.ran
  := by
  have hne : c' ≠ c := by
    rintro rfl
    rw [hs.stuck] at h
    contradiction
  obtain hst | ⟨code, hst⟩ := hs.others c' hne
  · simp [Reentering.step, hst] at h
  · cases code with
    | cancel next | on_cancel callback next => simp [Reentering.step, hst, hs.holds] at h
    | done | throw =>
        simp only [Reentering.step, hst, unwind, Bool.false_eq_true, if_false,
          Option.some.injEq] at h
        subst h
        constructor
        · constructor
          · apply hs.holds
          · obtain ⟨code, rest, hc, hcalls⟩ := hs.waits
            refine ⟨code, rest, ?_, hcalls⟩
            simpa [State.goTo, hne.symm] using hc
          · intro c'' hc''
            by_cases heq : c'' = c'
            · subst heq
              left
              apply Function.update_self
            · simpa [State.goTo, heq] using hs.others c'' hc''
        · rfl

/-! ### The results -/

/-- Once a callback calls the token, the mutex stays locked and no callback is called any more. -/
theorem blocked_of_calling {u : State} {cs : List ℕ} (hs : Good s) (hc : ¬ Plain s c)
    (h : step s c = some t) (hrun : Run step Free t cs u) :
  Blocked c u ∧ u.ran = t.ran
  := by
  apply hrun.invariant (fun u => Blocked c u ∧ u.ran = t.ran) _ ⟨hs.blocked hc h, rfl⟩
  intro v c' w hv _ hstep
  obtain ⟨hw, hran⟩ := hv.1.step hstep
  exact ⟨hw, hran.trans hv.2⟩

/-- In a run no thread waits for itself, and every callback runs once, exactly when no callback that
is called begins with a call of `cancel` or `on_cancel`. -/
theorem safe_iff_plain {code : ℕ → Code} {cs : List ℕ} :
  Run step (Visits Safe) (initial code) cs s ↔ Run step (Meets Plain) (initial code) cs s
  := by
  apply Run.visits_iff_meets Good _ _ _ (Good.initial code)
  · intro s c t hs hc h
    apply hs.step hc h
  · intro s hs
    apply hs.safe
  · intro s c t hs hc h
    apply (hs.blocked hc h).not_safe

/-- A callback that calls `cancel` is registered, and another one after it; `cancel` is called, and
the first callback waits for the mutex. -/
theorem never_safe_again :
  ∃ cs s, Run step Free
      (initial fun _ => .on_cancel (.cancel .done) (.on_cancel .done (.cancel .done))) cs s ∧
    s.mtx = some 0 ∧ s.ran = [0] ∧ s.registered = 2 ∧ step s 0 = none ∧ ¬ Safe s
  := by
  obtain ⟨s, hrun, hmtx, hran, hregistered, hstuck⟩ : ∃ s, Run step Free
      (initial fun _ => .on_cancel (.cancel .done) (.on_cancel .done (.cancel .done)))
      (List.replicate 9 0) s ∧
      s.mtx = some 0 ∧ s.ran = [0] ∧ s.registered = 2 ∧ (step s 0).isNone := by
    apply exists_run_of_exec
    decide
  have hnone : step s 0 = none := Option.isNone_iff_eq_none.mp hstuck
  refine ⟨_, s, hrun, hmtx, hran, hregistered, hnone, ?_⟩
  intro hsafe
  obtain ⟨t, ht, -⟩ := hsafe.goes_on 0 hmtx
  rw [hnone] at ht
  contradiction

end Reentering

end Koroutine
