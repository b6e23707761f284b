import Koroutine.Combinator.WhenAll

/-!
# Exceptions inside the wrappers of `when_all`

The body of a wrapper is one `try` block: it awaits the task, moves the value into the state,
decrements `remaining`, and schedules the continuation when it was the last.  The handler records
the exception, decrements `remaining`, and schedules the continuation when it was the last.

Besides the task, the move of the value and the call of `schedule` can throw.  In the `try` block
the exception leads to the handler; in the handler it leaves the wrapper, and is stored in its
promise. When `schedule` throws in the `try` block the handler decrements `remaining` a second time.
-/

open Transition

namespace Koroutine.WhenAll

namespace Throwing

variable {V E : Type*} {n : ℕ}

/-- The state of `when_all`, and what the wrappers have thrown in their `try` block after the task
gave a value.  How often a wrapper has decremented `remaining`, and the wrappers that have appended
to `exceptions`, are noted. -/
structure State (V E : Type*) (n : ℕ) where
  base : WhenAll.State V E n
  raised : Fin n → Option E
  decrements : Fin n → ℕ
  added : List (Fin n)

/-- A step without such an exception, or an exception of the move of wrapper `i`'s value, or of its
call of `schedule`. -/
inductive Label (E : Type*) (n : ℕ)
  | base (a : WhenAll.Label n)
  | move (i : Fin n) (e : E)
  | schedule (i : Fin n) (e : E)

/-- Before the coroutine is started. -/
def initial (V E : Type*) (n : ℕ) : State V E n where
  base := WhenAll.initial V E n
  raised := fun _ => none
  decrements := fun _ => 0
  added := []

/-- What the `try` block of wrapper `i` ends with: an exception it has thrown since, or the outcome
of the task. -/
def State.outcome (outcomes : Fin n → Except E V) (x : State V E n) (i : Fin n) : Except E V :=
  match x.raised i with
  | some e => .error e
  | none => outcomes i

/-- The notes after a step of the wrapper's. -/
def State.note (ov : Overload) (outcomes : Fin n → Except E V) (x : State V E n) :
    WhenAll.Label n → (Fin n → ℕ) × List (Fin n)
  | .wrapper i =>
      (if (x.base.wrappers i).decrements ov (x.outcome outcomes i) then
          Function.update x.decrements i (x.decrements i + 1)
        else x.decrements,
        if x.base.wrappers i = .locked ∧ (x.outcome outcomes i).isOk = false then x.added ++ [i]
        else x.added)
  | _ => (x.decrements, x.added)

/-- The exception unlocks the mutex, if it is held, and is caught by the handler. -/
def State.throws (x : State V E n) (i : Fin n) (held : Bool) (e : E) : State V E n :=
  { x with
    base := if held then x.base.unlock i .resumed else x.base.goto i .resumed
    raised := Function.update x.raised i (some e) }

/-- The step function. -/
def step (ov : Overload) (outcomes : Fin n → Except E V) (x : State V E n) :
    Label E n → Option (State V E n)
  | .base a =>
      match WhenAll.step ov (x.outcome outcomes) x.base a with
      | none => none
      | some t =>
          some { x with
            base := t
            decrements := (x.note ov outcomes a).1
            added := (x.note ov outcomes a).2 }
  | .move i e =>
      if (x.outcome outcomes i).isOk then
        match x.base.wrappers i with
        | .awaiting => some (x.throws i false e)
        | .locked => some (x.throws i true e)
        | _ => none
      else none
  | .schedule i e =>
      match x.base.wrappers i with
      | .dispatching =>
          if (x.outcome outcomes i).isOk then
            some (x.throws i (!unlocksFirst ov (x.outcome outcomes i)) e)
          else some { x with base := x.base.unlock i .finishing }
      | _ => none

/-- `remaining` is the number of wrappers that have not decremented it, no wrapper has decremented
it twice, and only wrappers of failed tasks have appended to `exceptions`. -/
structure Accounts (outcomes : Fin n → Except E V) (x : State V E n) : Prop where
  remaining : x.base.remaining = (Finset.univ.filter fun i => x.decrements i = 0).card
  once : ∀ i, x.decrements i ≤ 1
  blameless : ∀ i ∈ x.added, ∃ e, outcomes i = .error e

/-- `schedule` does not throw in a `try` block. -/
def Schedules (outcomes : Fin n → Except E V) (x : State V E n) : Label E n → Prop
  | .schedule i _ => (x.outcome outcomes i).isOk = false
  | _ => True

/-- Neither does a move. -/
def Spared (outcomes : Fin n → Except E V) (x : State V E n) : Label E n → Prop
  | .base _ => True
  | .move _ _ => False
  | .schedule i _ => (x.outcome outcomes i).isOk = false

/-! ### The invariant -/

/-- What holds while `schedule` does not throw in a `try` block. -/
structure Sound (outcomes : Fin n → Except E V) (x : State V E n) : Prop where
  valid : Valid x.base
  once : ∀ i, x.decrements i + (x.base.wrappers i).uncounted = 1
  added : ∀ i ∈ x.added, (∃ e, outcomes i = .error e) ∨ x.raised i ≠ none

variable {ov : Overload} {outcomes : Fin n → Except E V} {x y : State V E n} {i : Fin n}

theorem Sound.initial :
  Sound outcomes (initial V E n)
  := by
  constructor
  · apply Valid.initial
  · intro i
    rfl
  · intro i hi
    contradiction

/-- The `try` block of a wrapper has ended with an exception when its task has, or a step since. -/
theorem State.thrown (h : (x.outcome outcomes i).isOk = false) :
  (∃ e, outcomes i = .error e) ∨ x.raised i ≠ none
  := by
  rw [State.outcome] at h
  cases hraised : x.raised i with
  | some e =>
      right
      simp
  | none =>
      left
      rw [hraised] at h
      cases hout : outcomes i with
      | ok v =>
          rw [hout] at h
          contradiction
      | error e => exact ⟨e, rfl⟩

/-- A step of a wrapper without an exception keeps the account of every wrapper. -/
theorem Sound.wrapper_once {t : WhenAll.State V E n} (hx : Sound outcomes x)
    (h : wrapperStep ov (x.outcome outcomes i) x.base i = some t) (j : Fin n) :
  (x.note ov outcomes (.wrapper i)).1 j + (t.wrappers j).uncounted = 1
  := by
  have hj := hx.once j
  cases wrapperStep_effect h with
  | quiet before quiet =>
      rw [quiet.wrappers]
      simp only [State.note, before, Bool.false_eq_true, if_false]
      by_cases hji : j = i
      · subst hji
        rw [Function.update_self, quiet.uncounted, hj]
      · rw [Function.update_of_ne hji, hj]
  | decrement before uncounted =>
      simp only [State.note, before, if_true, WhenAll.State.decrement]
      by_cases hji : j = i
      · subst hji
        simp only [Function.update_self, Stage.uncounted]
        omega
      · rw [Function.update_of_ne hji, Function.update_of_ne hji, hj]
  | decide before =>
      simp only [State.note, before, Stage.decrements, Bool.false_eq_true, if_false,
        WhenAll.State.goto]
      by_cases hji : j = i
      · subst hji
        rw [before] at hj
        rw [Function.update_self]
        split <;> apply hj
      · rw [Function.update_of_ne hji, hj]
  | dispatch before =>
      simp only [State.note, before, Stage.decrements, Bool.false_eq_true, if_false,
        WhenAll.State.dispatch]
      by_cases hji : j = i
      · subst hji
        rw [before] at hj
        rw [Function.update_self]
        apply hj
      · rw [Function.update_of_ne hji, hj]

/-- A step that is not one of a wrapper decrements nothing. -/
theorem uncounted_step {outcomes : Fin n → Except E V} {s t : WhenAll.State V E n}
    {a : WhenAll.Label n} (hv : Valid s) (ha : ∀ i, a ≠ .wrapper i)
    (h : WhenAll.step ov outcomes s a = some t) (j : Fin n) :
  (t.wrappers j).uncounted = (s.wrappers j).uncounted
  := by
  cases a with
  | wrapper i => exact absurd rfl (ha i)
  | suspend =>
      cases hst : s.suspend with
      | uncalled | returned => simp [WhenAll.step, suspendStep, hst] at h
      | entered | stored | dispatching =>
          simp only [WhenAll.step, suspendStep, hst, Option.some.injEq] at h
          subst h
          rfl
  | resume =>
      simp only [WhenAll.step, Option.ite_none_right_eq_some, Option.some.injEq] at h
      obtain ⟨-, rfl⟩ := h
      rfl
  | body =>
      have hfresh := hv.fresh
      cases bodyStep_effect h with
      | @build k before hk =>
          rw [before] at hfresh
          by_cases hj : j = ⟨k, hk⟩
          · subst hj
            simp [WhenAll.State.goto, WhenAll.State.goes, hfresh.unmade ⟨k, hk⟩ le_rfl,
              Stage.uncounted]
          · simp [WhenAll.State.goto, WhenAll.State.goes, hj]
      | @start k before hk =>
          rw [before] at hfresh
          by_cases hj : j = ⟨k, hk⟩
          · subst hj
            simp [WhenAll.State.goto, WhenAll.State.goes, hfresh.unstarted ⟨k, hk⟩ hk le_rfl,
              Stage.uncounted]
          · simp [WhenAll.State.goto, WhenAll.State.goes, hj]
      | _ => rfl

/-- A step without an exception preserves `Sound`. -/
theorem Sound.base {a : WhenAll.Label n} (hx : Sound outcomes x)
    (h : step ov outcomes x (.base a) = some y) :
  Sound outcomes y
  := by
  simp only [Throwing.step] at h
  split at h
  · contradiction
  · rename_i t ht
    obtain rfl := Option.some.inj h
    constructor
    · apply hx.valid.step ht
    · intro j
      cases a with
      | wrapper i => apply hx.wrapper_once ht
      | body | suspend | resume =>
          have hsame : (t.wrappers j).uncounted = _ := uncounted_step hx.valid (by simp) ht j
          simp only [State.note, hsame]
          apply hx.once
    · intro j hj
      cases a with
      | wrapper i =>
          simp only [State.note] at hj
          split at hj
          · rename_i hlocked
            obtain hj | hj := List.mem_append.mp hj
            · apply hx.added j hj
            · obtain rfl := List.mem_singleton.mp hj
              apply State.thrown hlocked.2
          · apply hx.added j hj
      | body | suspend | resume => apply hx.added j hj

/-- A move that throws leads to the handler, before the wrapper has decremented `remaining`. -/
theorem Sound.throws {held : Bool} {e : E} (hx : Sound outcomes x)
    (hi : x.base.wrappers i = .awaiting ∨ x.base.wrappers i = .locked) :
  Sound outcomes (x.throws i held e)
  := by
  have hwrappers : (x.throws i held e).base.wrappers =
      Function.update x.base.wrappers i .resumed := by
    cases held <;> rfl
  constructor
  · have hquiet : Quiet x.base (x.throws i held e).base i .resumed := by
      constructor
      · apply hwrappers
      · cases held <;> rfl
      · cases held <;> rfl
      · cases held <;> rfl
      · cases held <;> rfl
      · cases held <;> rfl
      · cases held <;> rfl
      · obtain hi | hi := hi <;> rw [hi] <;> rfl
      · obtain hi | hi := hi <;> rw [hi] <;> rfl
      · obtain hi | hi := hi <;> rw [hi] <;> rfl
    apply hx.valid.quiet hquiet <;> obtain hi | hi := hi <;> simp [hi]
  · intro j
    have hj := hx.once j
    rw [hwrappers]
    by_cases hji : j = i
    · subst hji
      rw [Function.update_self]
      obtain hi | hi := hi <;> rw [hi] at hj <;> apply hj
    · rw [Function.update_of_ne hji]
      apply hj
  · intro j hj
    obtain hfailed | hraised := hx.added j hj
    · left
      apply hfailed
    · right
      by_cases hji : j = i
      · subst hji
        simp [State.throws]
      · simpa [State.throws, hji] using hraised

/-- A call of `schedule` that throws in the handler ends the wrapper. -/
theorem Sound.escape (hx : Sound outcomes x) (hi : x.base.wrappers i = .dispatching) :
  Sound outcomes { x with base := x.base.unlock i .finishing }
  := by
  obtain ⟨⟨hcounting, hfresh, hregistered, huncalled⟩, honce, hadded⟩ := hx
  constructor
  · constructor
    · apply hcounting.update
      · rw [hi]
        rfl
      · rw [hi]
        decide
    · apply hfresh.update <;> simp [hi]
    · apply hregistered
    · apply huncalled
  · intro j
    have hj := honce j
    by_cases hji : j = i
    · subst hji
      rw [hi] at hj
      simpa [WhenAll.State.unlock, Stage.uncounted] using hj
    · simpa [WhenAll.State.unlock, hji] using hj
  · apply hadded

/-- A step in which `schedule` does not throw in a `try` block preserves `Sound`. -/
theorem Sound.step {a : Label E n} (hx : Sound outcomes x) (ha : Schedules outcomes x a)
    (h : step ov outcomes x a = some y) :
  Sound outcomes y
  := by
  cases a with
  | base a => apply hx.base h
  | move i e =>
      simp only [Throwing.step] at h
      split at h
      · split at h
        · rename_i hi
          obtain rfl := Option.some.inj h
          apply hx.throws (Or.inl hi)
        · rename_i hi
          obtain rfl := Option.some.inj h
          apply hx.throws (Or.inr hi)
        · contradiction
      · contradiction
  | schedule i e =>
      simp only [Throwing.step] at h
      split at h
      · rename_i hi
        rw [if_neg (by simpa [Schedules] using ha)] at h
        obtain rfl := Option.some.inj h
        apply hx.escape hi
      · contradiction

/-- Where `schedule` does not throw in a `try` block the counter is right, and a wrapper that has
appended to `exceptions` had an exception of its task or of a move. -/
theorem sound_of_run {as : List (Label E n)}
    (h : Run (step ov outcomes) (Meets (Schedules outcomes)) (initial V E n) as x) :
  Sound outcomes x
  := by
  apply h.invariant (Sound outcomes) _ Sound.initial
  intro s a t hs ha hstep
  apply hs.step ha hstep

theorem Sound.remaining (hx : Sound outcomes x) :
  x.base.remaining = (Finset.univ.filter fun i => x.decrements i = 0).card
  := by
  rw [hx.valid.counting.count, Finset.card_filter]
  apply Finset.sum_congr rfl
  intro i _
  have hi := hx.once i
  split <;> omega

/-- A step in which no move throws. -/
theorem raised_step {a : Label E n} (hx : ∀ i, x.raised i = none) (ha : Spared outcomes x a)
    (h : step ov outcomes x a = some y) (i : Fin n) :
  y.raised i = none
  := by
  cases a with
  | base a =>
      simp only [step] at h
      split at h
      · contradiction
      · obtain rfl := Option.some.inj h
        apply hx
  | move j e => exact ha.elim
  | schedule j e =>
      simp only [step] at h
      split at h
      · rw [if_neg (by simpa [Spared] using ha)] at h
        obtain rfl := Option.some.inj h
        apply hx
      · contradiction

/-- In every run in which neither the move of a value nor a call of `schedule` in a `try` block
throws the wrappers account for themselves, whatever their tasks and the calls of `schedule` in
handlers throw. -/
theorem accounts_of_spared {as : List (Label E n)}
    (h : Run (step ov outcomes) (Meets (Spared outcomes)) (initial V E n) as x) :
  Accounts outcomes x
  := by
  have hsound : Sound outcomes x := by
    apply sound_of_run
    apply h.mono
    intro s a t ha
    cases a with
    | base a | move i e => trivial
    | schedule i e => apply ha
  have hraised : ∀ i, x.raised i = none := by
    apply h.invariant fun x => ∀ i, x.raised i = none
    · intro s a t hs ha hstep
      apply raised_step hs ha hstep
    · intro i
      rfl
  constructor
  · apply hsound.remaining
  · intro i
    have hi := hsound.once i
    omega
  · intro i hi
    obtain hfailed | hne := hsound.added i hi
    · apply hfailed
    · exact absurd (hraised i) hne

instance (x : State V E n) : (a : Label E n) → Decidable (Spared outcomes x a)
  | .base _ => isTrue trivial
  | .move _ _ => isFalse id
  | .schedule i _ => inferInstanceAs (Decidable ((x.outcome outcomes i).isOk = false))

/-- The last of two tasks fails, and `schedule` throws in the handler of its wrapper. -/
theorem accounts_of_last_failing :
  ∃ as x, Run (step .vector ![.ok 1, .error "refused"]) (Meets (Spared ![.ok 1, .error "refused"]))
      (initial ℕ String 2) as x ∧
    x.base.remaining = 0 ∧ x.added = [1] ∧ x.base.wrappers = ![.final, .finishing] ∧
    Accounts ![.ok 1, .error "refused"] x
  := by
  let base (k : ℕ) (a : WhenAll.Label 2) : List (Label String 2) := List.replicate k (.base a)
  obtain ⟨x, hrun, hremaining, hadded, hwrappers⟩ : ∃ x,
      Run (step .vector ![.ok 1, .error "refused"]) (Meets (Spared ![.ok 1, .error "refused"]))
        (initial ℕ String 2)
        (List.flatten [base 8 .body, base 2 .suspend, base 9 (.wrapper 0), base 6 (.wrapper 1),
          [.schedule 1 "stopped"]]) x ∧
      x.base.remaining = 0 ∧ x.added = [1] ∧ x.base.wrappers = ![.final, .finishing] := by
    apply exists_run_of_exec_guarded
    decide
  exact ⟨_, x, hrun, hremaining, hadded, hwrappers, accounts_of_spared hrun⟩

/-- The only task gives its value, and `schedule` throws: the handler decrements the counter again,
which wraps, and adds an exception of a task that had none. -/
theorem wraps_when_schedule_throws :
  ∃ as x, Run (step .variadic fun _ : Fin 1 => (.ok 5 : Except String ℕ)) Free
      (initial ℕ String 1) as x ∧
    x.base.remaining = 2 ^ 64 - 1 ∧ x.decrements 0 = 2 ∧ x.base.exceptions = ["stopped"] ∧
    ¬ Accounts (fun _ => .ok 5) x
  := by
  let base (k : ℕ) (a : WhenAll.Label 1) : List (Label String 1) := List.replicate k (.base a)
  obtain ⟨x, hrun, hremaining, hdecrements, hexceptions⟩ : ∃ x,
      Run (step .variadic fun _ : Fin 1 => (.ok 5 : Except String ℕ)) Free (initial ℕ String 1)
        (List.flatten [base 6 .body, base 2 .suspend, base 7 (.wrapper 0),
          [.schedule 0 "stopped"], base 3 (.wrapper 0)]) x ∧
      x.base.remaining = 2 ^ 64 - 1 ∧ x.decrements 0 = 2 ∧ x.base.exceptions = ["stopped"] := by
    apply exists_run_of_exec
    decide
  refine ⟨_, x, hrun, hremaining, hdecrements, hexceptions, ?_⟩
  intro haccounts
  have hone := haccounts.once 0
  omega

end Throwing

end Koroutine.WhenAll
