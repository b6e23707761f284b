import Koroutine.Combinator.JoinAll
import Koroutine.Combinator.WhenAll

/-!
# The objects the wrappers of `join_all` and `when_all` use

`join_all` and `when_all` own the frames of their wrappers, which are destroyed with the vector
`wrappers` at the end of the scope.  The wrappers of `join_all` also use the local `mtx`, `cv`,
`remaining` and `exceptions`, which they reach through the closure of the lambda they are
instances of; those of `when_all` hold their arguments, a shared pointer to the state among them,
in their own frames.

The signal that lets the scope end is the last `fetch_sub`, and the wrapper that made it still has
steps to make.  The scope ends in time exactly when it is not left before these steps are made.
In the overload of `join_all` over a vector, moreover, the lambda is a local variable of the loop
that creates the wrappers, and no wrapper ever finds its closure alive.
-/

open Transition

namespace Koroutine

variable {V E : Type*} {n : ℕ}

namespace JoinAll

/-- The objects of the scope of `join_all` that its wrappers can use. -/
inductive Object (n : ℕ)
  | frame (i : Fin n)
  /-- The closure of the lambda that wrapper `i` is an instance of. -/
  | closure (i : Fin n)
  | mtx
  | cv
  | remaining
  | exceptions
  deriving DecidableEq

/-- The objects that are alive between two steps.  A frame lives from the creation of the wrapper
to the end of the scope.  The closure is shared in the variadic overload; in the overload over a
vector it ends with the iteration of the loop that creates the wrapper. -/
def Alive (ov : Overload) (s : State E n) : Object n → Prop
  | .frame i => s.wrappers i ≠ .unborn ∧ s.caller ≠ .left
  | .closure _ => ov = .variadic ∧ s.caller ≠ .left
  | .mtx | .cv | .remaining | .exceptions => s.caller ≠ .left

/-- The objects a wrapper, whose task has the outcome `r`, uses in its next step. -/
def Stage.uses (r : Except E V) (i : Fin n) : Stage → List (Object n)
  | .unborn | .created | .final => []
  | .queued | .awaiting | .finishing | .returned | .counted false => [.frame i]
  | .resumed => .frame i :: .closure i :: if r.isOk then [.remaining] else [.mtx]
  | .locked => [.frame i, .closure i, .exceptions]
  | .pushed => [.frame i, .closure i, .remaining]
  | .counted true => [.frame i, .closure i, .cv]
  | .notified => .frame i :: if r.isOk then [] else [.mtx]

/-- A wrapper in this stage reaches its captures by its next step. -/
def Stage.captures : Stage → Bool
  | .resumed | .locked | .pushed | .counted true => true
  | _ => false

/-- Once the scope is left every wrapper is suspended at its final suspend point. -/
def LeftFinal (s : State E n) : Prop :=
  s.caller = .left → ∀ i, s.wrappers i = .final

/-- A step keeps to the lifetimes: it leaves the scope only with the wrappers at their final suspend
points, and a wrapper that makes it uses live objects. -/
def InLifetime (ov : Overload) (outcomes : Fin n → Except E V) (s : State E n) (a : Label n)
    (t : State E n) : Prop :=
  LeftFinal t ∧
    ∀ i, a = .wrapper i → ∀ o ∈ (s.wrappers i).uses (outcomes i) i, Alive ov s o

/-- The caller does not leave the scope while a wrapper is between its `fetch_sub` and its final
suspend point; over a vector, no wrapper gets as far as its captures. -/
def LeavesLate (ov : Overload) (s : State E n) (a : Label n) : Prop :=
  (a = .caller → s.caller = .waiting .through →
    ∀ i, (s.wrappers i).uncounted = 0 → s.wrappers i = .final) ∧
  (ov = .vector → ∀ i, a = .wrapper i → (s.wrappers i).captures = false)

/-- The caller goes past the wait only when `remaining` is `0`. -/
def Waited (s : State E n) : Prop :=
  s.caller = .waiting .through → s.remaining = 0

/-- Every step preserves `Waited`. -/
theorem Waited.step {ov : Overload} {outcomes : Fin n → Except E V} {s t : State E n}
    {a : Label n} (hs : Waited s) (hv : Valid outcomes s) (h : step ov outcomes s a = some t) :
  Waited t
  := by
  unfold Waited at hs ⊢
  cases a with
  | caller =>
      cases callerStep_effect h with
      | move before own step =>
          intro hthrough
          simp only [State.move, Caller.waiting.injEq] at hthrough
          subst hthrough
          obtain ⟨-, -, -, hw⟩ | ⟨-, -, hp, -⟩ | ⟨-, -, -, hw⟩ | ⟨-, -, hw⟩ | ⟨-, -, hw⟩ :=
            Monitor.waiter_step_cases step
          · contradiction
          · apply of_decide_eq_true hp
          · contradiction
          · contradiction
          · contradiction
      | _ =>
          intro hthrough
          cases hthrough
  | spurious =>
      simp only [JoinAll.step] at h
      split at h
      · simp only [Option.some.injEq] at h
        subst h
        simp [State.goes]
      · contradiction
  | wrapper i =>
      cases wrapperStep_effect h with
      | quiet | lock | push | unlock => apply hs
      | decrement before uncounted =>
          subst before
          intro hthrough
          have hpos := (hv.inv.counting.pending (i := i) (by omega)).1
          have hzero := hs hthrough
          omega
      | notify before =>
          intro hthrough
          obtain ⟨w, hw, hnotify⟩ := State.notifyOne_caller hthrough
          have hzero : s.remaining = 0 := by
            apply hs
            rw [hw, Waiter.notify_eq_through.mp hnotify.symm]
          simpa [State.goto] using hzero

/-- What holds in a run that keeps to the lifetimes. -/
structure Tidy (outcomes : Fin n → Except E V) (s : State E n) : Prop where
  valid : Valid outcomes s
  waited : Waited s
  left : LeftFinal s

theorem Tidy.initial (outcomes : Fin n → Except E V) :
  Tidy outcomes (initial E n)
  := by
  constructor
  · apply Valid.initial
  · simp [Waited, JoinAll.initial]
  · simp [LeftFinal, JoinAll.initial]

/-- A wrapper that makes a step exists, and the scope has not been left. -/
theorem Tidy.wrapper {outcomes : Fin n → Except E V} {s t : State E n} {i : Fin n}
    (hs : Tidy outcomes s) (h : wrapperStep (outcomes i) s i = some t) :
  s.wrappers i ≠ .unborn ∧ s.caller ≠ .left
  := by
  constructor
  · intro hst
    simp [wrapperStep, hst] at h
  · intro hleft
    simp [wrapperStep, hs.left hleft i] at h

/-- A wrapper's objects are alive, its closure apart. -/
theorem Tidy.alive_iff (ov : Overload) {outcomes : Fin n → Except E V} {s t : State E n}
    {i : Fin n} (hs : Tidy outcomes s) (h : wrapperStep (outcomes i) s i = some t) :
  (∀ o ∈ (s.wrappers i).uses (outcomes i) i, Alive ov s o) ↔
    (ov = .vector → (s.wrappers i).captures = false)
  := by
  obtain ⟨hborn, hcaller⟩ := hs.wrapper h
  have hov : ov = .variadic ↔ ov ≠ .vector := by cases ov <;> simp
  cases hst : s.wrappers i with
  | unborn | created | final => simp [wrapperStep, hst] at h
  | counted last =>
      rw [hst] at hborn
      cases last <;> simp [Stage.uses, Stage.captures, Alive, hst, hcaller, hov]
  | queued | awaiting | resumed | locked | pushed | notified | finishing | returned =>
      rw [hst] at hborn
      cases hr : (outcomes i).isOk <;>
        simp [Stage.uses, Stage.captures, Alive, hst, hcaller, hov, hr]

/-- A wrapper does not make the caller leave. -/
theorem Tidy.wrapper_leftFinal {outcomes : Fin n → Except E V} {s t : State E n} {i : Fin n}
    (hs : Tidy outcomes s) (h : wrapperStep (outcomes i) s i = some t) :
  LeftFinal t
  := by
  intro hleft
  obtain ⟨-, hcaller⟩ := hs.wrapper h
  obtain ⟨-, -, -, hsame | hnotify⟩ := wrapperStep_frame h
  · rw [← hsame] at hcaller
    contradiction
  · rw [hnotify] at hleft
    unfold State.notifyOne at hleft
    split at hleft <;> contradiction

/-- The caller leaves in time exactly when no wrapper has steps left to make. -/
theorem Tidy.callerStep_iff {ov : Overload} {outcomes : Fin n → Except E V} {s t : State E n}
    (hs : Tidy outcomes s) (h : callerStep ov s = some t) :
  LeftFinal t ↔ (s.caller = .waiting .through →
    ∀ i, (s.wrappers i).uncounted = 0 → s.wrappers i = .final)
  := by
  cases callerStep_effect h with
  | empty before none =>
      subst none
      constructor
      · intro _ _ i
        apply i.elim0
      · intro _ _ i
        apply i.elim0
  | leave before =>
      have hcount := hs.valid.inv.counting
      rw [hs.waited before] at hcount
      constructor
      · intro hfinal _ i _
        apply hfinal rfl i
      · intro hfinal _ i
        apply hfinal before i (hcount.all_counted i)
  | move before own step =>
      constructor
      · intro _ hthrough
        rw [hthrough, Caller.waiting.injEq] at before
        subst before
        cases step
      · intro _ hleft
        cases hleft
  | enter before | build before | built before | start before | started before =>
      constructor
      · intro _ hthrough
        rw [hthrough] at before
        cases before
      · intro _ hleft
        cases hleft

/-- A step keeps to the lifetimes exactly when it does not leave the scope too early. -/
theorem Tidy.inLifetime_iff {ov : Overload} {outcomes : Fin n → Except E V} {s t : State E n}
    {a : Label n} (hs : Tidy outcomes s) (h : step ov outcomes s a = some t) :
  InLifetime ov outcomes s a t ↔ LeavesLate ov s a
  := by
  unfold InLifetime LeavesLate
  cases a with
  | wrapper i =>
      have halive := hs.alive_iff ov h
      have hleft := hs.wrapper_leftFinal h
      constructor
      · rintro ⟨-, huses⟩
        constructor
        · simp
        · intro hov j hj
          obtain rfl : i = j := by simpa using hj
          apply halive.mp (huses i rfl) hov
      · rintro ⟨-, hcaptures⟩
        use hleft
        intro j hj
        obtain rfl : i = j := by simpa using hj
        apply halive.mpr
        intro hov
        apply hcaptures hov i rfl
  | spurious =>
      simp only [step] at h
      split at h
      · simp only [Option.some.injEq] at h
        subst h
        simp [LeftFinal, State.goes]
      · contradiction
  | caller => simp [hs.callerStep_iff h]

/-- A step that keeps to the lifetimes preserves `Tidy`. -/
theorem Tidy.step {ov : Overload} {outcomes : Fin n → Except E V} {s t : State E n}
    {a : Label n} (hs : Tidy outcomes s) (ha : InLifetime ov outcomes s a t)
    (h : step ov outcomes s a = some t) :
  Tidy outcomes t
  := by
  constructor
  · apply hs.valid.step h
  · apply hs.waited.step hs.valid h
  · apply ha.1

/-- A call of `join_all` keeps to the lifetimes exactly when it does not leave the scope while a
wrapper is between its `fetch_sub` and its final suspend point, and, over a vector, no wrapper
gets as far as its captures. -/
theorem inLifetime_iff_leavesLate {ov : Overload} {outcomes : Fin n → Except E V} {t : State E n}
    {as : List (Label n)} :
  Run (JoinAll.step ov outcomes) (InLifetime ov outcomes) (JoinAll.initial E n) as t ↔
    Run (JoinAll.step ov outcomes) (Meets (LeavesLate ov)) (JoinAll.initial E n) as t
  := by
  apply Run.congr (Tidy outcomes) _ _ (Tidy.initial outcomes)
  · intro s a u hs ha e
    apply hs.step ha e
  · intro s a u hs e
    apply hs.inLifetime_iff e

end JoinAll

namespace WhenAll

/-- The frame of wrapper `i` is alive: it lives from the creation of the wrapper to the end of the
scope. -/
def FrameAlive (s : State V E n) (i : Fin n) : Prop :=
  s.wrappers i ≠ .unborn ∧ s.body ≠ .left

/-- Once the scope is left every wrapper is suspended at its final suspend point. -/
def LeftFinal (s : State V E n) : Prop :=
  s.body = .left → ∀ i, s.wrappers i = .final

/-- A step keeps to the lifetimes: it leaves the scope only with the wrappers at their final suspend
points, and a wrapper that makes it finds its own frame alive. -/
def InLifetime (s : State V E n) (a : Label n) (t : State V E n) : Prop :=
  LeftFinal t ∧ ∀ i, a = .wrapper i → FrameAlive s i

/-- The coroutine does not leave the scope while a wrapper is between its `fetch_sub` and its final
suspend point. -/
def LeavesLate (s : State V E n) (a : Label n) : Prop :=
  a = .body → s.body = .leaving → ∀ i, (s.wrappers i).uncounted = 0 → s.wrappers i = .final

/-- The coroutine is resumed, and goes on, only when `remaining` is `0`. -/
def Waited (s : State V E n) : Prop :=
  0 < s.queue ∨ s.suspend = .dispatching ∨ s.body = .resuming ∨ s.body = .leaving →
    s.remaining = 0

/-- A step of the body preserves `Waited`. -/
theorem Waited.bodyStep {ov : Overload} {s t : State V E n} (hs : Waited s) (hv : Valid s)
    (h : bodyStep ov s = some t) :
  Waited t
  := by
  unfold Waited at hs ⊢
  cases bodyStep_effect h with
  | empty before none =>
      subst none
      intro _
      simp [hv.counting.count]
  | enter before | build before | built before | start before | started before | leave before =>
      rintro (hq | hsus | hb | hb)
      · apply hs (.inl hq)
      · apply hs (.inr (.inl hsus))
      · cases hb
      · cases hb
  | pass before ready =>
      intro _
      apply ready
  | suspend before ready =>
      rintro (hq | hsus | hb | hb)
      · apply hs (.inl hq)
      · cases hsus
      · cases hb
      · cases hb
  | resume before =>
      intro _
      apply hs (.inr (.inr (.inl before)))

/-- Every step preserves `Waited`. -/
theorem Waited.step {ov : Overload} {outcomes : Fin n → Except E V} {s t : State V E n}
    {a : Label n} (hs : Waited s) (hv : Valid s) (h : step ov outcomes s a = some t) :
  Waited t
  := by
  cases a with
  | body => apply hs.bodyStep hv h
  | resume =>
      simp only [WhenAll.step, Option.ite_none_right_eq_some, Option.some.injEq] at h
      obtain ⟨⟨-, hq⟩, rfl⟩ := h
      intro _
      apply hs (.inl hq)
  | suspend =>
      cases hst : s.suspend with
      | uncalled | returned => simp [WhenAll.step, suspendStep, hst] at h
      | entered =>
          simp only [WhenAll.step, suspendStep, hst, Option.some.injEq] at h
          subst h
          rintro (hq | hsus | hb)
          · apply hs (.inl hq)
          · cases hsus
          · apply hs (.inr (.inr hb))
      | stored =>
          simp only [WhenAll.step, suspendStep, hst, Option.some.injEq] at h
          subst h
          rintro (hq | hsus | hb)
          · apply hs (.inl hq)
          · by_contra hr
            simp only [State.suspends] at hsus hr
            simp [hr] at hsus
          · apply hs (.inr (.inr hb))
      | dispatching =>
          simp only [WhenAll.step, suspendStep, hst, Option.some.injEq] at h
          subst h
          intro _
          apply hs (.inr (.inl hst))
  | wrapper i =>
      cases wrapperStep_effect h with
      | quiet before quiet =>
          unfold Waited
          rw [quiet.queue, quiet.suspend, quiet.body, quiet.remaining]
          apply hs
      | decrement before uncounted =>
          have hpos := (hv.counting.pending (i := i) (by omega)).1
          intro hr
          have hzero := hs hr
          omega
      | decide before => apply hs
      | dispatch before =>
          intro _
          apply hv.counting.zero_of_signal (i := i)
          rw [before]
          decide

/-- What holds in a run that keeps to the lifetimes. -/
structure Tidy (s : State V E n) : Prop where
  valid : Valid s
  waited : Waited s
  left : LeftFinal s

theorem Tidy.initial :
  Tidy (initial V E n)
  := by
  constructor
  · apply Valid.initial
  · simp [Waited, WhenAll.initial]
  · simp [LeftFinal, WhenAll.initial]

/-- The coroutine leaves in time exactly when no wrapper has steps left to make. -/
theorem Tidy.bodyStep_iff {ov : Overload} {s t : State V E n} (hs : Tidy s)
    (h : bodyStep ov s = some t) :
  LeftFinal t ↔ (s.body = .leaving → ∀ i, (s.wrappers i).uncounted = 0 → s.wrappers i = .final)
  := by
  cases bodyStep_effect h with
  | leave before =>
      have hcount := hs.valid.counting
      rw [hs.waited (.inr (.inr (.inr before)))] at hcount
      constructor
      · intro hfinal _ i _
        apply hfinal rfl i
      · intro hfinal _ i
        apply hfinal before i (hcount.all_counted i)
  | empty before | enter before | build before | built before | start before | started before
  | pass before | suspend before | resume before =>
      constructor
      · intro _ hleaving
        rw [hleaving] at before
        cases before
      · intro _ hleft
        cases hleft

/-- A wrapper does not move the coroutine. -/
theorem wrapperStep_body {ov : Overload} {r : Except E V} {s t : State V E n} {i : Fin n}
    (h : wrapperStep ov r s i = some t) :
  t.body = s.body
  := by
  cases wrapperStep_effect h with
  | quiet before quiet => apply quiet.body
  | decrement | decide | dispatch => rfl

/-- A step keeps to the lifetimes exactly when it does not leave the scope too early. -/
theorem Tidy.inLifetime_iff {ov : Overload} {outcomes : Fin n → Except E V} {s t : State V E n}
    {a : Label n} (hs : Tidy s) (h : step ov outcomes s a = some t) :
  InLifetime s a t ↔ LeavesLate s a
  := by
  unfold InLifetime LeavesLate
  cases a with
  | body => simp [hs.bodyStep_iff h]
  | wrapper i =>
      have hborn : s.wrappers i ≠ .unborn := by
        intro hst
        simp [step, wrapperStep, hst] at h
      have hbody : s.body ≠ .left := by
        intro hleft
        simp [step, wrapperStep, hs.left hleft i] at h
      have hsame : t.body = s.body := wrapperStep_body h
      simp [LeftFinal, FrameAlive, hsame, hborn, hbody]
  | suspend =>
      have hleft : LeftFinal t := by
        cases hst : s.suspend with
        | uncalled | returned => simp [step, suspendStep, hst] at h
        | entered | stored | dispatching =>
            simp only [step, suspendStep, hst, Option.some.injEq] at h
            subst h
            apply hs.left
      simp [hleft]
  | resume =>
      simp only [step, Option.ite_none_right_eq_some, Option.some.injEq] at h
      obtain ⟨-, rfl⟩ := h
      simp [LeftFinal]

/-- A step that keeps to the lifetimes preserves `Tidy`. -/
theorem Tidy.step {ov : Overload} {outcomes : Fin n → Except E V} {s t : State V E n}
    {a : Label n} (hs : Tidy s) (ha : InLifetime s a t) (h : step ov outcomes s a = some t) :
  Tidy t
  := by
  constructor
  · apply hs.valid.step h
  · apply hs.waited.step hs.valid h
  · apply ha.1

/-- A run of `when_all` keeps to the lifetimes exactly when it does not leave the scope while a
wrapper is between its `fetch_sub` and its final suspend point. -/
theorem inLifetime_iff_leavesLate {ov : Overload} {outcomes : Fin n → Except E V}
    {t : State V E n} {as : List (Label n)} :
  Run (WhenAll.step ov outcomes) InLifetime (WhenAll.initial V E n) as t ↔
    Run (WhenAll.step ov outcomes) (Meets LeavesLate) (WhenAll.initial V E n) as t
  := by
  apply Run.congr Tidy _ _ Tidy.initial
  · intro s a u hs ha e
    apply hs.step ha e
  · intro s a u hs e
    apply hs.inLifetime_iff e

end WhenAll

/-- Calls of `join_all` and `when_all` leave their scopes only with every wrapper at its final
suspend point, and their wrappers use live objects only, exactly when they are not left while a
wrapper is between its `fetch_sub` and its final suspend point, and no wrapper of `join_all` over a
vector gets as far as its captures. -/
theorem lifetimes_kept_iff_left_late {jov lov : Overload} {outcomes : Fin n → Except E V}
    {s : JoinAll.State E n} {t : WhenAll.State V E n} {as : List (JoinAll.Label n)}
    {bs : List (WhenAll.Label n)} :
  (Run (JoinAll.step jov outcomes) (JoinAll.InLifetime jov outcomes) (JoinAll.initial E n) as s ↔
    Run (JoinAll.step jov outcomes) (Meets (JoinAll.LeavesLate jov)) (JoinAll.initial E n) as s) ∧
  (Run (WhenAll.step lov outcomes) WhenAll.InLifetime (WhenAll.initial V E n) bs t ↔
    Run (WhenAll.step lov outcomes) (Meets WhenAll.LeavesLate) (WhenAll.initial V E n) bs t)
  := by
  constructor
  · apply JoinAll.inLifetime_iff_leavesLate
  · apply WhenAll.inLifetime_iff_leavesLate

/-! ### Runs -/

namespace JoinAll

instance (ov : Overload) (s : State E n) : DecidablePred (Alive ov s)
  | .frame _ => inferInstanceAs (Decidable (_ ∧ _))
  | .closure _ => inferInstanceAs (Decidable (_ ∧ _))
  | .mtx | .cv | .remaining | .exceptions => inferInstanceAs (Decidable (_ ≠ _))

instance (ov : Overload) (s : State E n) (a : Label n) : Decidable (LeavesLate ov s a) :=
  inferInstanceAs (Decidable (_ ∧ _))

end JoinAll

instance (s : WhenAll.State V E n) (a : WhenAll.Label n) : Decidable (WhenAll.LeavesLate s a) :=
  inferInstanceAs (Decidable (_ → _ → _))

/-- With two tasks whose wrappers go on to their final suspend points first, `join_all` and
`when_all` leave their scopes and keep to the lifetimes. -/
theorem lifetimes_kept_two :
  (∃ as s, Run (JoinAll.step .variadic ![.ok 7, .error "refused"])
    (JoinAll.InLifetime .variadic ![.ok 7, .error "refused"]) (JoinAll.initial String 2) as s ∧
    s.caller = .left) ∧
  ∃ bs t, Run (WhenAll.step .vector ![.ok 7, .error "refused"]) WhenAll.InLifetime
    (WhenAll.initial ℕ String 2) bs t ∧ t.body = .left
  := by
  obtain ⟨s, hjoin, hs⟩ : ∃ s, Run (JoinAll.step .variadic ![.ok 7, .error "refused"])
      (Meets (JoinAll.LeavesLate .variadic)) (JoinAll.initial String 2)
      (List.flatten [List.replicate 10 .caller, List.replicate 9 (.wrapper 1),
        List.replicate 7 (.wrapper 0), List.replicate 3 .caller]) s ∧ s.caller = .left := by
    apply exists_run_of_exec_guarded
    decide
  obtain ⟨t, hall, ht⟩ : ∃ t, Run (WhenAll.step .vector ![.ok 7, .error "refused"])
      (Meets WhenAll.LeavesLate) (WhenAll.initial ℕ String 2)
      (List.flatten [List.replicate 8 .body, List.replicate 2 .suspend,
        List.replicate 9 (.wrapper 1), List.replicate 10 (.wrapper 0), [.resume],
        List.replicate 2 .body]) t ∧
      t.body = .left := by
    apply exists_run_of_exec_guarded
    decide
  obtain ⟨hjoin_iff, hall_iff⟩ := lifetimes_kept_iff_left_late
  exact ⟨⟨_, s, hjoin_iff.mpr hjoin, hs⟩, ⟨_, t, hall_iff.mpr hall, ht⟩⟩

/-- With one task, `join_all` leaves its scope while the wrapper is about to notify the condition
variable: the wrapper is not at its final suspend point, and its next step uses objects that are
dead. -/
theorem left_early_one :
  ∃ as s, Run (JoinAll.step .variadic fun _ : Fin 1 => (.ok 7 : Except String ℕ)) Free
    (JoinAll.initial String 1) as s ∧ s.caller = .left ∧ s.wrappers 0 = .counted true ∧
    ∀ o ∈ (s.wrappers 0).uses (.ok 7 : Except String ℕ) 0, ¬ JoinAll.Alive .variadic s o
  := by
  use List.flatten [List.replicate 5 .caller, List.replicate 3 (.wrapper 0),
    List.replicate 3 .caller]
  apply exists_run_of_exec
  decide

end Koroutine
