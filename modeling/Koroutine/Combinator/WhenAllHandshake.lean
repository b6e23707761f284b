import Koroutine.Combinator.WhenAll

/-!
# The handshake of `when_all`'s wrappers with `await_suspend`

The wrapper whose `fetch_sub` completes the tasks is the finisher of a handshake, the coroutine
of `when_all` the awaiter.
-/

open Transition

namespace Koroutine.WhenAll

variable {V E : Type*} {n : ℕ}

/-- How many wrappers are between the last `fetch_sub` and the reading of the continuation. -/
def State.deciders (s : State V E n) : ℕ := ∑ i, (s.wrappers i).deciding

/-- How many wrappers are about to schedule the continuation. -/
def State.dispatchers (s : State V E n) : ℕ := ∑ i, (s.wrappers i).dispatches

/-- The wrappers, as a finisher, and the coroutine, as an awaiter. -/
def handshake (s : State V E n) : Handshake :=
  registration (s.remaining = 0) s.deciders s.dispatchers s.suspend s.body.early s.dispatched

/-- The last decrement does not fall between the storing of the continuation and the second
reading of `remaining`, and the continuation is not stored between the last decrement and the
reading of the continuation. -/
def Apart (ov : Overload) (outcomes : Fin n → Except E V) (s : State V E n) (a : Label n) :
    Prop :=
  (∀ i, a = .wrapper i → (s.wrappers i).decrements ov (outcomes i) = true → s.remaining = 1 →
    s.suspend ≠ .stored) ∧
  (a = .suspend → s.suspend = .entered → ∀ i, s.wrappers i ≠ .counted true)

/-! ### Counting the wrappers that deal with the continuation -/

/-- A wrapper that goes to stage `st` changes the number of deciders and of dispatchers by the
change of its own weights. -/
theorem deciders_update {s t : State V E n} {i : Fin n} {st : Stage}
    (hw : t.wrappers = Function.update s.wrappers i st) :
  t.deciders + (s.wrappers i).deciding = s.deciders + st.deciding ∧
    t.dispatchers + (s.wrappers i).dispatches = s.dispatchers + st.dispatches
  := by
  unfold State.deciders State.dispatchers
  rw [hw]
  constructor
  · apply sum_update_add Finset.univ Stage.deciding s.wrappers (Finset.mem_univ i) st
  · apply sum_update_add Finset.univ Stage.dispatches s.wrappers (Finset.mem_univ i) st

/-- Deciders and dispatchers together are the wrappers that deal with the continuation. -/
theorem deciders_add_dispatchers (s : State V E n) :
  s.deciders + s.dispatchers = ∑ i, (s.wrappers i).signalling
  := Finset.sum_add_distrib.symm

/-- Some wrapper is between the last `fetch_sub` and the reading of the continuation exactly
when there is a decider. -/
theorem deciders_eq_zero_iff (s : State V E n) :
  s.deciders = 0 ↔ ∀ i, s.wrappers i ≠ .counted true
  := by
  constructor
  · intro hzero i hi
    have hnone := eq_zero_of_sum_eq_zero hzero (Finset.mem_univ i)
    simp [hi, Stage.deciding] at hnone
  · intro hall
    apply Finset.sum_eq_zero
    intro i _
    cases hst : s.wrappers i with
    | counted last => cases last <;> simp_all [Stage.deciding]
    | _ => rfl

/-- A wrapper that deals with the continuation finds `remaining` at `0` and is alone. -/
theorem Valid.finisher {s : State V E n} {i : Fin n} (hs : Valid s) :
  (0 < (s.wrappers i).deciding → s.remaining = 0 ∧ s.deciders = 1 ∧ s.dispatchers = 0) ∧
  (0 < (s.wrappers i).dispatches → s.remaining = 0 ∧ s.deciders = 0 ∧ s.dispatchers = 1)
  := by
  have hsum := deciders_add_dispatchers s
  have hone := hs.counting.signal
  have hdec : _ ≤ s.deciders := le_sum Finset.univ Stage.deciding s.wrappers (Finset.mem_univ i)
  have hdis : _ ≤ s.dispatchers :=
    le_sum Finset.univ Stage.dispatches s.wrappers (Finset.mem_univ i)
  constructor <;> intro hpos
  · have hzero : s.remaining = 0 := hs.counting.zero (by omega)
    omega
  · have hzero : s.remaining = 0 := hs.counting.zero (by omega)
    omega

/-! ### Every step is one of the handshake, or none -/

/-- A state whose handshake looks like this. -/
theorem handshake_eq {s : State V E n} {completed early : Bool} {d c k : ℕ} {sus : Suspend}
    (hr : decide (s.remaining = 0) = completed) (hd : s.deciders = d) (hc : s.dispatchers = c)
    (hsus : s.suspend = sus) (he : s.body.early = early) (hk : s.dispatched = k) :
  handshake s = registration completed d c sus early k
  := by
  simp only [handshake, hr, hd, hc, hsus, he, hk]

/-- The last `fetch_sub` is the finisher's first step. -/
theorem handshake_decrement {s : State V E n} {i : Fin n} (hs : Valid s)
    (hu : (s.wrappers i).uncounted = 1) :
  s.remaining ≠ 1 ∧ handshake (s.decrement i) = handshake s ∨
    s.remaining = 1 ∧ (handshake s).step .complete = some (handshake (s.decrement i))
  := by
  obtain ⟨hpos, hnone⟩ := hs.counting.pending (i := i) (by omega)
  obtain ⟨k, hk⟩ : ∃ k, s.remaining = k + 1 := Nat.exists_eq_add_one.mpr hpos
  have hremaining : (s.decrement i).remaining = k := by simp [State.decrement, hk]
  have hbefore : handshake s = registration false s.deciders s.dispatchers s.suspend
      s.body.early s.dispatched := handshake_eq (by simp [hk]) rfl rfl rfl rfl rfl
  by_cases hzero : k = 0
  · right
    constructor
    · omega
    · have hafter : handshake (s.decrement i) = registration true (s.decrement i).deciders
          (s.decrement i).dispatchers s.suspend s.body.early s.dispatched :=
        handshake_eq (by simp [hremaining, hzero]) rfl rfl rfl rfl rfl
      rw [hbefore, hafter]
      apply registration.complete
      by_contra hpos
      apply (deciders_eq_zero_iff _).mp (Nat.eq_zero_of_not_pos hpos) i
      simp [State.decrement, hk, hzero]
  · left
    constructor
    · omega
    · have hafter : handshake (s.decrement i) = registration false (s.decrement i).deciders
          (s.decrement i).dispatchers s.suspend s.body.early s.dispatched :=
        handshake_eq (by simp [hremaining, hzero]) rfl rfl rfl rfl rfl
      rw [hbefore, hafter]
      rfl

/-- A wrapper decides whether to schedule the continuation as the finisher reads it. -/
theorem handshake_decide {s : State V E n} {i : Fin n} (hs : Valid s)
    (hi : s.wrappers i = .counted true) :
  (handshake s).step .read =
    some (handshake (s.goto i (if s.continuation then .dispatching else .settled)))
  := by
  obtain ⟨hzero, hdec, hdis⟩ := hs.finisher.1 (by rw [hi]; decide)
  have hbefore : handshake s = registration true 1 0 s.suspend s.body.early s.dispatched :=
    handshake_eq (by simp [hzero]) hdec hdis rfl rfl rfl
  rw [hbefore, registration.read, ← hs.registered]
  cases hc : s.continuation with
  | true | false =>
      have hupdate : _ ∧ _ := deciders_update
        (t := s.goto i (if s.continuation then .dispatching else .settled)) rfl
      rw [hc] at hupdate
      simp only [hi, hdec, hdis, Stage.deciding, Stage.dispatches] at hupdate
      congr 1
      symm
      apply handshake_eq
      · simp [State.goto, hzero]
      · simp at hupdate ⊢
        omega
      · simp at hupdate ⊢
        omega
      · rfl
      · rfl
      · rfl

/-- A wrapper schedules the continuation as the finisher does. -/
theorem handshake_dispatch {s : State V E n} {i : Fin n} (hs : Valid s)
    (hi : s.wrappers i = .dispatching) :
  (handshake s).step .dispatch = some (handshake (s.dispatch i))
  := by
  obtain ⟨hzero, hdec, hdis⟩ := hs.finisher.2 (by rw [hi]; decide)
  have hupdate : _ ∧ _ := deciders_update (t := s.dispatch i) rfl
  simp only [hi, hdec, hdis, Stage.deciding, Stage.dispatches] at hupdate
  have hbefore : handshake s = registration true 0 1 s.suspend s.body.early s.dispatched :=
    handshake_eq (by simp [hzero]) hdec hdis rfl rfl rfl
  have hafter : handshake (s.dispatch i) =
      registration true 0 0 s.suspend s.body.early (s.dispatched + 1) :=
    handshake_eq (by simp [State.dispatch, hzero]) (by omega) (by omega) rfl rfl rfl
  rw [hbefore, hafter, registration.dispatch]

/-- A step of a wrapper is a step of the finisher, or none. -/
theorem handshake_wrapperStep {ov : Overload} {outcomes : Fin n → Except E V}
    {s t : State V E n} {i : Fin n} (hs : Valid s)
    (h : wrapperStep ov (outcomes i) s i = some t) :
  (handshake t = handshake s ∧ Apart ov outcomes s (.wrapper i)) ∨
    ∃ b, (handshake s).step b = some (handshake t) ∧
      (Apart ov outcomes s (.wrapper i) ↔ (handshake s).Apart b)
  := by
  cases wrapperStep_effect h with
  | @quiet _ st before quiet =>
      obtain ⟨hw, hr, -, hd, -, hsus, hb, -, hdec, hdis⟩ := quiet
      have hupdate := deciders_update hw
      left
      constructor
      · apply handshake_eq
        · rw [hr]
        · omega
        · omega
        · apply hsus
        · rw [hb]
        · apply hd
      · constructor
        · rintro j hj hdecrements
          obtain rfl : i = j := by simpa using hj
          simp [before] at hdecrements
        · simp
  | decrement before uncounted =>
      obtain ⟨hr, heq⟩ | ⟨hr, hstep⟩ := handshake_decrement hs uncounted
      · left
        use heq
        constructor
        · rintro j - - hone
          contradiction
        · simp
      · right
        use .complete, hstep
        rw [handshake, registration.apart_complete]
        simp [Apart, before, hr]
  | decide before =>
      right
      use .read, handshake_decide hs before
      simp [Apart, Handshake.Apart, before, Stage.decrements]
  | dispatch before =>
      right
      use .dispatch, handshake_dispatch hs before
      simp [Apart, Handshake.Apart, before, Stage.decrements]

/-- Creating or starting a wrapper is no step of the handshake. -/
theorem handshake_hire {s : State V E n} {i : Fin n} {st : Stage} {b : Body}
    (hbefore : (s.wrappers i).signalling = 0) (hafter : st.signalling = 0)
    (hb : b.early = s.body.early) :
  handshake ((s.goto i st).goes b) = handshake s
  := by
  unfold Stage.signalling at hbefore hafter
  have hupdate : _ ∧ _ := deciders_update (s := s) (t := (s.goto i st).goes b) rfl
  apply handshake_eq
  · rfl
  · omega
  · omega
  · rfl
  · apply hb
  · rfl

/-- A step of the body is a step of the awaiter, or none. -/
theorem handshake_bodyStep {ov : Overload} {s t : State V E n} (hs : Valid s)
    (h : bodyStep ov s = some t) :
  handshake t = handshake s ∨ (handshake s).step .ask = some (handshake t)
  := by
  have huncalled := hs.uncalled
  have hfresh := hs.fresh
  cases bodyStep_effect h with
  | empty before none =>
      right
      subst none
      have hzero : s.remaining = 0 := by simp [hs.counting.count]
      rw [before] at huncalled
      rw [handshake, handshake, before, huncalled rfl, hzero]
      apply registration.pass
  | enter before | built before | started before | resume before | leave before =>
      left
      rw [handshake, handshake, before]
      rfl
  | build before hk =>
      left
      rw [before] at hfresh
      apply handshake_hire
      · rw [hfresh.unmade ⟨_, hk⟩ le_rfl]
        rfl
      · rfl
      · rw [before]
        rfl
  | start before hk =>
      left
      rw [before] at hfresh
      apply handshake_hire
      · rw [hfresh.unstarted ⟨_, hk⟩ hk le_rfl]
        rfl
      · rfl
      · rw [before]
        rfl
  | pass before ready =>
      right
      rw [before] at huncalled
      have hbefore : handshake s = registration true s.deciders s.dispatchers .uncalled true
          s.dispatched :=
        handshake_eq (by simp [ready]) rfl rfl (huncalled rfl) (by rw [before]; rfl) rfl
      have hafter : handshake (s.goes .resuming) = registration true s.deciders s.dispatchers
          .uncalled false s.dispatched :=
        handshake_eq (by simp [State.goes, ready]) rfl rfl (huncalled rfl) rfl rfl
      rw [hbefore, hafter, registration.pass]
  | suspend before ready =>
      right
      rw [before] at huncalled
      have hbefore : handshake s = registration false s.deciders s.dispatchers .uncalled true
          s.dispatched :=
        handshake_eq (by simp [ready]) rfl rfl (huncalled rfl) (by rw [before]; rfl) rfl
      rw [hbefore, registration.suspend]
      congr 1
      symm
      apply handshake_eq
      · simp [ready]
      · rfl
      · rfl
      · rfl
      · rfl
      · rfl

/-- A step of `await_suspend` is one of the awaiter. -/
theorem handshake_suspendStep {s t : State V E n} (hs : Valid s) (h : suspendStep s = some t) :
  ∃ b, (handshake s).step b = some (handshake t) ∧
    ((s.suspend = .entered → ∀ i, s.wrappers i ≠ .counted true) ↔ (handshake s).Apart b)
  := by
  have hregistration : ∀ sus, s.suspend = sus → handshake s = registration (s.remaining = 0)
      s.deciders s.dispatchers sus s.body.early s.dispatched := by
    rintro _ rfl
    rfl
  cases hst : s.suspend with
  | uncalled | returned => simp [suspendStep, hst] at h
  | entered =>
      simp only [suspendStep, hst, Option.some.injEq] at h
      subst h
      use .store
      rw [hregistration _ hst, registration.store, registration.apart_store]
      constructor
      · rfl
      · rw [deciders_eq_zero_iff]
        constructor
        · intro hnone _
          apply hnone rfl
        · intro hzero _ i hi
          apply hzero _ i hi
          simp [(hs.finisher (i := i)).1 (by rw [hi]; decide)]
  | stored =>
      simp only [suspendStep, hst, Option.some.injEq] at h
      subst h
      use .recheck
      rw [hregistration _ hst, registration.recheck]
      constructor
      · congr 1
        symm
        apply handshake_eq
        · rfl
        · rfl
        · rfl
        · by_cases hr : s.remaining = 0 <;> simp [State.suspends, hr]
        · rfl
        · rfl
      · simp [Handshake.Apart]
  | dispatching =>
      simp only [suspendStep, hst, Option.some.injEq] at h
      subst h
      use .redispatch
      rw [hregistration _ hst, registration.redispatch]
      constructor
      · rfl
      · simp [Handshake.Apart]

/-- The wrappers and the awaiting coroutine go through the steps of a handshake. -/
theorem tracks (ov : Overload) (outcomes : Fin n → Except E V) :
  Handshake.Tracks (step ov outcomes) (Apart ov outcomes) Valid handshake
  := by
  constructor
  · intro s a t hs h
    apply hs.step h
  · intro s a t hs h
    cases a with
    | wrapper i => apply handshake_wrapperStep hs h
    | body =>
        have hapart : Apart ov outcomes s .body := by simp [Apart]
        obtain heq | hask := handshake_bodyStep hs h
        · left
          exact ⟨heq, hapart⟩
        · right
          use .ask, hask
          simp [hapart, Handshake.Apart]
    | suspend =>
        right
        obtain ⟨b, hb, hiff⟩ := handshake_suspendStep hs h
        use b, hb
        rw [← hiff]
        simp [Apart]
    | resume =>
        left
        simp only [step, Option.ite_none_right_eq_some, Option.some.injEq] at h
        obtain ⟨⟨hsus, -⟩, rfl⟩ := h
        constructor
        · rw [handshake, handshake, hsus]
          rfl
        · simp [Apart]

/-- The coroutine starts with nothing scheduled. -/
theorem kept_initial :
  (handshake (initial V E n)).Kept
  := by
  have hnone : (initial V E n).dispatchers = 0 := by
    simp [initial, State.dispatchers, Stage.dispatches]
  rw [handshake, hnone]
  apply registration.kept_uncalled

/-- Every wrapper has dealt with the continuation, and `await_suspend` has returned. -/
def Settled (s : State V E n) : Prop :=
  (∀ i, (s.wrappers i).uncounted = 0 ∧ (s.wrappers i).signalling = 0) ∧ s.suspend = .returned

theorem Settled.handshake {s : State V E n} (hs : Valid s) (h : Settled s) :
  (handshake s).Settled
  := by
  obtain ⟨hall, hret⟩ := h
  have hzero : s.remaining = 0 := by
    rw [hs.counting.count]
    apply Finset.sum_eq_zero
    intro i _
    apply (hall i).1
  have hsum : s.deciders + s.dispatchers = 0 := by
    rw [deciders_add_dispatchers]
    apply Finset.sum_eq_zero
    intro i _
    apply (hall i).2
  have heq : WhenAll.handshake s = registration true 0 0 .returned s.body.early s.dispatched :=
    handshake_eq (by simp [hzero]) (by omega) (by omega) hret rfl rfl
  rw [heq]
  apply registration.settled true rfl

end Koroutine.WhenAll
