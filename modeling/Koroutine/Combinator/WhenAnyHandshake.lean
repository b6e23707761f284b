import Koroutine.Combinator.WhenAny

/-!
# The handshake of `when_any`'s wrappers with `await_suspend`

The wrapper that wins the compare-exchange is the finisher of a handshake, the coroutine of
`when_any` the awaiter.
-/

open Transition

namespace Koroutine.WhenAny

variable {V E : Type*} {n : ℕ}

/-- How many wrappers are between winning and the reading of the continuation. -/
def State.deciders (s : State V E n) : ℕ := ∑ i, (s.wrappers i).deciding

/-- How many wrappers are about to schedule the continuation. -/
def State.dispatchers (s : State V E n) : ℕ := ∑ i, (s.wrappers i).dispatches

/-- The wrappers, as a finisher, and the coroutine, as an awaiter. -/
def handshake (s : State V E n) : Handshake :=
  registration s.completed s.deciders s.dispatchers s.suspend s.body.early s.dispatched

/-- The winning compare-exchange does not fall between the storing of the continuation and the
second reading of `completed`, and the continuation is not stored between the winning
compare-exchange and the reading of the continuation. -/
def Apart (s : State V E n) (a : Label n) : Prop :=
  (∀ i, a = .wrapper i → s.wrappers i = .resumed → s.completed = false → s.suspend ≠ .stored) ∧
  (a = .suspend → s.suspend = .entered → ∀ i, (s.wrappers i).deciding = 0)

/-! ### Counting the wrappers that deal with the continuation -/

/-- A wrapper that goes to stage `st` changes the number of deciders and of dispatchers by the
change of its own weights. -/
theorem deciders_update {s t : State V E n} {i : Fin n} {st : Stage}
    (hw : t.wrappers = Function.update s.wrappers i st) :
  t.deciders + (s.wrappers i).deciding = s.deciders + st.deciding ∧
    t.dispatchers + (s.wrappers i).dispatches = s.dispatchers + st.dispatches
  := by
  unfold State.deciders State.dispatchers
  rw [hw]
  constructor
  · apply sum_update_add Finset.univ Stage.deciding s.wrappers (Finset.mem_univ i) st
  · apply sum_update_add Finset.univ Stage.dispatches s.wrappers (Finset.mem_univ i) st

/-- Only a winner deals with the continuation. -/
theorem deciders_add_dispatchers_le (s : State V E n) :
  s.deciders + s.dispatchers ≤ ∑ i, (s.wrappers i).winner
  := by
  unfold State.deciders State.dispatchers
  rw [← Finset.sum_add_distrib]
  apply Finset.sum_le_sum
  intro i _
  cases s.wrappers i with
  | finishing b | gone b => cases b <;> decide
  | _ => decide

/-- A wrapper that deals with the continuation has completed the tasks and is alone. -/
theorem Valid.finisher {s : State V E n} {i : Fin n} (hs : Valid s) :
  (0 < (s.wrappers i).deciding → s.completed = true ∧ s.deciders = 1 ∧ s.dispatchers = 0) ∧
  (0 < (s.wrappers i).dispatches → s.completed = true ∧ s.deciders = 0 ∧ s.dispatchers = 1)
  := by
  have hsum := deciders_add_dispatchers_le s
  rw [hs.elected] at hsum
  have hdec : _ ≤ s.deciders := le_sum Finset.univ Stage.deciding s.wrappers (Finset.mem_univ i)
  have hdis : _ ≤ s.dispatchers :=
    le_sum Finset.univ Stage.dispatches s.wrappers (Finset.mem_univ i)
  cases hc : s.completed with
  | true =>
      simp only [hc, Bool.toNat_true] at hsum
      constructor <;> intro hpos
      · refine ⟨rfl, ?_, ?_⟩ <;> omega
      · refine ⟨rfl, ?_, ?_⟩ <;> omega
  | false =>
      simp only [hc, Bool.toNat_false] at hsum
      constructor <;> intro hpos <;> omega

/-! ### Every step is one of the handshake, or none -/

/-- A state whose handshake looks like this. -/
theorem handshake_eq {s : State V E n} {completed early : Bool} {d c k : ℕ} {sus : Suspend}
    (hr : s.completed = completed) (hd : s.deciders = d) (hc : s.dispatchers = c)
    (hsus : s.suspend = sus) (he : s.body.early = early) (hk : s.dispatched = k) :
  handshake s = registration completed d c sus early k
  := by
  simp only [handshake, hr, hd, hc, hsus, he, hk]

/-- A wrapper that goes on with its weights as they were makes no step of the handshake. -/
theorem handshake_goto {s t : State V E n} {i : Fin n} {st : Stage}
    (hw : t.wrappers = Function.update s.wrappers i st)
    (hsame : t.completed = s.completed ∧ t.suspend = s.suspend ∧ t.body.early = s.body.early ∧
      t.dispatched = s.dispatched)
    (hdec : st.deciding = (s.wrappers i).deciding)
    (hdis : st.dispatches = (s.wrappers i).dispatches) :
  handshake t = handshake s
  := by
  have hupdate := deciders_update hw
  obtain ⟨hc, hsus, hb, hd⟩ := hsame
  apply handshake_eq hc _ _ hsus hb hd
  · omega
  · omega

/-- Winning the compare-exchange is the finisher's first step. -/
theorem handshake_win {s : State V E n} {i : Fin n} (hc : s.completed = false) :
  (handshake s).step .complete = some (handshake (s.win i))
  := by
  have hbefore : handshake s = registration false s.deciders s.dispatchers s.suspend
      s.body.early s.dispatched := handshake_eq hc rfl rfl rfl rfl rfl
  have hpos : 0 < (s.win i).deciders := by
    have hle : _ ≤ (s.win i).deciders :=
      le_sum Finset.univ Stage.deciding (s.win i).wrappers (Finset.mem_univ i)
    simp only [State.win, Function.update_self, Stage.deciding] at hle
    apply hle
  rw [hbefore]
  apply registration.complete hpos

/-- The winner decides whether to schedule the continuation as the finisher reads it. -/
theorem handshake_decide {s : State V E n} {i : Fin n} (hs : Valid s)
    (hi : s.wrappers i = .stored) :
  (handshake s).step .read =
    some (handshake (s.goto i (if s.continuation then .dispatching else .settled)))
  := by
  obtain ⟨hcompleted, hdec, hdis⟩ := hs.finisher.1 (by rw [hi]; decide)
  have hbefore : handshake s = registration true 1 0 s.suspend s.body.early s.dispatched :=
    handshake_eq hcompleted hdec hdis rfl rfl rfl
  rw [hbefore, registration.read, ← hs.registered]
  cases hc : s.continuation with
  | true | false =>
      have hupdate : _ ∧ _ := deciders_update
        (t := s.goto i (if s.continuation then .dispatching else .settled)) rfl
      rw [hc] at hupdate
      simp only [hi, hdec, hdis, Stage.deciding, Stage.dispatches] at hupdate
      congr 1
      symm
      apply handshake_eq
      · apply hcompleted
      · simp at hupdate ⊢
        omega
      · simp at hupdate ⊢
        omega
      · rfl
      · rfl
      · rfl

/-- The winner schedules the continuation as the finisher does. -/
theorem handshake_dispatch {s : State V E n} {i : Fin n} (hs : Valid s)
    (hi : s.wrappers i = .dispatching) :
  (handshake s).step .dispatch = some (handshake (s.dispatch i))
  := by
  obtain ⟨hcompleted, hdec, hdis⟩ := hs.finisher.2 (by rw [hi]; decide)
  have hupdate : _ ∧ _ := deciders_update (t := s.dispatch i) rfl
  simp only [hi, hdec, hdis, Stage.deciding, Stage.dispatches] at hupdate
  have hbefore : handshake s = registration true 0 1 s.suspend s.body.early s.dispatched :=
    handshake_eq hcompleted hdec hdis rfl rfl rfl
  have hafter : handshake (s.dispatch i) =
      registration true 0 0 s.suspend s.body.early (s.dispatched + 1) :=
    handshake_eq hcompleted (by omega) (by omega) rfl rfl rfl
  rw [hbefore, hafter, registration.dispatch]

/-- A wrapper in another stage than `resumed` does not win by its next step. -/
theorem apart_wrapper {s : State V E n} {i : Fin n} (h : s.wrappers i ≠ .resumed) :
  Apart s (.wrapper i)
  := by
  constructor
  · rintro j hj hr
    obtain rfl : i = j := by simpa using hj
    contradiction
  · simp

/-- A step of a wrapper is a step of the finisher, or none. -/
theorem handshake_wrapperStep {r : Except E V} {s t : State V E n} {i : Fin n} (hs : Valid s)
    (h : wrapperStep r s i = some t) :
  (handshake t = handshake s ∧ Apart s (.wrapper i)) ∨
    ∃ b, (handshake s).step b = some (handshake t) ∧
      (Apart s (.wrapper i) ↔ (handshake s).Apart b)
  := by
  have hapart := apart_wrapper (s := s) (i := i)
  cases hst : s.wrappers i with
  | unborn | gone => simp [wrapperStep, hst] at h
  | awaiting | finishing =>
      simp only [wrapperStep, hst, Option.some.injEq] at h
      subst h
      left
      constructor
      · exact handshake_goto rfl ⟨rfl, rfl, rfl, rfl⟩ (by rw [hst]; rfl) (by rw [hst]; rfl)
      · apply hapart
        simp [hst]
  | resumed =>
      simp only [wrapperStep, hst, Option.some.injEq] at h
      cases hc : s.completed with
      | true =>
          rw [hc] at h
          subst h
          left
          constructor
          · exact handshake_goto rfl ⟨rfl, rfl, rfl, rfl⟩ (by rw [hst]; rfl) (by rw [hst]; rfl)
          · simp [Apart, hc]
      | false =>
          rw [hc] at h
          subst h
          right
          use .complete
          constructor
          · apply handshake_win hc
          · rw [handshake, registration.apart_complete]
            simp [Apart, hst, hc]
  | won =>
      simp only [wrapperStep, hst, Option.ite_none_right_eq_some, Option.some.injEq] at h
      obtain ⟨-, rfl⟩ := h
      left
      constructor
      · exact handshake_goto rfl ⟨rfl, rfl, rfl, rfl⟩ (by rw [hst]; rfl) (by rw [hst]; rfl)
      · apply hapart
        simp [hst]
  | locked =>
      simp only [wrapperStep, hst, Option.some.injEq] at h
      subst h
      left
      constructor
      · cases r with
        | ok v | error e =>
            exact handshake_goto rfl ⟨rfl, rfl, rfl, rfl⟩ (by rw [hst]; rfl) (by rw [hst]; rfl)
      · apply hapart
        simp [hst]
  | stored =>
      simp only [wrapperStep, hst, Option.some.injEq] at h
      subst h
      right
      use .read, handshake_decide hs hst
      simp [hapart, hst, Handshake.Apart]
  | dispatching =>
      simp only [wrapperStep, hst, Option.some.injEq] at h
      subst h
      right
      use .dispatch, handshake_dispatch hs hst
      simp [hapart, hst, Handshake.Apart]
  | settled =>
      simp only [wrapperStep, hst, Option.some.injEq] at h
      subst h
      left
      constructor
      · exact handshake_goto rfl ⟨rfl, rfl, rfl, rfl⟩ (by rw [hst]; rfl) (by rw [hst]; rfl)
      · apply hapart
        simp [hst]

/-- A step of the body is a step of the awaiter, or none, unless the list of tasks is empty. -/
theorem handshake_bodyStep {ov : Overload} {s t : State V E n} (hn : 0 < n) (hs : Valid s)
    (h : bodyStep ov s = some t) :
  handshake t = handshake s ∨ (handshake s).step .ask = some (handshake t)
  := by
  have huncalled := hs.uncalled
  have hunmade := hs.unmade
  cases bodyStep_effect h with
  | empty before none => omega
  | enter before | launched before | resume before | leave before =>
      left
      rw [handshake, handshake, before]
      rfl
  | launch before hk =>
      left
      rw [before] at hunmade
      have hunborn := hunmade ⟨_, hk⟩ le_rfl
      exact handshake_goto rfl ⟨rfl, rfl, by rw [before]; rfl, rfl⟩ (by rw [hunborn]; rfl)
        (by rw [hunborn]; rfl)
  | pass before ready =>
      right
      rw [before] at huncalled
      have hbefore : handshake s = registration true s.deciders s.dispatchers .uncalled true
          s.dispatched := handshake_eq ready rfl rfl (huncalled rfl) (by rw [before]; rfl) rfl
      have hafter : handshake (s.goes .resuming) = registration true s.deciders s.dispatchers
          .uncalled false s.dispatched := handshake_eq ready rfl rfl (huncalled rfl) rfl rfl
      rw [hbefore, hafter, registration.pass]
  | suspend before ready =>
      right
      rw [before] at huncalled
      have hbefore : handshake s = registration false s.deciders s.dispatchers .uncalled true
          s.dispatched := handshake_eq ready rfl rfl (huncalled rfl) (by rw [before]; rfl) rfl
      rw [hbefore, registration.suspend]
      congr 1
      symm
      exact handshake_eq ready rfl rfl rfl rfl rfl

/-- A step of `await_suspend` is one of the awaiter. -/
theorem handshake_suspendStep {s t : State V E n} (hs : Valid s) (h : suspendStep s = some t) :
  ∃ b, (handshake s).step b = some (handshake t) ∧
    ((s.suspend = .entered → ∀ i, (s.wrappers i).deciding = 0) ↔ (handshake s).Apart b)
  := by
  have hregistration : ∀ sus, s.suspend = sus → handshake s = registration s.completed
      s.deciders s.dispatchers sus s.body.early s.dispatched := by
    rintro _ rfl
    rfl
  cases hst : s.suspend with
  | uncalled | returned => simp [suspendStep, hst] at h
  | entered =>
      simp only [suspendStep, hst, Option.some.injEq] at h
      subst h
      use .store
      rw [hregistration _ hst, registration.store, registration.apart_store]
      constructor
      · rfl
      · constructor
        · intro hnone _
          apply Finset.sum_eq_zero
          intro i _
          apply hnone rfl
        · intro hzero _ i
          by_contra hi
          obtain ⟨hcompleted, hone, -⟩ := (hs.finisher (i := i)).1 (Nat.pos_of_ne_zero hi)
          rw [hzero hcompleted] at hone
          contradiction
  | stored =>
      simp only [suspendStep, hst, Option.some.injEq] at h
      subst h
      use .recheck
      rw [hregistration _ hst, registration.recheck]
      constructor
      · rfl
      · simp [Handshake.Apart]
  | dispatching =>
      simp only [suspendStep, hst, Option.some.injEq] at h
      subst h
      use .redispatch
      rw [hregistration _ hst, registration.redispatch]
      constructor
      · rfl
      · simp [Handshake.Apart]

/-- The wrappers and the awaiting coroutine go through the steps of a handshake. -/
theorem tracks (ov : Overload) (outcomes : Fin n → Except E V) (hn : 0 < n) :
  Handshake.Tracks (step ov outcomes) Apart Valid handshake
  := by
  constructor
  · intro s a t hs h
    apply hs.step h
  · intro s a t hs h
    cases a with
    | wrapper i => apply handshake_wrapperStep hs h
    | body =>
        have hapart : Apart s .body := by simp [Apart]
        obtain heq | hask := handshake_bodyStep hn hs h
        · left
          exact ⟨heq, hapart⟩
        · right
          use .ask, hask
          simp [hapart, Handshake.Apart]
    | suspend =>
        right
        obtain ⟨b, hb, hiff⟩ := handshake_suspendStep hs h
        use b, hb
        rw [← hiff]
        simp [Apart]
    | resume =>
        left
        simp only [step, Option.ite_none_right_eq_some, Option.some.injEq] at h
        obtain ⟨⟨hsus, -⟩, rfl⟩ := h
        constructor
        · rw [handshake, handshake, hsus]
          rfl
        · simp [Apart]

/-- The coroutine starts with nothing scheduled. -/
theorem kept_initial :
  (handshake (initial V E n)).Kept
  := by
  have hnone : (initial V E n).dispatchers = 0 := by
    simp [initial, State.dispatchers, Stage.dispatches]
  rw [handshake, hnone]
  apply registration.kept_uncalled

/-- Every wrapper has raced and dealt with the continuation if it had to, and `await_suspend` has
returned. -/
def Settled (s : State V E n) : Prop :=
  (∀ i, (s.wrappers i).raced = true ∧ (s.wrappers i).deciding = 0 ∧
    (s.wrappers i).dispatches = 0) ∧ s.suspend = .returned

theorem Settled.handshake {s : State V E n} (hn : 0 < n) (hs : Valid s) (h : Settled s) :
  (handshake s).Settled
  := by
  obtain ⟨hall, hret⟩ := h
  have hcompleted : s.completed = true := hs.raced ⟨0, hn⟩ (hall ⟨0, hn⟩).1
  have hdeciders : s.deciders = 0 := Finset.sum_eq_zero fun i _ => (hall i).2.1
  have hdispatchers : s.dispatchers = 0 := Finset.sum_eq_zero fun i _ => (hall i).2.2
  have heq : WhenAny.handshake s = registration true 0 0 .returned s.body.early s.dispatched :=
    handshake_eq hcompleted hdeciders hdispatchers hret rfl rfl
  rw [heq]
  apply registration.settled true rfl

end Koroutine.WhenAny
