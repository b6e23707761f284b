import Koroutine.Manager.Effect
import Koroutine.Transition.Run
import Mathlib.Data.List.Perm.Basic

/-!
# Cancelled tasks

A cancelled task whose body awaits no `Task` and no duration throws at its next `co_await`, and if
it does not catch the exception it has ended three steps after its token was cancelled, at the
latest. The overloads of `await_transform` for a `Task` and for a duration do not look at the token:
a task that awaits one passes the `co_await`, however often.
-/

open Transition

namespace Koroutine.Manager

open AwaitTransform

variable {ι β χ V E : Type*}

/-- The call is in `join_group`. -/
def Pc.joins : Pc ι → Bool
  | .scanning _ | .erasing _ _ | .sleeping _ _ => true
  | _ => false

/-- A task has passed no `co_await` since its token was cancelled.  Where a call of `cancel_group`
has found it in the group and joins the group, its token has been cancelled, and unless it catches
the exception it has taken three steps at most since then: a worker resumes it, it reaches a
`co_await`, it ends. -/
structure Prompt (P : Bodies ι β χ V E) (s : State ι β V E) (i : ι) : Prop where
  throws : s.passed i = 0
  joins : ∀ c, (s.call c).joins = true → i ∈ s.targets c → P.Uncaught i →
    s.cancelled i = true ∧ s.steps i ≤ 3

/-! ### The calls -/

/-- The tasks whose tokens a call has cancelled, or is about to cancel. -/
def Pc.Targets (cancelled : ι → Bool) (targets : List ι) : Pc ι → Prop
  | .idle | .shuttingDown | .cancelling _ => targets = []
  | .cancelLoop _ todo => ∀ i ∈ targets, cancelled i = true ∨ i ∈ todo
  | .scanning _ | .erasing _ _ | .sleeping _ _ | .returned => ∀ i ∈ targets, cancelled i = true

/-- Every call keeps to its targets. -/
def Targeted (s : State ι β V E) : Prop :=
  ∀ c, (s.call c).Targets s.cancelled (s.targets c)

variable {P : Bodies ι β χ V E} {s t : State ι β V E}

/-- More tokens are cancelled. -/
theorem Pc.Targets.mono {cancelled cancelled' : ι → Bool} {targets : List ι} {pc : Pc ι}
    (h : pc.Targets cancelled targets)
    (hcancelled : ∀ i, cancelled i = true → cancelled' i = true) :
  pc.Targets cancelled' targets
  := by
  cases pc with
  | idle | shuttingDown | cancelling _ => apply h
  | cancelLoop name todo =>
      intro i hi
      apply (h i hi).imp_left (hcancelled i)
  | scanning _ | erasing _ _ | sleeping _ _ | returned =>
      intro i hi
      apply hcancelled i (h i hi)

/-- A call that has no targets goes on. -/
theorem Pc.Targets.of_nil {cancelled : ι → Bool} {targets : List ι} {pc : Pc ι}
    (h : pc.Targets cancelled []) (hnil : targets = []) :
  pc.Targets cancelled targets
  := by
  rw [hnil]
  apply h

/-- A call goes on to where it needs no more of its targets. -/
theorem Targeted.goTo {c : ℕ} {pc pc' : Pc ι} (hs : Targeted s) (hcall : s.call c = pc)
    (h : pc.Targets s.cancelled (s.targets c) → pc'.Targets s.cancelled (s.targets c)) :
  Targeted (s.goTo c pc')
  := by
  intro c'
  by_cases hc : c' = c
  · subst hc
    have htargets := hs c'
    rw [hcall] at htargets
    simpa [State.goTo] using h htargets
  · simpa [State.goTo, hc] using hs c'

variable [DecidableEq ι] {a : Label ι χ V E}

/-- A call cancels the token of the next of its targets. -/
theorem Targeted.cancel {c k : ℕ} {name : String} {todo : List ι} {i : ι} (hs : Targeted s)
    (hcall : s.call c = .cancelLoop name todo) (hnext : todo[k]? = some i) :
  Targeted
    { s.goTo c (.cancelLoop name (todo.eraseIdx k)) with
      cancelled := Function.update s.cancelled i true }
  := by
  have hmore : ∀ j, s.cancelled j = true → Function.update s.cancelled i true j = true := by
    intro j hj
    rw [Function.update_apply, hj]
    split <;> rfl
  have hstate : Targeted { s with cancelled := Function.update s.cancelled i true } := by
    intro c'
    apply (hs c').mono hmore
  apply hstate.goTo hcall
  intro htodo j hj
  by_cases hji : j = i
  · left
    rw [hji]
    apply Function.update_self
  · obtain hcancelled | hmem := htodo j hj
    · left
      apply hcancelled
    · right
      obtain ⟨hlt, rfl⟩ := List.getElem?_eq_some_iff.mp hnext
      have hperm := (List.getElem_cons_eraseIdx_perm hlt).mem_iff.mpr hmem
      apply List.mem_of_ne_of_mem hji hperm

theorem Targeted.step (hs : Targeted s) (h : step P s a = some t) :
  Targeted t
  := by
  cases effect_step h with
  | refuse | accept | move => apply hs
  | begin begins idle =>
      apply hs.goTo idle
      apply Pc.Targets.of_nil
      cases a with
      | shutdown | cancelGroup => cases begins; rfl
      | joinGroup =>
          cases begins
          intro i hi
          contradiction
      | submit | go | cancel | start | reach | resume => contradiction
  | barred _ call =>
      apply hs.goTo call
      apply Pc.Targets.of_nil
      intro i hi
      contradiction
  | shut _ call => exact hs.goTo call id
  | @lock c name _ call =>
      intro c'
      by_cases hc : c' = c
      · subst hc
        simp only [State.goTo, Function.update_self]
        intro i hi
        right
        apply hi
      · simpa [State.goTo, hc] using hs c'
  | cancel call next => apply hs.cancel call next
  | unlock call =>
      refine hs.goTo call ?_
      intro htargets i hi
      obtain hcancelled | hmem := htargets i hi
      · apply hcancelled
      · contradiction
  | joined _ call => exact hs.goTo call id
  | scan _ call => exact hs.goTo call id
  | erase _ call => exact hs.goTo call id
  | wake call => exact hs.goTo call id

/-! ### The tasks -/

/-- How many steps a task that does not catch the exception has taken at most since its token was
cancelled: it is the last but one where the exception has been thrown. -/
def Stage.Within (P : Bodies ι β χ V E) (n : ℕ) : Stage β V E → Prop
  | .unsubmitted | .scheduled | .suspended _ => n = 0
  | .running b => n ≤ 1 ∨ n ≤ 2 ∧ ∀ x, P.reach b x = .throw P.cancelled
  | .done => n ≤ 3

/-- A task is at a point of its body, and has passed no `co_await` since its token was cancelled. -/
structure Tracked (P : Bodies ι β χ V E) (s : State ι β V E) (i : ι) : Prop where
  running : ∀ b, s.stage i = .running b → P.Point i b
  suspended : ∀ rest, s.stage i = .suspended rest → ∀ r, P.Point i (rest r)
  zero : s.cancelled i = false → s.steps i = 0
  passed : s.passed i = 0
  within : P.Uncaught i → (s.stage i).Within P (s.steps i)

variable {i : ι}

omit [DecidableEq ι] in
theorem Tracked.initial :
  Tracked P Manager.initial i
  where
  running _ h := by contradiction
  suspended _ h := by contradiction
  zero _ := rfl
  passed := rfl
  within _ := rfl

omit [DecidableEq ι] in
/-- A step that leaves a task as it is. -/
theorem Tracked.of_same (hs : Tracked P s i) (hstage : t.stage i = s.stage i)
    (hcancelled : t.cancelled i = s.cancelled i) (hsteps : t.steps i = s.steps i)
    (hpassed : t.passed i = s.passed i) :
  Tracked P t i
  := by
  constructor
  · rw [hstage]
    apply hs.running
  · rw [hstage]
    apply hs.suspended
  · rw [hcancelled, hsteps]
    apply hs.zero
  · rw [hpassed]
    apply hs.passed
  · rw [hstage, hsteps]
    apply hs.within

/-- A worker resumes a task that has not taken a step since its token was cancelled. -/
theorem Tracked.resume {b : β} (hs : Tracked P s i) (hpoint : P.Point i b)
    (hnone : P.Uncaught i → s.steps i = 0) :
  Tracked P (s.move i (.running b)) i
  := by
  constructor
  case running =>
    intro b' hb
    obtain rfl : b = b' := by simpa [State.move] using hb
    apply hpoint
  case suspended =>
    intro rest hrest
    simp [State.move] at hrest
  case zero =>
    intro hcancelled
    have hzero := hs.zero hcancelled
    change s.cancelled i = false at hcancelled
    simp [State.move, hzero, hcancelled]
  case passed => apply hs.passed
  case within =>
    intro huncaught
    have hle := Bool.toNat_le (s.cancelled i)
    simp only [State.move, Function.update_self, hnone huncaught, Stage.Within]
    left
    omega

/-- A running task takes a step. -/
theorem Tracked.reach {b : β} {x : χ} (hs : Tracked P s i) (hchecked : P.Checked i)
    (hstage : s.stage i = .running b) :
  Tracked P (reachStep s P i b x) i
  := by
  have hpoint := hs.running b hstage
  have hwithin := hs.within
  rw [hstage] at hwithin
  unfold reachStep
  cases hreach : P.reach b x with
  | coReturn v | throw e =>
      constructor
      case running => simp [State.move]
      case suspended => simp [State.move]
      case zero =>
        intro hcancelled
        have hzero := hs.zero hcancelled
        change s.cancelled i = false at hcancelled
        simp [State.move, hzero, hcancelled]
      case passed => apply hs.passed
      case within =>
        intro huncaught
        have hle := Bool.toNat_le (s.cancelled i)
        simp only [State.move, Function.update_self, Stage.Within]
        obtain hone | ⟨htwo, -⟩ := hwithin huncaught <;> omega
  | coAwait operand rest =>
      cases hcancelled : s.cancelled i with
      | false =>
          have hzero := hs.zero hcancelled
          simp only [awaitTransform_uncancelled]
          constructor
          case running => simp [State.move]
          case suspended =>
            intro rest' hrest r
            obtain rfl : rest = rest' := by simpa [State.move] using hrest
            apply hpoint.rest hreach
          case zero => simp [State.move, hzero, hcancelled]
          case passed => simp [hs.passed]
          case within => simp [State.move, hzero, hcancelled, Stage.Within]
      | true =>
          have hkind := hchecked b hpoint x operand rest hreach
          simp only [awaitTransform_cancelled, hkind, or_self, if_false]
          constructor
          case running =>
            intro b' hb
            obtain rfl : rest (.error P.cancelled) = b' := by simpa [State.move] using hb
            apply hpoint.rest hreach
          case suspended => simp [State.move]
          case zero => simp [State.move, hcancelled]
          case passed => apply hs.passed
          case within =>
            intro huncaught
            have hthrows := huncaught b hpoint x operand rest hreach
            simp only [State.move, Function.update_self, hcancelled, Bool.toNat_true]
            right
            refine ⟨?_, hthrows⟩
            obtain hone | ⟨-, hthrown⟩ := hwithin huncaught
            · omega
            · rw [hthrown] at hreach
              contradiction

/-- A step in which no task moves: a task is taken into a group, or its token is cancelled. -/
theorem Tracked.unmoved (hs : Tracked P s i) (h : Effect s a t) (hmover : a.mover = none) :
  Tracked P t i
  := by
  cases h with
  | refuse => apply hs
  | @accept name j _ fresh =>
      by_cases hi : i = j
      · subst hi
        constructor
        case running => simp
        case suspended => simp
        case zero => apply hs.zero
        case passed => apply hs.passed
        case within =>
          intro huncaught
          have hzero := hs.within huncaught
          rw [fresh] at hzero
          simpa [Stage.Within] using hzero
      · apply hs.of_same <;> simp [hi]
  | @cancel c k name todo j =>
      refine { hs with zero := ?_ }
      intro hcancelled
      apply hs.zero
      change Function.update s.cancelled j true i = false at hcancelled
      rw [Function.update_apply] at hcancelled
      split at hcancelled
      · contradiction
      · apply hcancelled
  | move _ mover =>
      rw [hmover] at mover
      contradiction
  | begin | barred | shut | lock | unlock | joined | scan | erase | wake =>
      exact hs.of_same rfl rfl rfl rfl

theorem Tracked.step (hs : Tracked P s i) (hchecked : P.Checked i) (h : step P s a = some t) :
  Tracked P t i
  := by
  have hother : ∀ j stage, i ≠ j → Tracked P (s.move j stage) i := by
    intro j stage hne
    apply hs.of_same <;> simp [State.move, hne]
  cases a with
  | submit | shutdown | cancelGroup | joinGroup | go | cancel =>
      apply hs.unmoved (effect_step h) rfl
  | start j =>
      simp only [Manager.step] at h
      split at h
      · rename_i hstage
        obtain rfl := Option.some.inj h
        by_cases hi : i = j
        · subst hi
          apply hs.resume .start
          intro huncaught
          have hzero := hs.within huncaught
          rw [hstage] at hzero
          apply hzero
        · apply hother j _ hi
      · contradiction
  | resume j r =>
      simp only [Manager.step] at h
      split at h
      · rename_i rest hstage
        obtain rfl := Option.some.inj h
        by_cases hi : i = j
        · subst hi
          apply hs.resume (hs.suspended rest hstage r)
          intro huncaught
          have hzero := hs.within huncaught
          rw [hstage] at hzero
          apply hzero
        · apply hother j _ hi
      · contradiction
  | reach j x =>
      simp only [Manager.step] at h
      split at h
      · rename_i b hstage
        obtain rfl := Option.some.inj h
        by_cases hi : i = j
        · subst hi
          apply hs.reach hchecked hstage
        · unfold reachStep
          split
          · apply hother j _ hi
          · apply hother j _ hi
          · split
            · exact (hother j _ hi).of_same rfl rfl rfl (Function.update_of_ne hi ..)
            · apply hother j _ hi
      · contradiction

omit [DecidableEq ι] in
theorem Stage.Within.le {n : ℕ} {stage : Stage β V E} (h : stage.Within P n) :
  n ≤ 3
  := by
  cases stage with
  | unsubmitted | scheduled | suspended _ => exact h ▸ Nat.zero_le 3
  | running b => obtain hone | ⟨htwo, -⟩ := h <;> omega
  | done => apply h

/-! ### Result -/

theorem targeted_of_run {as : List (Label ι χ V E)} (h : Run (step P) Free initial as t) :
  Targeted t
  := by
  apply h.invariant Targeted
  · intro s a t hs _ e
    apply hs.step e
  · intro c
    rfl

/-- A task that awaits no `Task` and no duration ends when it is cancelled. -/
theorem prompt_of_checked (hchecked : P.Checked i) {as : List (Label ι χ V E)}
    (h : Run (step P) Free initial as t) :
  Prompt P t i
  := by
  have htracked : Tracked P t i := by
    apply h.invariant (fun t => Tracked P t i)
    · intro s a t hs _ e
      apply hs.step hchecked e
    · apply Tracked.initial
  constructor
  · apply htracked.passed
  · intro c hjoins hi huncaught
    constructor
    · have htargets := targeted_of_run h c
      cases hcall : t.call c with
      | idle | shuttingDown | cancelling _ | cancelLoop _ _ | returned =>
          rw [hcall] at hjoins
          contradiction
      | scanning _ | erasing _ _ | sleeping _ _ =>
          rw [hcall] at htargets
          apply htargets i hi
    · apply (htracked.within huncaught).le

/-- A manager with one task, which runs and is at a point of its body. -/
def runningAt (i : ι) (b : β) : State ι β V E :=
  { (initial : State ι β V E) with
    entries := [("", i)]
    stage := Function.update (fun _ => .unsubmitted) i (.running b) }

/-- Every point of a body is reached. -/
theorem exists_run_runningAt {b : β} (h : P.Point i b) :
  ∃ as, Run (step P) Free initial as (runningAt i b)
  := by
  induction h with
  | start =>
      refine ⟨[.submit "" i, .start i], ?_⟩
      apply run_of_exec
      simp [exec, step, initial, runningAt, State.move]
  | @rest b x operand rest point reaches r ih =>
      obtain ⟨as, has⟩ := ih
      refine ⟨as ++ [.reach i x, .resume i r], has.trans ?_⟩
      apply run_of_exec
      simp [exec, step, initial, runningAt, State.move, reachStep, reaches,
        awaitTransform_uncancelled]

/-- A `co_await` of a `Task` or a duration is passed by a task whose token has been cancelled. -/
theorem not_prompt_of_unchecked {b : β} {x : χ} {operand : Operand} {rest : Except E V → β}
    (hpoint : P.Point i b) (hreach : P.reach b x = .coAwait operand rest)
    (hkind : operand = .task ∨ operand = .duration) :
  ∃ as t, Run (step P) Free initial as t ∧ t.passed i = 1
  := by
  obtain ⟨as, has⟩ := exists_run_runningAt hpoint
  obtain ⟨t, ht, hpassed⟩ : ∃ t, exec (step P) (runningAt i b)
      [.cancelGroup 0 "", .go 0, .cancel 0 0, .reach i x] = some t ∧ t.passed i = 1 := by
    simp [exec, step, runningAt, initial, State.begin, State.goTo, goStep, State.tasks, inGroup,
      reachStep, hreach, awaitTransform_cancelled, hkind, State.move]
  exact ⟨_, t, has.trans (run_of_exec ht), hpassed⟩

/-- Once it is cancelled, a task throws at its next `co_await`, and `cancel_group` joins no task
that keeps running, if and only if the body of the task awaits no `Task` and no duration. -/
theorem prompt_iff_checked :
  (∀ as t, Run (step P) Free initial as t → Prompt P t i) ↔ P.Checked i
  := by
  constructor
  · intro hprompt b hpoint x operand rest hreach
    have hkind : ¬ (operand = .task ∨ operand = .duration) := by
      intro hkind
      obtain ⟨as, t, hrun, hone⟩ := not_prompt_of_unchecked hpoint hreach hkind
      rw [(hprompt as t hrun).throws] at hone
      contradiction
    apply not_or.mp hkind
  · intro hchecked as t hrun
    apply prompt_of_checked hchecked hrun

/-- How a loop goes on after a `co_await`, which an exception leaves. -/
def loop : Except Unit Unit → Bool
  | .ok _ => true
  | .error _ => false

/-- `while (true) co_await std::chrono::milliseconds(50);` -/
def sleeper : Bodies Unit Bool Unit Unit Unit where
  start _ := true
  reach b _ := if b then .coAwait .duration loop else .throw ()
  cancelled := ()

/-- A cancelled task that sleeps on and on passes any number of `co_await`s. -/
theorem exists_run_sleeper (n : ℕ) :
  ∃ as t, Run (step sleeper) Free initial as t ∧ (t.call 0).joins = true ∧ () ∈ t.targets 0 ∧
    t.cancelled () = true ∧ t.passed () = n ∧ t.stage () = .suspended loop
  := by
  induction n with
  | zero =>
      refine ⟨[.submit "" (), .start (), .reach () (), .cancelGroup 0 "", .go 0, .cancel 0 0,
        .go 0], _, run_of_exec rfl, rfl, ?_, rfl, rfl, rfl⟩
      apply List.mem_singleton_self
  | succ n ih =>
      obtain ⟨as, s, hrun, hjoins, htargets, hcancelled, hpassed, hstage⟩ := ih
      obtain ⟨t, ht, hcall, htargets', hcancelled', hpassed', hstage'⟩ : ∃ t,
          exec (step sleeper) s [.resume () (.ok ()), .reach () ()] = some t ∧
          t.call = s.call ∧ t.targets = s.targets ∧ t.cancelled () = true ∧
          t.passed () = n + 1 ∧ t.stage () = .suspended loop := by
        simp [exec, step, hstage, State.move, reachStep, sleeper, loop, Operand.overload,
          awaitTransform, hcancelled, hpassed]
      refine ⟨_, t, hrun.trans (run_of_exec ht), ?_, ?_, hcancelled', hpassed', hstage'⟩
      · rw [hcall]
        apply hjoins
      · rw [htargets']
        apply htargets

/-- A task that sleeps on and on does not catch the exception, and goes on passing its `co_await`
while `cancel_group` joins its group. -/
theorem sleeper_keeps_running :
  sleeper.Uncaught () ∧
    (∀ n, ∃ as t, Run (step sleeper) Free initial as t ∧ (t.call 0).joins = true ∧
      () ∈ t.targets 0 ∧ t.cancelled () = true ∧ t.passed () = n) ∧
    ¬ ∀ as t, Run (step sleeper) Free initial as t → Prompt sleeper t ()
  := by
  refine ⟨?_, ?_, ?_⟩
  · intro b hpoint x operand rest hreach x'
    cases b with
    | false => simp [sleeper] at hreach
    | true =>
        simp only [sleeper, if_true, Reach.coAwait.injEq] at hreach
        obtain ⟨-, rfl⟩ := hreach
        rfl
  · intro n
    obtain ⟨as, t, hrun, hjoins, htargets, hcancelled, hpassed, -⟩ := exists_run_sleeper n
    exact ⟨as, t, hrun, hjoins, htargets, hcancelled, hpassed⟩
  · intro hprompt
    obtain ⟨as, t, hrun, -, -, -, hpassed, -⟩ := exists_run_sleeper 1
    rw [(hprompt as t hrun).throws] at hpassed
    contradiction

end Koroutine.Manager
