import Koroutine.Transition.Run
import Mathlib.Data.Nat.Notation
import Mathlib.Logic.Function.Basic

/-!
# Tasks registered with tokens

`with_cancellation` registers with the token a callback that holds the addresses of the promise's
result and continuation.  `cancel` runs the callbacks of the token; on a cancelled token
`with_cancellation` runs its callback at once.  A callback sets the result, unless there is one, and
then reads the continuation and schedules it.

The list of callbacks belongs to the token, and nothing removes a task from it when its `Task` is
destroyed, and the frame with it.
-/

open Transition

namespace Koroutine

namespace Registering

/-- The frame of a coroutine. -/
inductive Frame
  | absent
  | created
  | running
  /-- Suspended at the final suspend point. -/
  | final
  | destroyed
  deriving DecidableEq

/-- The frame exists. -/
def Frame.exists : Frame → Bool
  | .created | .running | .final => true
  | .absent | .destroyed => false

/-- The result of a promise: what the body has ended with, or `OperationCancelledException`. -/
inductive Ending
  | ended
  | cancelled
  deriving DecidableEq

/-- What a callback finds in a promise, and how often it has scheduled the continuation. -/
structure Promise where
  result : Option Ending
  continuation : Bool
  resumed : ℕ
  deriving DecidableEq

/-- A call that runs callbacks with the mutex locked: those still to run, the one that has set the
result and has not read the continuation, and whether the call is one of `cancel`. -/
structure Call (ι : Type*) where
  todo : List ι
  entered : Option ι
  cancels : Bool
  deriving DecidableEq

/-- The tasks whose callback the call has still to run or to finish. -/
def Call.pending {ι : Type*} (call : Call ι) : List ι := call.entered.toList ++ call.todo

/-- A token, with the call that holds its mutex. -/
structure Token (ι : Type*) where
  cancelled : Bool
  callbacks : List ι
  call : Option (Call ι)

/-- Tokens `τ`, tasks `ι` with their promises, and the tasks whose callback has touched a frame that
had been destroyed. -/
structure State (ι τ : Type*) where
  tokens : τ → Token ι
  frames : ι → Frame
  promises : ι → Promise
  dangling : List ι

/-- The steps: what is done with tasks and tokens, in any order, and a part of the callback that a
call on a token runs, with the scheduler still alive or not. -/
inductive Label (ι τ : Type*)
  | create (i : ι)
  | with_cancellation (i : ι) (t : τ)
  | start (i : ι)
  | set_continuation (i : ι)
  | finish (i : ι)
  | destroy (i : ι)
  | cancel (t : τ)
  | callback (t : τ) (scheduler : Bool)

variable {ι τ : Type*}

/-- No task has been created, and no token has been cancelled. -/
def initial (ι τ : Type*) : State ι τ where
  tokens := fun _ => ⟨false, [], none⟩
  frames := fun _ => .absent
  promises := fun _ => ⟨none, false, 0⟩
  dangling := []

variable [DecidableEq ι] [DecidableEq τ]

namespace State

/-- The frame of a task changes. -/
def setFrame (s : State ι τ) (i : ι) (frame : Frame) : State ι τ :=
  { s with frames := Function.update s.frames i frame }

/-- The promise of a task changes. -/
def setPromise (s : State ι τ) (i : ι) (promise : Promise) : State ι τ :=
  { s with promises := Function.update s.promises i promise }

/-- A token changes. -/
def setToken (s : State ι τ) (t : τ) (token : Token ι) : State ι τ :=
  { s with tokens := Function.update s.tokens t token }

/-- The callback of a task touches its frame. -/
def touch (s : State ι τ) (i : ι) : State ι τ :=
  { s with dangling := if s.frames i = .destroyed then s.dangling ++ [i] else s.dangling }

/-- The first part of a callback: the result, unless there is one. -/
def setResult (s : State ι τ) (i : ι) : State ι τ :=
  (s.touch i).setPromise i
    { s.promises i with
      result := match (s.promises i).result with
        | none => some .cancelled
        | some r => some r }

/-- The second part of a callback: the continuation is scheduled, if there is one. -/
def resumeContinuation (s : State ι τ) (i : ι) (scheduler : Bool) : State ι τ :=
  (s.touch i).setPromise i
    { s.promises i with
      resumed := (s.promises i).resumed +
        if (s.promises i).continuation && scheduler then 1 else 0 }

end State

/-- `set_cancellation_token` of task `i`, with the mutex of the token locked. -/
def registerWith (s : State ι τ) (i : ι) (t : τ) : State ι τ :=
  let token := s.tokens t
  if token.cancelled then s.setToken t { token with call := some ⟨[i], none, false⟩ }
  else s.setToken t { token with callbacks := token.callbacks ++ [i] }

/-- `cancel`, with the mutex of the token locked. -/
def cancel (s : State ι τ) (t : τ) : State ι τ :=
  let token := s.tokens t
  if token.cancelled then s
  else s.setToken t { token with cancelled := true, call := some ⟨token.callbacks, none, true⟩ }

/-- The next step of the call that holds the mutex of a token. -/
def callbackStep (s : State ι τ) (t : τ) (scheduler : Bool) : Option (State ι τ) :=
  match (s.tokens t).call with
  | none => none
  | some ⟨todo, some i, cancels⟩ =>
      some ((s.resumeContinuation i scheduler).setToken t
        { s.tokens t with call := some ⟨todo, none, cancels⟩ })
  | some ⟨i :: todo, none, cancels⟩ =>
      some ((s.setResult i).setToken t { s.tokens t with call := some ⟨todo, some i, cancels⟩ })
  | some ⟨[], none, cancels⟩ =>
      some (s.setToken t
        { s.tokens t with
          callbacks := if cancels then [] else (s.tokens t).callbacks
          call := none })

/-- The step function. -/
def step (s : State ι τ) : Label ι τ → Option (State ι τ)
  | .create i => if s.frames i = .absent then some (s.setFrame i .created) else none
  | .with_cancellation i t =>
      if (s.frames i).exists ∧ (s.tokens t).call = none then some (registerWith s i t) else none
  | .start i => if s.frames i = .created then some (s.setFrame i .running) else none
  | .set_continuation i =>
      if (s.frames i).exists then
        some (s.setPromise i { s.promises i with continuation := true })
      else none
  | .finish i =>
      if s.frames i = .running then
        some ((s.setFrame i .final).setPromise i { s.promises i with result := some .ended })
      else none
  | .destroy i => if (s.frames i).exists then some (s.setFrame i .destroyed) else none
  | .cancel t => if (s.tokens t).call = none then some (cancel s t) else none
  | .callback t scheduler => callbackStep s t scheduler

/-- No callback has run after the frame of its task had been destroyed, and no call that runs
callbacks has such a callback still to run. -/
structure Alive (s : State ι τ) : Prop where
  past : s.dangling = []
  pending : ∀ t call, (s.tokens t).call = some call → ∀ i ∈ call.pending, s.frames i ≠ .destroyed

/-- A token is cancelled only while the frames of the tasks registered with it exist, and a frame is
destroyed only while no call has its callback still to run or to finish. -/
def Keeps (s : State ι τ) : Label ι τ → Prop
  | .cancel t => (s.tokens t).cancelled = false →
      ∀ i ∈ (s.tokens t).callbacks, s.frames i ≠ .destroyed
  | .destroy i => ∀ t call, (s.tokens t).call = some call → i ∉ call.pending
  | _ => True

variable {s u : State ι τ} {i : ι} {t : τ}

/-! ### The steps -/

omit [DecidableEq ι] [DecidableEq τ] in
theorem Alive.initial :
  Alive (initial ι τ)
  := by
  constructor
  · rfl
  · intro t call h
    contradiction

omit [DecidableEq ι] [DecidableEq τ] in
theorem Frame.ne_destroyed {frame : Frame} (h : frame.exists = true) :
  frame ≠ .destroyed
  := by
  rintro rfl
  contradiction

omit [DecidableEq τ] in
/-- A frame changes, and is not destroyed. -/
theorem Alive.setFrame {frame : Frame} (hs : Alive s) (hframe : frame ≠ .destroyed) :
  Alive (s.setFrame i frame)
  := by
  constructor
  · apply hs.past
  · intro t call hcall j hj
    by_cases hji : j = i
    · subst hji
      simpa [State.setFrame] using hframe
    · simpa [State.setFrame, hji] using hs.pending t call hcall j hj

omit [DecidableEq τ] in
theorem Alive.setPromise {promise : Promise} (hs : Alive s) :
  Alive (s.setPromise i promise)
  := ⟨hs.past, hs.pending⟩

omit [DecidableEq τ] in
/-- A frame is destroyed that no call needs. -/
theorem Alive.destroy (hs : Alive s) (h : Keeps s (.destroy i)) :
  Alive (s.setFrame i .destroyed)
  := by
  constructor
  · apply hs.past
  · intro t call hcall j hj
    have hji : j ≠ i := by
      rintro rfl
      apply h t call hcall hj
    simpa [State.setFrame, hji] using hs.pending t call hcall j hj

omit [DecidableEq ι] in
/-- A token changes; the callbacks its call has to run are those of existing frames. -/
theorem Alive.setToken {token : Token ι} (hs : Alive s)
    (h : ∀ call, token.call = some call → ∀ i ∈ call.pending, s.frames i ≠ .destroyed) :
  Alive (s.setToken t token)
  := by
  constructor
  · apply hs.past
  · intro t' call hcall j hj
    by_cases ht : t' = t
    · subst ht
      apply h call _ j hj
      simpa [State.setToken] using hcall
    · apply hs.pending t' call _ j hj
      simpa [State.setToken, ht] using hcall

omit [DecidableEq ι] [DecidableEq τ] in
/-- A callback touches a frame that exists. -/
theorem Alive.touch (hs : Alive s) (hi : s.frames i ≠ .destroyed) :
  Alive (s.touch i)
  := by
  have htouch : s.touch i = s := by
    simp [State.touch, hi]
  rw [htouch]
  apply hs

/-- A part of a callback. -/
theorem Alive.callback {scheduler : Bool} (hs : Alive s) (h : callbackStep s t scheduler = some u) :
  Alive u
  := by
  have hpending := hs.pending t
  cases hcall : (s.tokens t).call with
  | none => simp [callbackStep, hcall] at h
  | some call =>
      obtain ⟨todo, entered, cancels⟩ := call
      have hframes := hpending _ hcall
      cases entered with
      | some i =>
          simp only [callbackStep, hcall, Option.some.injEq] at h
          subst h
          have hi : s.frames i ≠ .destroyed := by
            apply hframes i
            simp [Call.pending]
          apply (hs.touch hi).setPromise.setToken
          intro call heq j hj
          obtain rfl := Option.some.inj heq
          apply hframes j
          simp only [Call.pending, Option.toList_none, List.nil_append] at hj
          simp [Call.pending, hj]
      | none =>
          cases todo with
          | nil =>
              simp only [callbackStep, hcall, Option.some.injEq] at h
              subst h
              apply hs.setToken
              intro call heq
              contradiction
          | cons i todo =>
              simp only [callbackStep, hcall, Option.some.injEq] at h
              subst h
              have hi : s.frames i ≠ .destroyed := by
                apply hframes i
                simp [Call.pending]
              apply (hs.touch hi).setPromise.setToken
              intro call heq j hj
              obtain rfl := Option.some.inj heq
              apply hframes j
              simpa [Call.pending] using hj

/-- A step that meets the condition preserves `Alive`. -/
theorem Alive.step {a : Label ι τ} (hs : Alive s) (ha : Keeps s a) (h : step s a = some u) :
  Alive u
  := by
  cases a with
  | create i | start i =>
      simp only [Registering.step, Option.ite_none_right_eq_some, Option.some.injEq] at h
      obtain ⟨-, rfl⟩ := h
      apply hs.setFrame
      simp
  | set_continuation i =>
      simp only [Registering.step, Option.ite_none_right_eq_some, Option.some.injEq] at h
      obtain ⟨-, rfl⟩ := h
      apply hs.setPromise
  | finish i =>
      simp only [Registering.step, Option.ite_none_right_eq_some, Option.some.injEq] at h
      obtain ⟨-, rfl⟩ := h
      apply Alive.setPromise
      apply hs.setFrame
      simp
  | destroy i =>
      simp only [Registering.step, Option.ite_none_right_eq_some, Option.some.injEq] at h
      obtain ⟨-, rfl⟩ := h
      apply hs.destroy ha
  | with_cancellation i t =>
      simp only [Registering.step, Option.ite_none_right_eq_some, Option.some.injEq] at h
      obtain ⟨⟨hi, hfree⟩, rfl⟩ := h
      rw [registerWith]
      split
      · apply hs.setToken
        intro call heq j hj
        obtain rfl := Option.some.inj heq
        obtain rfl : j = i := by simpa [Call.pending] using hj
        apply Frame.ne_destroyed hi
      · apply hs.setToken
        intro call heq
        simp only [hfree] at heq
        contradiction
  | cancel t =>
      simp only [Registering.step, Option.ite_none_right_eq_some, Option.some.injEq] at h
      obtain ⟨hfree, rfl⟩ := h
      rw [cancel]
      split
      · apply hs
      · rename_i hcancelled
        apply hs.setToken
        intro call heq j hj
        obtain rfl := Option.some.inj heq
        apply ha (by simpa using hcancelled)
        simpa [Call.pending] using hj
  | callback t scheduler => apply hs.callback h

/-- A step that does not meet the condition leaves a call with a callback to run whose frame is
destroyed. -/
theorem not_alive_of_loss {a : Label ι τ} (ha : ¬ Keeps s a) (h : step s a = some u) :
  ¬ Alive u
  := by
  intro hu
  cases a with
  | cancel t =>
      simp only [Keeps, Classical.not_imp, not_forall, not_not] at ha
      obtain ⟨hcancelled, i, hi, hdestroyed⟩ := ha
      simp only [Registering.step, Option.ite_none_right_eq_some, Option.some.injEq] at h
      obtain ⟨-, rfl⟩ := h
      simp only [cancel, hcancelled, Bool.false_eq_true, if_false] at hu
      apply hu.pending t ⟨(s.tokens t).callbacks, none, true⟩ _ i _ hdestroyed
      · simp [State.setToken]
      · simpa [Call.pending] using hi
  | destroy i =>
      simp only [Keeps, not_forall, not_not] at ha
      obtain ⟨t, call, hcall, hi⟩ := ha
      simp only [Registering.step, Option.ite_none_right_eq_some, Option.some.injEq] at h
      obtain ⟨-, rfl⟩ := h
      apply hu.pending t call hcall i hi
      simp [State.setFrame]
  | create i | with_cancellation i t | start i | set_continuation i | finish i | callback t b =>
      exact ha trivial

/-- What a part of a callback does to the notes, or the end of a call. -/
theorem callbackStep_cases {call : Call ι} (hcall : (s.tokens t).call = some call) :
  ∃ u, callbackStep s t true = some u ∧ u.frames = s.frames ∧
    ((call.pending = [] ∧ u.dangling = s.dangling) ∨
      ∃ i call', (u.tokens t).call = some call' ∧
        u.dangling = (s.touch i).dangling ∧
        ((call.entered = none ∧ call.todo = i :: call'.todo ∧ call'.entered = some i) ∨
          (call.entered = some i ∧ call.todo = call'.todo ∧ call'.entered = none)))
  := by
  obtain ⟨todo, entered, cancels⟩ := call
  cases entered with
  | some i =>
      refine ⟨(s.resumeContinuation i true).setToken t
        { s.tokens t with call := some ⟨todo, none, cancels⟩ }, ?_, rfl, ?_⟩
      · simp only [callbackStep, hcall]
      · right
        refine ⟨i, ⟨todo, none, cancels⟩, ?_, rfl, ?_⟩
        · simp [State.setToken]
        · right
          exact ⟨rfl, rfl, rfl⟩
  | none =>
      cases todo with
      | nil =>
          refine ⟨s.setToken t
            { s.tokens t with
              callbacks := if cancels then [] else (s.tokens t).callbacks
              call := none }, ?_, rfl, ?_⟩
          · simp only [callbackStep, hcall]
          · left
            exact ⟨rfl, rfl⟩
      | cons i todo =>
          refine ⟨(s.setResult i).setToken t
            { s.tokens t with call := some ⟨todo, some i, cancels⟩ }, ?_, rfl, ?_⟩
          · simp only [callbackStep, hcall]
          · right
            refine ⟨i, ⟨todo, some i, cancels⟩, ?_, rfl, ?_⟩
            · simp [State.setToken]
            · left
              exact ⟨rfl, rfl, rfl⟩

/-- A call with the callback of a destroyed frame to run can go on to run it. -/
theorem exists_dangling (n : ℕ) :
  ∀ {s : State ι τ} {call : Call ι}, (s.tokens t).call = some call →
    2 * call.todo.length + call.entered.toList.length = n →
    (∃ i ∈ call.pending, s.frames i = .destroyed) →
    ∃ as u, Run step Free s as u ∧ u.dangling ≠ []
  := by
  induction n with
  | zero =>
      intro s call _ hlength ⟨i, hi, _⟩
      have hnil : call.pending = [] := by
        apply List.eq_nil_of_length_eq_zero
        simp only [Call.pending, List.length_append]
        omega
      rw [hnil] at hi
      contradiction
  | succ n ih =>
      intro s call hcall hlength ⟨i, hi, hframe⟩
      obtain ⟨u, hstep, hframes, ⟨hnil, -⟩ | ⟨j, call', hcall', hdangling, hcases⟩⟩ :=
        callbackStep_cases hcall
      · rw [hnil] at hi
        contradiction
      · have hrun : Run step Free s [.callback t true] u := Run.single hstep trivial
        by_cases hj : s.frames j = .destroyed
        · refine ⟨_, u, hrun, ?_⟩
          simp [hdangling, State.touch, hj]
        · have hij : i ≠ j := by
            rintro rfl
            contradiction
          obtain ⟨bs, v, hrest, hne⟩ : ∃ bs v, Run step Free u bs v ∧ v.dangling ≠ [] := by
            apply ih hcall'
            · obtain ⟨hentered, htodo, hentered'⟩ | ⟨hentered, htodo, hentered'⟩ := hcases <;>
                simp only [hentered, htodo, hentered', Option.toList, List.length_cons,
                  List.length_nil] at hlength ⊢ <;>
                omega
            · refine ⟨i, ?_, by rw [hframes, hframe]⟩
              obtain ⟨hentered, htodo, hentered'⟩ | ⟨hentered, htodo, hentered'⟩ := hcases <;>
                simpa [Call.pending, hentered, htodo, hentered', hij] using hi
          exact ⟨_, v, hrun.trans hrest, hne⟩

/-- After a step that does not meet the condition a callback can run on a destroyed frame. -/
theorem exists_dangling_of_loss {a : Label ι τ} (ha : ¬ Keeps s a) (h : step s a = some u) :
  ∃ as v, Run step Free u as v ∧ v.dangling ≠ []
  := by
  have halive := not_alive_of_loss ha h
  by_contra hnone
  apply halive
  constructor
  · by_contra hne
    apply hnone
    exact ⟨[], u, .nil u, hne⟩
  · intro t call hcall i hi hframe
    apply hnone
    apply exists_dangling _ hcall rfl
    exact ⟨i, hi, hframe⟩

/-- In a run no callback runs, or is still to be run by a call, after the frame of its task has been
destroyed, exactly when tokens are cancelled only while the frames of their tasks exist and frames
are destroyed only while no call needs them. -/
theorem alive_iff_keeps {as : List (Label ι τ)} :
  Run step (Visits Alive) (initial ι τ) as s ↔ Run step (Meets Keeps) (initial ι τ) as s
  := by
  apply Run.visits_iff_meets Alive _ _ _ Alive.initial
  · intro s a u hs ha h
    apply hs.step ha h
  · intro s hs
    apply hs
  · intro s a u _ ha h
    apply not_alive_of_loss ha h

/-- A task is registered with a token, runs to its end and is destroyed; then the token is
cancelled. -/
theorem runs_after_destruction :
  ∃ as s, Run step Free (initial (Fin 1) (Fin 1)) as s ∧
    s.frames 0 = .destroyed ∧ s.dangling = [0, 0] ∧ ¬ Alive s
  := by
  obtain ⟨s, hrun, hframe, hdangling⟩ : ∃ s, Run step Free (initial (Fin 1) (Fin 1))
      [.create 0, .with_cancellation 0 0, .start 0, .finish 0, .destroy 0, .cancel 0,
        .callback 0 true, .callback 0 true, .callback 0 true] s ∧
      s.frames 0 = .destroyed ∧ s.dangling = [0, 0] := by
    apply exists_run_of_exec
    decide
  refine ⟨_, s, hrun, hframe, hdangling, ?_⟩
  intro halive
  have hnone := halive.past
  rw [hdangling] at hnone
  contradiction

end Registering

end Koroutine
