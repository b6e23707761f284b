import Koroutine.Engine.Iocp
import Koroutine.Transition.Run

/-!
# Completions of `IOCPIOEngine`

An operation that has been registered is completed by whoever erases it from `in_flight_ops_`:
`run`, `stop`, or `submit` where the call has failed.  But several exits of `submit` complete the
operation and leave it registered, and where `stop` has come before the failure of a call, `submit`
completes the operation a second time.
-/

open Transition

namespace Koroutine.Iocp

variable {ι : Type*}

/-! ### The life of an operation -/

/-- What matters of an operation: its stage, whether it is registered, how often it has been
completed, and whether `run` is about to complete it. -/
structure Life where
  stage : Stage
  in_flight : Bool
  completions : ℕ
  completing : Bool

/-- The thread in `run` is about to complete operation `o`. -/
def Pc.completes [DecidableEq ι] (pc : Pc ι) (o : ι) : Bool :=
  match pc with
  | .completing o' _ => o' = o
  | _ => false

/-- The life of operation `o` so far. -/
def State.life [DecidableEq ι] (s : State ι) (o : ι) : Life :=
  ⟨s.stage o, s.in_flight_ops o, (s.op o).completions, s.pc.completes o⟩

/-- The operation has a call pending in the system, or a packet on its way through the port. -/
inductive Awaits (s : State ι) (o : ι) : Prop
  | pending (h : s.pending o = true)
  | posted {packet : Packet ι} (h : packet ∈ s.port) (ho : packet.overlapped = some o)
  | looking {packet : Packet ι} (h : s.pc = .looking o packet)
  | completing {packet : Packet ι} (h : s.pc = .completing o packet)

/-- `submit` completes the operation in the switch over its type, and leaves it registered. -/
def GivesUp (s : State ι) (o : ι) (accept_sock : Option ℕ) : Prop :=
  match (s.op o).type with
  | .accept =>
      s.extensions.lpAcceptEx = false ∨ s.extensions.lpGetAcceptExSockaddrs = false ∨
        accept_sock = none
  | .connect => s.extensions.lpConnectEx = false
  | .open => True
  | .read | .write | .recvfrom | .sendto | .close => False

/-- `submit` does not complete an operation in the switch over its type, and where it completes one
after the call has failed, `stop` has not done so. -/
def Settles (s : State ι) : Label ι → Prop
  | .call o accept_sock _ => ¬ GivesUp s o accept_sock
  | .fail o => s.in_flight_ops o = true
  | _ => True

variable [DecidableEq ι]

/-- What a step can do to operation `o`. -/
inductive Change (s : State ι) (a : Label ι) (o : ι) : Life → Prop
  | same : Change s a o (s.life o)
  | refuse (before : s.stage o = .unsubmitted) (stopped : s.running = false) :
      Change s a o { s.life o with
        stage := .completed, completions := (s.op o).completions + 1 }
  | enter (before : s.stage o = .unsubmitted) : Change s a o { s.life o with stage := .admitted }
  | register (before : s.stage o = .admitted) :
      Change s a o { s.life o with stage := .registered, in_flight := true }
  | start (before : s.stage o = .registered) : Change s a o { s.life o with stage := .submitted }
  | failCall (before : s.stage o = .registered) : Change s a o { s.life o with stage := .failing }
  | giveUp (before : s.stage o = .registered) (gives_up : ¬ Settles s a) :
      Change s a o { s.life o with
        stage := .completed, completions := (s.op o).completions + 1 }
  | fail (before : s.stage o = .failing) (late : Settles s a ↔ s.in_flight_ops o = true) :
      Change s a o { s.life o with
        stage := .completed, in_flight := false, completions := (s.op o).completions + 1 }
  | erase (awaits : Awaits s o) (registered : s.in_flight_ops o = true)
      (before : s.pc.completes o = false) :
      Change s a o { s.life o with in_flight := false, completing := true }
  | complete (awaits : Awaits s o) (before : s.pc.completes o = true) :
      Change s a o { s.life o with
        completions := (s.op o).completions + 1, completing := false }
  | cancel (registered : s.in_flight_ops o = true) (stopping : 0 < s.stopping) :
      Change s a o { s.life o with
        in_flight := false, completions := (s.op o).completions + 1 }

variable {s t : State ι} {a : Label ι} {o : ι}

/-- A step that leaves the life of an operation as it is. -/
theorem Change.of_same (h : t.life o = s.life o) :
  Change s a o (t.life o)
  := by
  rw [h]
  apply Change.same

/-- A step that is an operation's own leaves the others as they are. -/
theorem change_of_own (o₀ : ι) (hother : ∀ o, o ≠ o₀ → t.life o = s.life o)
    (hown : Change s a o₀ (t.life o₀)) (o : ι) :
  Change s a o (t.life o)
  := by
  by_cases ho : o = o₀
  · rw [ho]
    apply hown
  · apply Change.of_same (hother o ho)

/-- The call is made. -/
theorem change_attempt {u : State ι} {o₀ : ι} {started : Bool} (hu : ∀ o, u.life o = s.life o)
    (hstage : s.stage o₀ = .registered) (o : ι) :
  Change s a o ((u.attempt o₀ started).life o)
  := by
  apply change_of_own o₀
  · intro o ho
    rw [← hu]
    cases started <;> simp [State.life, State.attempt, State.goTo, ho]
  · cases started with
    | true =>
        have hlife : (u.attempt o₀ true).life o₀ = { s.life o₀ with stage := .submitted } := by
          rw [← hu]
          simp [State.life, State.attempt]
        rw [hlife]
        apply Change.start hstage
    | false =>
        have hlife : (u.attempt o₀ false).life o₀ = { s.life o₀ with stage := .failing } := by
          rw [← hu]
          simp [State.life, State.attempt, State.goTo]
        rw [hlife]
        apply Change.failCall hstage

/-- The operation is completed without being called. -/
theorem change_giveUp {u : State ι} {o₀ : ι} {error : ErrorCode} (hu : ∀ o, u.life o = s.life o)
    (hstage : s.stage o₀ = .registered) (hgives : ¬ Settles s a) (o : ι) :
  Change s a o ((u.giveUp o₀ error).life o)
  := by
  apply change_of_own o₀
  · intro o ho
    rw [← hu]
    simp [State.life, State.giveUp, ho]
  · have hlife : (u.giveUp o₀ error).life o₀ = { s.life o₀ with
        stage := .completed, completions := (s.op o₀).completions + 1 } := by
      have hcompletions : (u.op o₀).completions = (s.op o₀).completions :=
        congrArg Life.completions (hu o₀)
      rw [← hcompletions, ← hu]
      simp [State.life, State.giveUp, Op.completeWith]
    rw [hlife]
    apply Change.giveUp hstage hgives

/-- The same, up to the results in the operations. -/
structure Alike (u s : State ι) : Prop where
  life : ∀ o, u.life o = s.life o
  pending : u.pending = s.pending
  port : u.port = s.port
  pc : u.pc = s.pc

theorem Alike.refl (s : State ι) :
  Alike s s
  := ⟨fun _ => rfl, rfl, rfl, rfl⟩

theorem alike_setSocket {o₀ : ι} {accept_sock : Option ℕ} :
  Alike (s.setSocket o₀ accept_sock) s
  := by
  refine ⟨?_, rfl, rfl, rfl⟩
  intro o
  by_cases ho : o = o₀
  · subst ho
    simp [State.life, State.setSocket]
  · simp [State.life, State.setSocket, ho]

/-- The exits of the switch that complete the operation. -/
theorem call_of_givesUp {o₀ : ι} {accept_sock : Option ℕ} (h : GivesUp s o₀ accept_sock)
    (started : Bool) :
  ∃ u error, Alike u s ∧ call s o₀ accept_sock started = u.giveUp o₀ error
  := by
  unfold call
  cases htype : (s.op o₀).type with
  | read | write | recvfrom | sendto | close => simp [GivesUp, htype] at h
  | accept =>
      simp only [GivesUp, htype] at h
      simp only
      split
      · exact ⟨s, _, .refl s, rfl⟩
      · rename_i hextensions
        have hsocket : accept_sock = none := by
          obtain h | h | h := h
          · apply absurd (.inl h) hextensions
          · apply absurd (.inr h) hextensions
          · apply h
        rw [if_pos hsocket]
        exact ⟨_, _, alike_setSocket, rfl⟩
  | connect =>
      simp only [GivesUp, htype] at h
      simp only [h, if_true]
      exact ⟨s, _, .refl s, rfl⟩
  | «open» => exact ⟨s, _, .refl s, rfl⟩

/-- The switch makes the call, posts a packet, or gives up. -/
theorem call_cases (s : State ι) (o₀ : ι) (accept_sock : Option ℕ) (started : Bool) :
  (GivesUp s o₀ accept_sock ∧
      ∃ u error, Alike u s ∧ call s o₀ accept_sock started = u.giveUp o₀ error) ∨
    (∃ u, Alike u s ∧ call s o₀ accept_sock started = u.attempt o₀ started) ∨
    call s o₀ accept_sock started = s.close o₀
  := by
  by_cases hgives : GivesUp s o₀ accept_sock
  · left
    exact ⟨hgives, call_of_givesUp hgives started⟩
  · right
    unfold call
    cases htype : (s.op o₀).type with
    | read | write | recvfrom | sendto =>
        left
        exact ⟨s, .refl s, rfl⟩
    | accept =>
        left
        simp only [GivesUp, htype, not_or] at hgives
        obtain ⟨haccept, haddresses, hsocket⟩ := hgives
        simp only [haccept, haddresses, hsocket, or_self, if_false]
        exact ⟨_, alike_setSocket, rfl⟩
    | connect =>
        left
        simp only [GivesUp, htype] at hgives
        simp only [hgives]
        exact ⟨s, .refl s, rfl⟩
    | close =>
        right
        rfl
    | «open» => simp [GivesUp, htype] at hgives

theorem change_call {o₀ : ι} {accept_sock : Option ℕ} {started : Bool}
    (hstage : s.stage o₀ = .registered) (o : ι) :
  Change s (.call o₀ accept_sock started) o ((call s o₀ accept_sock started).life o)
  := by
  obtain ⟨hgives, u, error, hu, heq⟩ | ⟨u, hu, heq⟩ | heq := call_cases s o₀ accept_sock started
  · rw [heq]
    apply change_giveUp hu.life hstage
    intro hsettles
    apply hsettles hgives
  · rw [heq]
    apply change_attempt hu.life hstage
  · rw [heq]
    apply change_of_own o₀
    · intro o ho
      simp [State.life, State.close, State.goTo, ho]
    · have hlife : (s.close o₀).life o₀ = { s.life o₀ with stage := .submitted } := by
        simp [State.life, State.close, State.goTo]
      rw [hlife]
      apply Change.start hstage

theorem change_submit {o₀ : ι} (h : step s (.submit o₀) = some t) (o : ι) :
  Change s (.submit o₀) o (t.life o)
  := by
  simp only [step, Option.ite_none_right_eq_some, Option.some.injEq] at h
  obtain ⟨hstage, rfl⟩ := h
  split
  · apply change_of_own o₀
    · intro o ho
      simp [State.life, State.goTo, ho]
    · have hlife : (s.goTo o₀ .admitted).life o₀ = { s.life o₀ with stage := .admitted } := by
        simp [State.life, State.goTo]
      rw [hlife]
      apply Change.enter hstage
  · rename_i hstopped
    apply change_of_own o₀
    · intro o ho
      simp [State.life, State.giveUp, ho]
    · have hlife : (s.giveUp o₀ .operation_canceled).life o₀ = { s.life o₀ with
          stage := .completed, completions := (s.op o₀).completions + 1 } := by
        simp [State.life, State.giveUp, Op.completeWith]
      rw [hlife]
      apply Change.refuse hstage (Bool.eq_false_iff.mpr hstopped)

theorem change_run (h : runStep s = some t) (o : ι) :
  Change s .run o (t.life o)
  := by
  unfold runStep at h
  cases hpc : s.pc with
  | checking =>
      simp only [hpc, Option.some.injEq] at h
      subst h
      apply Change.of_same
      cases s.running <;> simp [State.life, Pc.completes, hpc]
  | waiting =>
      simp only [hpc] at h
      split at h
      · contradiction
      · split at h <;>
        · obtain rfl := Option.some.inj h
          apply Change.of_same
          simp [State.life, Pc.completes, hpc]
  | looking o₀ packet =>
      simp only [hpc] at h
      split at h
      · rename_i hregistered
        obtain rfl := Option.some.inj h
        apply change_of_own o₀
        · intro o ho
          simp [State.life, Pc.completes, hpc, ho, ho.symm]
        · have hlife : State.life { s with
              in_flight_ops := Function.update s.in_flight_ops o₀ false
              pc := .completing o₀ packet } o₀ =
              { s.life o₀ with in_flight := false, completing := true } := by
            simp [State.life, Pc.completes]
          rw [hlife]
          apply Change.erase (.looking hpc) hregistered
          simp [Pc.completes, hpc]
      · obtain rfl := Option.some.inj h
        apply Change.of_same
        simp [State.life, Pc.completes, hpc]
  | completing o₀ packet =>
      simp only [hpc, Option.some.injEq] at h
      subst h
      apply change_of_own o₀
      · intro o ho
        simp [State.life, Pc.completes, hpc, ho, ho.symm]
      · have hlife : State.life { s with
            op := Function.update s.op o₀ ((s.op o₀).finish packet), pc := .checking } o₀ =
            { s.life o₀ with
              completions := (s.op o₀).completions + 1, completing := false } := by
          cases hresult : packet.result <;>
            simp [State.life, Pc.completes, Op.finish, hresult]
        rw [hlife]
        apply Change.complete (.completing hpc)
        simp [Pc.completes, hpc]
  | returned => simp [hpc] at h

/-- What every step does to an operation. -/
theorem change_step (h : step s a = some t) (o : ι) :
  Change s a o (t.life o)
  := by
  cases a with
  | submit o₀ => apply change_submit h
  | register o₀ =>
      simp only [step, Option.ite_none_right_eq_some, Option.some.injEq] at h
      obtain ⟨hstage, rfl⟩ := h
      apply change_of_own o₀
      · intro o ho
        simp [State.life, State.goTo, ho]
      · have hlife : State.life { s.goTo o₀ .registered with
            in_flight_ops := Function.update s.in_flight_ops o₀ true } o₀ =
            { s.life o₀ with stage := .registered, in_flight := true } := by
          simp [State.life, State.goTo]
        rw [hlife]
        apply Change.register hstage
  | call o₀ accept_sock started =>
      simp only [step, Option.ite_none_right_eq_some, Option.some.injEq] at h
      obtain ⟨hstage, rfl⟩ := h
      apply change_call hstage
  | fail o₀ =>
      simp only [step, Option.ite_none_right_eq_some, Option.some.injEq] at h
      obtain ⟨hstage, rfl⟩ := h
      apply change_of_own o₀
      · intro o ho
        simp [State.life, State.giveUp, ho]
      · have hlife : State.life { s.giveUp o₀ .io_error with
            in_flight_ops := Function.update s.in_flight_ops o₀ false } o₀ =
            { s.life o₀ with
              stage := .completed, in_flight := false,
              completions := (s.op o₀).completions + 1 } := by
          simp [State.life, State.giveUp, Op.completeWith]
        rw [hlife]
        apply Change.fail hstage Iff.rfl
  | answer o₀ result bytes_transferred =>
      simp only [step, Option.ite_none_right_eq_some, Option.some.injEq] at h
      obtain ⟨-, rfl⟩ := h
      apply Change.of_same rfl
  | run => apply change_run h
  | timeout =>
      simp only [step, Option.ite_none_right_eq_some, Option.some.injEq] at h
      obtain ⟨hpc, rfl⟩ := h
      apply Change.of_same
      simp [State.life, Pc.completes, hpc]
  | stop =>
      obtain rfl := Option.some.inj h
      apply Change.of_same rfl
  | cancel =>
      simp only [step, Option.ite_none_right_eq_some, Option.some.injEq] at h
      obtain ⟨hstopping, rfl⟩ := h
      cases hregistered : s.in_flight_ops o with
      | true =>
          have hlife : (cancelAll s).life o = { s.life o with
              in_flight := false, completions := (s.op o).completions + 1 } := by
            simp [State.life, cancelAll, hregistered, Op.completeWith]
          rw [hlife]
          apply Change.cancel hregistered hstopping
      | false =>
          apply Change.of_same
          simp [State.life, cancelAll, hregistered]

/-! ### Calls and packets -/

omit [DecidableEq ι] in
theorem Awaits.of_same (h : Awaits t o) (hpending : t.pending = s.pending) (hport : t.port = s.port)
    (hpc : t.pc = s.pc) :
  Awaits s o
  := by
  cases h with
  | pending h => exact .pending (hpending ▸ h)
  | posted h ho => exact .posted (hport ▸ h) ho
  | looking h => exact .looking (hpc ▸ h)
  | completing h => exact .completing (hpc ▸ h)

/-- Only a call that is made and has not failed is awaited. -/
theorem awaits_attempt {u : State ι} {o₀ : ι} {started : Bool} (hu : Alike u s)
    (h : Awaits (u.attempt o₀ started) o) :
  Awaits s o ∨ (u.attempt o₀ started).stage o = .submitted
  := by
  cases started with
  | false =>
      left
      exact h.of_same hu.pending hu.port hu.pc
  | true =>
      by_cases ho : o = o₀
      · right
        simp [State.attempt, ho]
      · left
        cases h with
        | pending h =>
            simp only [State.attempt, if_true, Function.update_of_ne ho, hu.pending] at h
            exact .pending h
        | posted h ho => exact .posted (hu.port ▸ h) ho
        | looking h => exact .looking (hu.pc ▸ h)
        | completing h => exact .completing (hu.pc ▸ h)

/-- An operation whose packet `CLOSE` has posted. -/
theorem awaits_close {o₀ : ι} (h : Awaits (s.close o₀) o) :
  Awaits s o ∨ (s.close o₀).stage o = .submitted
  := by
  by_cases ho : o = o₀
  · right
    simp [State.close, State.goTo, ho]
  · left
    cases h with
    | pending h => exact .pending h
    | looking h => exact .looking h
    | completing h => exact .completing h
    | posted h hpacket =>
        simp only [State.close] at h
        split at h
        · rw [List.mem_append, List.mem_singleton] at h
          obtain hold | rfl := h
          · exact .posted hold hpacket
          · apply absurd (Option.some.inj hpacket).symm ho
        · exact .posted h hpacket

theorem awaits_run (hrun : runStep s = some t) (h : Awaits t o) :
  Awaits s o
  := by
  unfold runStep at hrun
  cases hpc : s.pc with
  | checking =>
      simp only [hpc, Option.some.injEq] at hrun
      subst hrun
      cases h with
      | pending h => exact .pending h
      | posted h ho => exact .posted h ho
      | looking h => cases hrunning : s.running <;> simp [hrunning] at h
      | completing h => cases hrunning : s.running <;> simp [hrunning] at h
  | waiting =>
      simp only [hpc] at hrun
      split at hrun
      · contradiction
      · rename_i packet port hport
        split at hrun
        · obtain rfl := Option.some.inj hrun
          cases h with
          | pending h => exact .pending h
          | posted h ho => exact .posted (hport ▸ List.mem_cons_of_mem _ h) ho
          | looking h => contradiction
          | completing h => contradiction
        · rename_i o₀ hpacket
          obtain rfl := Option.some.inj hrun
          cases h with
          | pending h => exact .pending h
          | posted h ho => exact .posted (hport ▸ List.mem_cons_of_mem _ h) ho
          | looking h =>
              obtain ⟨rfl, rfl⟩ : o₀ = o ∧ _ := by simpa using h
              exact .posted (hport ▸ List.mem_cons_self) hpacket
          | completing h => contradiction
  | looking o₀ packet =>
      simp only [hpc] at hrun
      split at hrun
      · obtain rfl := Option.some.inj hrun
        cases h with
        | pending h => exact .pending h
        | posted h ho => exact .posted h ho
        | looking h => contradiction
        | completing h =>
            obtain ⟨rfl, -⟩ : o₀ = o ∧ _ := by simpa using h
            exact .looking hpc
      · obtain rfl := Option.some.inj hrun
        cases h with
        | pending h => exact .pending h
        | posted h ho => exact .posted h ho
        | looking h => contradiction
        | completing h => contradiction
  | completing o₀ packet =>
      simp only [hpc, Option.some.injEq] at hrun
      subst hrun
      cases h with
      | pending h => exact .pending h
      | posted h ho => exact .posted h ho
      | looking h => contradiction
      | completing h => contradiction
  | returned => simp [hpc] at hrun

/-- A step makes nothing awaited but what has been submitted. -/
theorem awaits_step (hstep : step s a = some t) (h : Awaits t o) :
  Awaits s o ∨ t.stage o = .submitted
  := by
  cases a with
  | submit o₀ =>
      simp only [step, Option.ite_none_right_eq_some, Option.some.injEq] at hstep
      obtain ⟨-, rfl⟩ := hstep
      left
      split at h <;> exact h.of_same rfl rfl rfl
  | register o₀ | fail o₀ =>
      simp only [step, Option.ite_none_right_eq_some, Option.some.injEq] at hstep
      obtain ⟨-, rfl⟩ := hstep
      left
      exact h.of_same rfl rfl rfl
  | call o₀ accept_sock started =>
      simp only [step, Option.ite_none_right_eq_some, Option.some.injEq] at hstep
      obtain ⟨-, rfl⟩ := hstep
      obtain ⟨-, u, error, hu, heq⟩ | ⟨u, hu, heq⟩ | heq := call_cases s o₀ accept_sock started
      · rw [heq] at h
        left
        exact h.of_same hu.pending hu.port hu.pc
      · rw [heq] at h ⊢
        apply awaits_attempt hu h
      · rw [heq] at h ⊢
        apply awaits_close h
  | answer o₀ result bytes_transferred =>
      simp only [step, Option.ite_none_right_eq_some, Option.some.injEq] at hstep
      obtain ⟨hpending, rfl⟩ := hstep
      left
      cases h with
      | pending h =>
          have ho : o ≠ o₀ := by
            rintro rfl
            simp at h
          simp only [Function.update_of_ne ho] at h
          exact .pending h
      | posted h ho =>
          rw [List.mem_append, List.mem_singleton] at h
          obtain hold | rfl := h
          · exact .posted hold ho
          · exact .pending (Option.some.inj ho ▸ hpending)
      | looking h => exact .looking h
      | completing h => exact .completing h
  | run =>
      left
      apply awaits_run hstep h
  | timeout =>
      simp only [step, Option.ite_none_right_eq_some, Option.some.injEq] at hstep
      obtain ⟨-, rfl⟩ := hstep
      left
      cases h with
      | pending h => exact .pending h
      | posted h ho => exact .posted h ho
      | looking h => contradiction
      | completing h => contradiction
  | stop =>
      obtain rfl := Option.some.inj hstep
      left
      cases h with
      | pending h => exact .pending h
      | posted h ho =>
          rw [List.mem_append, List.mem_singleton] at h
          obtain hold | rfl := h
          · exact .posted hold ho
          · contradiction
      | looking h => exact .looking h
      | completing h => exact .completing h
  | cancel =>
      simp only [step, Option.ite_none_right_eq_some, Option.some.injEq] at hstep
      obtain ⟨-, rfl⟩ := hstep
      left
      exact h.of_same rfl rfl rfl

/-! ### Who completes an operation -/

/-- How often an operation that has got so far in `submit` is to be completed. -/
def Stage.claims : Stage → ℕ
  | .unsubmitted | .admitted => 0
  | .registered | .failing | .submitted | .completed => 1

/-- An operation that `submit` has not completed is registered, about to be completed, or has been
completed. -/
structure Life.Counted (l : Life) : Prop where
  once : l.stage ≠ .completed →
    l.in_flight.toNat + l.completing.toNat + l.completions = l.stage.claims
  completed : l.stage = .completed → 1 ≤ l.completions
  completing : l.completing = true → l.stage = .submitted

/-- An operation that `submit` has completed has been completed once, and is not registered. -/
structure Life.Settled (l : Life) : Prop where
  once : l.stage = .completed → l.completions = 1
  erased : l.stage = .completed → l.in_flight = false

/-- Every operation is counted, and what is awaited has been submitted. -/
structure Registered (s : State ι) : Prop where
  counted : ∀ o, (s.life o).Counted
  submitted : ∀ o, Awaits s o → s.stage o = .submitted

theorem Registered.initial (extensions : Extensions) (startup : Bool) (type : ι → IoUring.OpType)
    (coro_handle : ι → Bool) :
  Registered (initial extensions startup type coro_handle)
  := by
  constructor
  · intro o
    constructor <;> simp [State.life, Iocp.initial, Pc.completes, Stage.claims]
  · intro o h
    cases h <;> contradiction

/-- The count of an operation before a step. -/
theorem Life.Counted.count {x : Stage} (hs : (s.life o).Counted) (hstage : s.stage o = x)
    (hx : x ≠ .completed) :
  (s.in_flight_ops o).toNat + (s.pc.completes o).toNat + (s.op o).completions = x.claims
  := by
  subst hstage
  apply hs.once hx

/-- Every change keeps an operation counted. -/
theorem Life.Counted.change {l : Life} (hs : (s.life o).Counted)
    (hsubmitted : Awaits s o → s.stage o = .submitted) (h : Change s a o l) :
  l.Counted
  := by
  have hcompleting : s.pc.completes o = true → s.stage o = .submitted := hs.completing
  cases h with
  | same => apply hs
  | refuse before stopped | giveUp before gives_up | fail before late =>
      constructor
      · intro hne
        contradiction
      · intro _
        apply Nat.succ_pos
      · intro hc
        rw [hcompleting hc] at before
        contradiction
  | start before =>
      constructor
      · intro _
        apply hs.count before (by simp)
      · intro hc
        contradiction
      · intro _
        rfl
  | enter before | failCall before =>
      constructor
      · intro _
        apply hs.count before (by simp)
      · intro hc
        contradiction
      · intro hc
        rw [hcompleting hc] at before
        contradiction
  | register before =>
      have hcount := hs.count before (by simp)
      constructor
      · intro _
        change 1 + (s.pc.completes o).toNat + (s.op o).completions = 1
        simp only [Stage.claims] at hcount
        omega
      · intro hc
        contradiction
      · intro hc
        rw [hcompleting hc] at before
        contradiction
  | erase awaits registered before =>
      have hstage := hsubmitted awaits
      have hcount := hs.count hstage (by simp)
      constructor
      · intro _
        change 0 + 1 + (s.op o).completions = (s.stage o).claims
        rw [registered, before] at hcount
        rw [hstage, ← hcount]
        rfl
      · apply hs.completed
      · intro _
        apply hstage
  | complete awaits before =>
      have hstage := hsubmitted awaits
      have hcount := hs.count hstage (by simp)
      constructor
      · intro _
        change (s.in_flight_ops o).toNat + 0 + ((s.op o).completions + 1) = (s.stage o).claims
        rw [before, Bool.toNat_true] at hcount
        rw [hstage]
        omega
      · intro _
        apply Nat.succ_pos
      · intro hc
        contradiction
  | cancel registered stopping =>
      constructor
      · intro hne
        have hcount := hs.once hne
        change 0 + (s.pc.completes o).toNat + ((s.op o).completions + 1) = (s.stage o).claims
        simp only [State.life, registered, Bool.toNat_true] at hcount
        omega
      · intro _
        apply Nat.succ_pos
      · apply hs.completing

/-- An operation that has been submitted stays so. -/
theorem submitted_change {l : Life} (hs : s.stage o = .submitted) (h : Change s a o l) :
  l.stage = .submitted
  := by
  cases h with
  | same | erase _ _ _ | complete _ _ | cancel _ _ => apply hs
  | start before => rfl
  | refuse before _ | enter before | register before | failCall before | giveUp before _
  | fail before _ =>
      rw [hs] at before
      contradiction

/-- Every step preserves `Registered`. -/
theorem Registered.step (hs : Registered s) (h : step s a = some t) :
  Registered t
  := by
  constructor
  · intro o
    apply (hs.counted o).change (hs.submitted o) (change_step h o)
  · intro o ho
    obtain ho | ho := awaits_step h ho
    · apply submitted_change (hs.submitted o ho) (change_step h o)
    · apply ho

/-- A change by a step that settles what it completes. -/
theorem Life.Settled.change {l : Life} (hs : (s.life o).Settled) (hcounted : (s.life o).Counted)
    (hsubmitted : Awaits s o → s.stage o = .submitted) (ha : Settles s a) (h : Change s a o l) :
  l.Settled
  := by
  cases h with
  | same => apply hs
  | giveUp before gives_up => contradiction
  | refuse before stopped =>
      have hcount := hcounted.count before (by simp)
      simp only [Stage.claims, Nat.add_eq_zero_iff, Bool.toNat_eq_zero] at hcount
      constructor
      · intro _
        change (s.op o).completions + 1 = 1
        rw [hcount.2]
      · intro _
        apply hcount.1.1
  | fail before late =>
      have hcount := hcounted.count before (by simp)
      simp only [late.mp ha, Stage.claims, Bool.toNat_true] at hcount
      constructor
      · intro _
        change (s.op o).completions + 1 = 1
        omega
      · intro _
        rfl
  | enter before | start before | failCall before | register before =>
      constructor <;>
      · intro hc
        contradiction
  | erase awaits registered before | complete awaits before =>
      have hne : s.stage o ≠ .completed := by
        rw [hsubmitted awaits]
        simp
      constructor <;>
      · intro hc
        apply absurd hc hne
  | cancel registered stopping =>
      have hne : s.stage o ≠ .completed := by
        intro hc
        have herased : s.in_flight_ops o = false := hs.erased hc
        rw [registered] at herased
        contradiction
      constructor <;>
      · intro hc
        apply absurd hc hne

/-- Operations are completed at most once, and those that `submit` has completed are not
registered. -/
structure CompletedOnce (s : State ι) : Prop where
  once : ∀ o, (s.op o).completions ≤ 1
  erased : ∀ o, s.stage o = .completed → s.in_flight_ops o = false

/-- `Registered`, where what `submit` has completed is settled. -/
structure AllSettled (s : State ι) : Prop where
  registered : Registered s
  settled : ∀ o, (s.life o).Settled

theorem AllSettled.completedOnce (hs : AllSettled s) :
  CompletedOnce s
  := by
  constructor
  · intro o
    by_cases hc : s.stage o = .completed
    · apply Nat.le_of_eq ((hs.settled o).once hc)
    · have hcount := (hs.registered.counted o).count rfl hc
      have hclaims : (s.stage o).claims ≤ 1 := by
        cases s.stage o <;> simp [Stage.claims]
      omega
  · intro o
    apply (hs.settled o).erased

/-- An operation that has been registered and is still in `submit`. -/
theorem Registered.count_registered (hs : Registered s)
    (hstage : s.stage o = .registered ∨ s.stage o = .failing) :
  (s.in_flight_ops o).toNat + (s.op o).completions = 1
  := by
  have hidle : s.pc.completes o = false := by
    apply Bool.eq_false_iff.mpr
    intro hc
    have hsubmitted : s.stage o = .submitted := (hs.counted o).completing hc
    rw [hsubmitted] at hstage
    obtain hstage | hstage := hstage <;> contradiction
  have hcount : (s.in_flight_ops o).toNat + (s.pc.completes o).toNat +
      (s.op o).completions = 1 := by
    obtain hstage | hstage := hstage <;> apply (hs.counted o).count hstage (by simp)
  rw [hidle] at hcount
  apply hcount

/-- Where `submit` completes an operation that has been registered and leaves it so, or that `stop`
has completed, this is noticed at once. -/
theorem not_completedOnce_of_unsettled (hs : Registered s) (ha : ¬ Settles s a)
    (h : step s a = some t) :
  ¬ CompletedOnce t
  := by
  intro hgood
  cases a with
  | call o₀ accept_sock started =>
      simp only [step, Option.ite_none_right_eq_some, Option.some.injEq] at h
      obtain ⟨hstage, rfl⟩ := h
      have hgives : GivesUp s o₀ accept_sock := Classical.not_not.mp ha
      have hcount := hs.count_registered (.inl hstage)
      obtain ⟨u, error, hu, heq⟩ := call_of_givesUp hgives started
      have hlife := hu.life o₀
      have honce := hgood.once o₀
      have herased := hgood.erased o₀
      rw [heq] at honce herased
      simp only [State.giveUp, Op.completeWith, Function.update_self, forall_const] at honce herased
      have hin_flight : u.in_flight_ops o₀ = s.in_flight_ops o₀ := congrArg Life.in_flight hlife
      have hcompletions : (u.op o₀).completions = (s.op o₀).completions :=
        congrArg Life.completions hlife
      rw [← hin_flight, herased, ← hcompletions, Bool.toNat_false] at hcount
      omega
  | fail o₀ =>
      simp only [step, Option.ite_none_right_eq_some, Option.some.injEq] at h
      obtain ⟨hstage, rfl⟩ := h
      have hcount := hs.count_registered (.inr hstage)
      have honce := hgood.once o₀
      simp only [State.giveUp, Op.completeWith, Function.update_self] at honce
      simp only [Settles, Bool.not_eq_true] at ha
      rw [ha, Bool.toNat_false] at hcount
      omega
  | _ => apply absurd trivial ha

/-- A run goes only through states in which operations are completed at most once, and those that
`submit` has completed are not registered, exactly when `submit` never completes an operation that
it leaves registered, or that `stop` has completed. -/
theorem completed_once_iff_settles {extensions : Extensions} {startup : Bool}
    {type : ι → IoUring.OpType} {coro_handle : ι → Bool} {as : List (Label ι)} :
  Run step (Visits CompletedOnce) (initial extensions startup type coro_handle) as t ↔
    Run step (Meets Settles) (initial extensions startup type coro_handle) as t
  := by
  apply Run.visits_iff_meets AllSettled
  · intro s a u hs ha e
    constructor
    · apply hs.registered.step e
    · intro o
      apply (hs.settled o).change (hs.registered.counted o) (hs.registered.submitted o) ha
        (change_step e o)
  · intro s hs
    apply hs.completedOnce
  · intro s a u hs ha e
    apply not_completedOnce_of_unsettled hs.registered ha e
  · constructor
    · apply Registered.initial
    · intro o
      constructor <;>
      · intro hstage
        contradiction

/-- `ACCEPT` without the extension functions: `submit` completes the operation and leaves it
registered, and `stop` completes it again. -/
theorem completed_twice :
  ∃ as t, Run step Free
    (initial ⟨false, false, false⟩ true (fun _ : Unit => .accept) (fun _ => true)) as t ∧
    ¬ CompletedOnce t
  := by
  obtain ⟨t, hrun, htwice⟩ : ∃ t, Run step Free
      (initial ⟨false, false, false⟩ true (fun _ : Unit => .accept) (fun _ => true))
      [.submit (), .register (), .call () none false, .stop, .cancel] t ∧
      (t.op ()).completions = 2 := by
    apply exists_run_of_exec
    decide
  refine ⟨_, t, hrun, ?_⟩
  intro h
  have honce := h.once ()
  omega

end Koroutine.Iocp
