import Koroutine.Engine.IocpCompletion

/-!
# Stopping `IOCPIOEngine`

`stop` completes every operation that is registered.  An operation that `submit` has completed and
left registered is thereby completed twice; every other operation that has been submitted by then is
completed once.
-/

open Transition

namespace Koroutine.Iocp

variable {ι : Type*} [DecidableEq ι] {s t : State ι} {a : Label ι} {o : ι}

/-- `submit` has returned. -/
def Submitted (s : State ι) (o : ι) : Prop := s.stage o = .submitted ∨ s.stage o = .completed

/-- Only `stop` and its section change `running_` and the number of threads in `stop`. -/
theorem flags_step (h : step s a = some t) :
  (t.running = s.running ∧ t.stopping = s.stopping) ∨
    (t.running = false ∧ t.stopping = s.stopping + 1) ∨
    (t.running = s.running ∧ t.stopping = s.stopping - 1 ∧ ∀ o, t.in_flight_ops o = false)
  := by
  cases a with
  | submit o₀ =>
      simp only [step, Option.ite_none_right_eq_some, Option.some.injEq] at h
      obtain ⟨-, rfl⟩ := h
      left
      split <;> exact ⟨rfl, rfl⟩
  | register o₀ | fail o₀ | answer o₀ result bytes_transferred | timeout =>
      simp only [step, Option.ite_none_right_eq_some, Option.some.injEq] at h
      obtain ⟨-, rfl⟩ := h
      left
      exact ⟨rfl, rfl⟩
  | call o₀ accept_sock started =>
      simp only [step, call, Option.ite_none_right_eq_some, Option.some.injEq] at h
      obtain ⟨-, rfl⟩ := h
      left
      split
      · cases started <;> exact ⟨rfl, rfl⟩
      · cases started <;> exact ⟨rfl, rfl⟩
      · cases started <;> exact ⟨rfl, rfl⟩
      · cases started <;> exact ⟨rfl, rfl⟩
      · split
        · exact ⟨rfl, rfl⟩
        · split
          · exact ⟨rfl, rfl⟩
          · cases started <;> exact ⟨rfl, rfl⟩
      · split
        · exact ⟨rfl, rfl⟩
        · cases started <;> exact ⟨rfl, rfl⟩
      · exact ⟨rfl, rfl⟩
      · exact ⟨rfl, rfl⟩
  | run =>
      simp only [step, runStep] at h
      left
      split at h
      · obtain rfl := Option.some.inj h
        exact ⟨rfl, rfl⟩
      · split at h
        · contradiction
        · split at h <;>
          · obtain rfl := Option.some.inj h
            exact ⟨rfl, rfl⟩
      · split at h <;>
        · obtain rfl := Option.some.inj h
          exact ⟨rfl, rfl⟩
      · obtain rfl := Option.some.inj h
        exact ⟨rfl, rfl⟩
      · contradiction
  | stop =>
      obtain rfl := Option.some.inj h
      right
      left
      exact ⟨rfl, rfl⟩
  | cancel =>
      simp only [step, Option.ite_none_right_eq_some, Option.some.injEq] at h
      obtain ⟨-, rfl⟩ := h
      right
      right
      exact ⟨rfl, rfl, fun _ => rfl⟩

/-- After `stop` has been called: an operation that has been submitted stays so, what `submit` has
completed is completed once more by `stop` if it is registered, and nothing of it is registered when
`stop` has returned. -/
structure Stopped (x : Stage) (n : ℕ) (s : State ι) (o : ι) : Prop where
  registered : Registered s
  stage : s.stage o = x
  count : x = .completed → (s.in_flight_ops o).toNat + (s.op o).completions = n
  erased : s.stopping = 0 → s.in_flight_ops o = false

/-- An operation that has been submitted is registered only if it was before. -/
theorem in_flight_change {l : Life} (hs : Submitted s o) (h : Change s a o l)
    (hl : l.in_flight = true) :
  s.in_flight_ops o = true
  := by
  cases h with
  | same => apply hl
  | enter _ | start _ | failCall _ | complete _ _ | refuse _ _ | giveUp _ _ => apply hl
  | fail _ _ | erase _ _ _ | cancel _ _ => contradiction
  | register before =>
      obtain hs | hs := hs <;>
      · rw [hs] at before
        contradiction

/-- What `submit` has completed is not completed again but by `stop`. -/
theorem completed_change {l : Life} (hregistered : Registered s) (hs : s.stage o = .completed)
    (h : Change s a o l) :
  l.stage = .completed ∧
    l.in_flight.toNat + l.completions = (s.in_flight_ops o).toNat + (s.op o).completions
  := by
  cases h with
  | same => exact ⟨hs, rfl⟩
  | refuse before _ | enter before | register before | start before | failCall before
  | giveUp before _ | fail before _ =>
      rw [hs] at before
      contradiction
  | erase awaits _ _ | complete awaits _ =>
      rw [hregistered.submitted o awaits] at hs
      contradiction
  | cancel registered _ =>
      refine ⟨hs, ?_⟩
      change 0 + ((s.op o).completions + 1) = _
      rw [registered, Bool.toNat_true]
      omega

theorem Stopped.step {x : Stage} {n : ℕ} (hx : x = .submitted ∨ x = .completed)
    (hs : Stopped x n s o) (h : step s a = some t) :
  Stopped x n t o
  := by
  have hchange := change_step h o
  have hsubmitted : Submitted s o := by
    rw [Submitted, hs.stage]
    apply hx
  constructor
  · apply hs.registered.step h
  · obtain rfl | rfl := hx
    · apply submitted_change hs.stage hchange
    · apply (completed_change hs.registered hs.stage hchange).1
  · intro hc
    have hcount := (completed_change hs.registered (hs.stage.trans hc) hchange).2
    apply hcount.trans (hs.count hc)
  · intro hstopping
    obtain ⟨-, heq⟩ | ⟨-, heq⟩ | ⟨-, -, hnone⟩ := flags_step h
    · apply Bool.eq_false_iff.mpr
      intro htrue
      have herased := hs.erased (heq.symm.trans hstopping)
      rw [in_flight_change hsubmitted hchange htrue] at herased
      contradiction
    · rw [hstopping] at heq
      contradiction
    · apply hnone

/-- When `stop` and `run` have returned, an operation that was submitted before has been completed
once, or twice if `submit` had completed it and left it registered. -/
theorem completions_of_stopped {n : ℕ} {x : Stage} (hx : x = .submitted ∨ x = .completed)
    (hs : Stopped x n s o) (hstopping : s.stopping = 0) (hpc : s.pc = .returned) :
  (s.op o).completions = if x = .completed then n else 1
  := by
  have herased := hs.erased hstopping
  obtain rfl | rfl := hx
  · have hcount := (hs.registered.counted o).count hs.stage (by simp)
    simpa [herased, hpc, Pc.completes, Stage.claims] using hcount
  · simpa [herased] using hs.count rfl

/-- When `stop` and `run` have returned, every operation that was submitted before has been
completed exactly once, if and only if the operations that `submit` had completed had been completed
once, and were not registered any more. -/
theorem completed_iff_completedOnce {extensions : Extensions} {startup : Bool}
    {type : ι → IoUring.OpType} {coro_handle : ι → Bool} {as bs : List (Label ι)}
    (h : Run step Free (initial extensions startup type coro_handle) as s)
    (h' : Run step Free s (.stop :: bs) t) (hstopping : t.stopping = 0) (hpc : t.pc = .returned) :
  (∀ o, Submitted s o → (t.op o).completions = 1) ↔ CompletedOnce s
  := by
  have hs : Registered s := by
    apply h.invariant Registered
    · intro s a t hs _ e
      apply hs.step e
    · apply Registered.initial
  obtain ⟨u, hu, -, hrest⟩ := h'.of_cons
  obtain rfl := Option.some.inj hu
  have hcompletions : ∀ o, Submitted s o → (t.op o).completions =
      if s.stage o = .completed then (s.in_flight_ops o).toNat + (s.op o).completions else 1 := by
    intro o ho
    have hstopped : Stopped (s.stage o) ((s.in_flight_ops o).toNat + (s.op o).completions) t o := by
      apply hrest.invariant (fun t =>
        Stopped (s.stage o) ((s.in_flight_ops o).toNat + (s.op o).completions) t o)
      · intro s a t hs _ e
        apply hs.step ho e
      · constructor
        · apply hs.step hu
        · rfl
        · intro _
          rfl
        · intro hzero
          simp at hzero
    apply completions_of_stopped ho hstopped hstopping hpc
  have hpos : ∀ o, s.stage o = .completed → 1 ≤ (s.op o).completions :=
    fun o => (hs.counted o).completed
  constructor
  · intro hall
    have hone : ∀ o, s.stage o = .completed →
        (s.in_flight_ops o).toNat + (s.op o).completions = 1 := by
      intro o hc
      rw [← hall o (.inr hc), hcompletions o (.inr hc), if_pos hc]
    apply AllSettled.completedOnce
    constructor
    · apply hs
    · intro o
      constructor
      · intro hc
        change (s.op o).completions = 1
        have hone := hone o hc
        have hpos := hpos o hc
        omega
      · intro hc
        apply Bool.toNat_eq_zero.mp
        change (s.in_flight_ops o).toNat = 0
        have hone := hone o hc
        have hpos := hpos o hc
        omega
  · intro honce o ho
    rw [hcompletions o ho]
    split
    · rename_i hc
      have hle := honce.once o
      have hpos := hpos o hc
      rw [honce.erased o hc, Bool.toNat_false]
      omega
    · rfl

end Koroutine.Iocp
