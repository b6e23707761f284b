import Koroutine.Engine.IoUring

/-!
# What a step of `IoUringIOEngine` does

`effect_step` names the outcomes of a step, with what each requires of the state.  What `process_op`
and the loop over the completion ring do to the rings is said by `processOp_cases` and `reap_cases`.
-/

namespace Koroutine.IoUring

variable {ι : Type*} {s t : State ι}

/-! ### The read of the eventfd -/

/-- Where a read of the eventfd is prepared. -/
theorem arm_of_room (h : s.sq.length < queueDepth) :
  s.arm = { s with sq := s.sq ++ [.wakeup] }
  := by
  simp [State.arm, State.getSqe, h]

theorem arm_of_full (h : queueDepth ≤ s.sq.length) :
  s.arm = s
  := by
  simp [State.arm, State.getSqe, Nat.not_lt.mpr h]

/-- Preparing a read changes the submission ring at most. -/
theorem exists_arm :
  ∃ sq, s.arm = { s with sq := sq }
  := by
  by_cases hroom : s.sq.length < queueDepth
  · exact ⟨_, arm_of_room hroom⟩
  · exact ⟨s.sq, arm_of_full (Nat.not_lt.mp hroom)⟩

variable [DecidableEq ι]

/-! ### Entries of the rings -/

/-- `process_op` takes an entry, if there is one, which is no read of the eventfd. -/
theorem processOp_cases (o : ι) :
  ∃ data op in_flight_ops, data ≠ .wakeup ∧
    processOp s o = { s with
      sq := if s.sq.length < queueDepth then s.sq ++ [data] else s.sq
      op := op
      in_flight_ops := in_flight_ops }
  := by
  by_cases hroom : s.sq.length < queueDepth <;>
    by_cases hsupported : (s.op o).type.supported = true <;>
    simp only [processOp, State.getSqe, hroom, hsupported, State.completeWith, if_true, if_false]
  · exact ⟨.op o, _, _, by simp, rfl⟩
  · exact ⟨.null, _, _, by simp, rfl⟩
  · exact ⟨.null, _, _, by simp, rfl⟩
  · exact ⟨.null, _, _, by simp, rfl⟩

/-- An entry of the completion ring other than a read of the eventfd is found, and nothing else
of the ring changes. -/
theorem reap_cases {cqe : Cqe ι} (h : cqe.user_data ≠ .wakeup) :
  ∃ op in_flight_ops, reap s cqe = { s with op := op, in_flight_ops := in_flight_ops }
  := by
  unfold reap
  split
  · contradiction
  · unfold finishOp
    split
    · exact ⟨_, _, rfl⟩
    · exact ⟨s.op, s.in_flight_ops, rfl⟩
  · exact ⟨s.op, s.in_flight_ops, rfl⟩

/-! ### The steps -/

/-- The outcomes of a step. -/
inductive Effect (s : State ι) : Label ι → State ι → Prop
  | push (o : ι) :
      Effect s (.push o)
        { s with pending_ops := s.pending_ops ++ [o], submitting := s.submitting ++ [o] }
  | signal {o : ι} (pushed : o ∈ s.submitting) :
      Effect s (.signal o)
        { s with submitting := s.submitting.erase o, event := eventWrite s.event }
  | stop : Effect s .stop { s with running := false, stopping := s.stopping + 1 }
  | signalStop (stopped : 0 < s.stopping) :
      Effect s .signalStop
        { s with stopping := s.stopping - 1, event := eventWrite s.event }
  /-- An entry goes from the kernel to the completion ring, and the eventfd is read if the entry
  does. -/
  | complete {k event : ℕ} {res : ℤ} {data : UserData ι} (accepted : s.kernel[k]? = some data)
      (read : event = s.event ∨ data = .wakeup) :
      Effect s (.complete k res)
        { s with
          kernel := s.kernel.eraseIdx k, cq := s.cq ++ [⟨data, res⟩], event := event }
  | begun (pc : s.pc = .starting) : Effect s .run { s with running := true, pc := .arming }
  | armed (pc : s.pc = .arming) : Effect s .run { s.arm.submit with pc := .checking }
  | checked (pc : s.pc = .checking) (running : s.running = true) :
      Effect s .run { s with pc := .waiting }
  | returned (pc : s.pc = .checking) (stopped : s.running = false) :
      Effect s .run { s with pc := .returned }
  | submitted (pc : s.pc = .waiting) : Effect s .run { s.submit with pc := .blocked }
  | woken (pc : s.pc = .blocked) (ready : s.cq ≠ []) : Effect s .run { s with pc := .reaping }
  | reaped (pc : s.pc = .reaping) (empty : s.cq = []) : Effect s .run { s with pc := .checking }
  | found {cqe : Cqe ι} {cq : List (Cqe ι)} (pc : s.pc = .reaping) (first : s.cq = cqe :: cq) :
      Effect s .run (reap { s with cq := cq } cqe)
  | processed {o : ι} {batch : List ι} (pc : s.pc = .processing (o :: batch)) :
      Effect s .run { processOp s o with pc := .processing batch }
  | drained (pc : s.pc = .processing []) : Effect s .run { s.arm with pc := .reaping }
  | interrupted (pc : s.pc = .blocked) : Effect s .interrupt { s with pc := .checking }
  | failed (pc : s.pc = .blocked) : Effect s .fail { s with pc := .returned }

theorem effect_complete {k : ℕ} {res : ℤ} (h : complete s k res = some t) :
  Effect s (.complete k res) t
  := by
  unfold complete at h
  split at h
  · contradiction
  · rename_i hk
    split at h
    · obtain rfl := Option.some.inj h
      exact .complete hk (.inl rfl)
    · split at h
      · obtain rfl := Option.some.inj h
        exact .complete hk (.inr rfl)
      · contradiction
  · rename_i data hdata hk
    obtain rfl := Option.some.inj h
    exact .complete hk (.inl rfl)

theorem effect_runStep (h : runStep s = some t) :
  Effect s .run t
  := by
  cases hpc : s.pc with
  | starting =>
      simp only [runStep, hpc, Option.some.injEq] at h
      exact h ▸ .begun hpc
  | arming =>
      simp only [runStep, hpc, Option.some.injEq] at h
      exact h ▸ .armed hpc
  | checking =>
      simp only [runStep, hpc, Option.some.injEq] at h
      subst h
      split
      · rename_i hrunning
        exact .checked hpc hrunning
      · rename_i hrunning
        exact .returned hpc (Bool.eq_false_iff.mpr hrunning)
  | waiting =>
      simp only [runStep, hpc, Option.some.injEq] at h
      exact h ▸ .submitted hpc
  | blocked =>
      simp only [runStep, hpc, Option.ite_none_left_eq_some, Option.some.injEq] at h
      obtain ⟨hready, rfl⟩ := h
      exact .woken hpc hready
  | reaping =>
      cases hcq : s.cq with
      | nil =>
          simp only [runStep, hpc, hcq, Option.some.injEq] at h
          rw [← hcq] at h
          exact h ▸ .reaped hpc hcq
      | cons cqe cq =>
          simp only [runStep, hpc, hcq, Option.some.injEq] at h
          rw [← hpc] at h
          exact h ▸ .found hpc hcq
  | processing batch =>
      cases batch with
      | nil =>
          simp only [runStep, hpc, Option.some.injEq] at h
          exact h ▸ .drained hpc
      | cons o batch =>
          simp only [runStep, hpc, Option.some.injEq] at h
          exact h ▸ .processed hpc
  | returned => simp [runStep, hpc] at h

/-- Every step has one of the outcomes. -/
theorem effect_step {a : Label ι} (h : step s a = some t) :
  Effect s a t
  := by
  cases a with
  | push o =>
      obtain rfl := Option.some.inj h
      apply Effect.push
  | signal o =>
      simp only [step, Option.ite_none_right_eq_some, Option.some.injEq] at h
      obtain ⟨hpushed, rfl⟩ := h
      apply Effect.signal hpushed
  | stop =>
      obtain rfl := Option.some.inj h
      apply Effect.stop
  | signalStop =>
      simp only [step, Option.ite_none_right_eq_some, Option.some.injEq] at h
      obtain ⟨hstopped, rfl⟩ := h
      apply Effect.signalStop hstopped
  | complete k res => apply effect_complete h
  | run => apply effect_runStep h
  | interrupt =>
      simp only [step, Option.ite_none_right_eq_some, Option.some.injEq] at h
      obtain ⟨hpc, rfl⟩ := h
      apply Effect.interrupted hpc
  | fail =>
      simp only [step, Option.ite_none_right_eq_some, Option.some.injEq] at h
      obtain ⟨hpc, rfl⟩ := h
      apply Effect.failed hpc

end Koroutine.IoUring
