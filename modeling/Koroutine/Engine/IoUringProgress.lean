import Koroutine.Engine.Stopping

/-!
# How `IoUringIOEngine` goes on

The operations that `run` has still to process form a queue: the batch it has taken, and
`pending_ops_`.  A step leaves the operations alone, puts the first of the queue into the ring,
completes it without doing so, or completes one whose entry is the next of the completion ring.
-/

open Transition

namespace Koroutine.IoUring

variable {ι : Type*}

/-- What an operation is when its entry has completed with the given result. -/
def Op.result (op : Op) (res : ℤ) : Op :=
  { op with
    error := if res < 0 then .errno (-res) else .none
    actual_size := if res < 0 then 0 else res.toNat
    completions := op.completions + 1 }

/-- What an operation is when it could not be put into the ring. -/
def Op.refused (op : Op) (error : ErrorCode) : Op :=
  { op with error := error, completions := op.completions + 1 }

/-- The operations that `run` has still to process. -/
def State.queue (s : State ι) : List ι := s.pc.batch ++ s.pending_ops

variable [DecidableEq ι]

/-- What a step does to the operations. -/
inductive Progress (s : State ι) (a : Label ι) (t : State ι) : Prop
  | idle (op : t.op = s.op) (flight : t.in_flight_ops = s.in_flight_ops)
      (queue : t.queue = s.queue ++ a.pushed.toList)
  | taken (o : ι) (op : t.op = s.op)
      (flight : t.in_flight_ops = Function.update s.in_flight_ops o true)
      (queue : s.queue = o :: t.queue) (pushed : a.pushed = none)
  | refused (o : ι) (error : ErrorCode)
      (cause : error = .no_buffer_space ∨ error = .operation_not_supported)
      (op : t.op = Function.update s.op o ((s.op o).refused error))
      (flight : t.in_flight_ops = s.in_flight_ops)
      (queue : s.queue = o :: t.queue) (pushed : a.pushed = none)
  | finished (o : ι) (res : ℤ) (cqe : s.cq.head? = some ⟨.op o, res⟩)
      (registered : s.in_flight_ops o = true)
      (op : t.op = Function.update s.op o ((s.op o).result res))
      (flight : t.in_flight_ops = Function.update s.in_flight_ops o false)
      (queue : t.queue = s.queue) (pushed : a.pushed = none)

variable {s t : State ι} {a : Label ι}

theorem Progress.of_idle (hop : t.op = s.op) (hflight : t.in_flight_ops = s.in_flight_ops)
    (hbatch : t.pc.batch = s.pc.batch) (hpending : t.pending_ops = s.pending_ops)
    (hpushed : a.pushed = none) :
  Progress s a t
  := by
  apply idle hop hflight
  rw [State.queue, hbatch, hpending, hpushed]
  simp [State.queue]

theorem progress_processing {o : ι} {batch : List ι} (hpc : s.pc = .processing (o :: batch)) :
  Progress s .run { processOp s o with pc := .processing batch }
  := by
  by_cases hroom : s.sq.length < queueDepth
  · cases hsupported : (s.op o).type.supported with
    | true =>
        have heq : processOp s o = { s with
            sq := s.sq ++ [.op o], in_flight_ops := Function.update s.in_flight_ops o true } := by
          simp [processOp, State.getSqe, hroom, hsupported]
        rw [heq]
        refine Progress.taken o rfl rfl ?_ rfl
        simp [State.queue, Pc.batch, hpc]
    | false =>
        have heq : processOp s o =
            { s.completeWith o .operation_not_supported with sq := s.sq ++ [.null] } := by
          simp [processOp, State.getSqe, hroom, hsupported, State.completeWith]
        rw [heq]
        refine Progress.refused o .operation_not_supported (.inr rfl) rfl rfl ?_ rfl
        simp [State.queue, Pc.batch, hpc, State.completeWith]
  · have heq : processOp s o = s.completeWith o .no_buffer_space := by
      simp [processOp, State.getSqe, hroom]
    rw [heq]
    refine Progress.refused o .no_buffer_space (.inl rfl) rfl rfl ?_ rfl
    simp [State.queue, Pc.batch, hpc, State.completeWith]

theorem progress_reaping {cqe : Cqe ι} {cq : List (Cqe ι)} (hpc : s.pc = .reaping)
    (hcq : s.cq = cqe :: cq) :
  Progress s .run (reap { s with cq := cq } cqe)
  := by
  unfold reap
  split
  · refine Progress.idle rfl rfl ?_
    simp [State.queue, Pc.batch, hpc, Label.pushed]
  · rename_i o hdata
    unfold finishOp
    split
    · rename_i hflight
      refine Progress.finished o cqe.res ?_ hflight rfl rfl rfl rfl
      rw [hcq, ← hdata]
      rfl
    · exact Progress.of_idle rfl rfl rfl rfl rfl
  · exact Progress.of_idle rfl rfl rfl rfl rfl

/-- Every step is one of these. -/
theorem progress_step (h : step s a = some t) :
  Progress s a t
  := by
  cases effect_step h with
  | push o =>
      refine Progress.idle rfl rfl ?_
      simp [State.queue, Label.pushed]
  | signal | stop | signalStop | complete => exact Progress.of_idle rfl rfl rfl rfl rfl
  | begun hpc | checked hpc | returned hpc | submitted hpc | woken hpc | reaped hpc | interrupted hpc
  | failed hpc =>
      apply Progress.of_idle <;> simp [State.submit, hpc, Pc.batch, Label.pushed]
  | armed hpc | drained hpc =>
      obtain ⟨sq, heq⟩ := exists_arm (s := s)
      rw [heq]
      apply Progress.of_idle <;> simp [State.submit, hpc, Pc.batch, Label.pushed]
  | found hpc hcq => apply progress_reaping hpc hcq
  | processed hpc => apply progress_processing hpc

/-! ### Answers -/

/-- What an operation is after a step that completes it: its entry of the completion ring gives it
its result, or it could not be put into the ring. -/
inductive Answer (s : State ι) (o : ι) : Op → Prop
  | result (res : ℤ) (cqe : s.cq.head? = some ⟨.op o, res⟩) : Answer s o ((s.op o).result res)
  | refused (error : ErrorCode)
      (cause : error = .no_buffer_space ∨ error = .operation_not_supported) :
      Answer s o ((s.op o).refused error)

theorem Progress.answer (h : Progress s a t) {o : ι} (hne : t.op o ≠ s.op o) :
  Answer s o (t.op o)
  := by
  have hupdate : ∀ {o' : ι} {op : Op}, t.op = Function.update s.op o' op → o' = o ∧ t.op o = op := by
    intro o' op hop
    rw [hop] at hne ⊢
    by_cases ho : o = o'
    · subst ho
      simp
    · rw [Function.update_of_ne ho] at hne
      contradiction
  cases h with
  | idle hop | taken _ hop =>
      rw [hop] at hne
      contradiction
  | refused o' error cause hop =>
      obtain ⟨rfl, heq⟩ := hupdate hop
      rw [heq]
      apply Answer.refused error cause
  | finished o' res cqe _ hop =>
      obtain ⟨rfl, heq⟩ := hupdate hop
      rw [heq]
      apply Answer.result res cqe

/-- An operation that has been completed has an answer of its own. -/
theorem answered {type : ι → OpType} {as : List (Label ι)} {o : ι}
    (h : Run step Free (initial type) as t) (hcompleted : (t.op o).completions ≠ 0) :
  ∃ bs cs u, as = bs ++ cs ∧ Run step Free (initial type) bs u ∧ Answer u o (t.op o)
  := by
  obtain hsame | ⟨bs, a, cs, u, v, rfl, hbefore, hstep, hne, heq⟩ := h.last_change fun s => s.op o
  · rw [hsame] at hcompleted
    contradiction
  · refine ⟨bs, a :: cs, u, rfl, hbefore, ?_⟩
    rw [heq]
    apply (progress_step hstep).answer hne

end Koroutine.IoUring
