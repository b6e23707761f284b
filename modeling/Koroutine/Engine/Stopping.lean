import Koroutine.Engine.IoUringWakeup
import Koroutine.Engine.IocpStopping
import Koroutine.Engine.KqueueCompletion
import Mathlib.Data.List.Nodup

/-!
# Stopping the engines

`stop` of `IoUringIOEngine` and of `KqueueIOEngine` only makes `run` return: an operation that is
then in `pending_ops_`, in `in_flight_ops_` or in `active_ops_` is not completed.  `stop` of
`IOCPIOEngine` completes what is in `in_flight_ops_`.
-/

open Transition

namespace Koroutine

/-! ### `IoUringIOEngine` -/

namespace IoUring

variable {ι : Type*} [DecidableEq ι] {s t : State ι} {a : Label ι} {o : ι}

/-- The operation that a step pushes to `pending_ops_`. -/
def Label.pushed : Label ι → Option ι
  | .push o => some o
  | _ => none

/-- The operations that the thread in `run` has taken and still has to process. -/
def Pc.batch : Pc ι → List ι
  | .processing batch => batch
  | _ => []

/-- How often operation `o` is in the engine, or has been completed. -/
def State.account (s : State ι) (o : ι) : ℕ :=
  s.pending_ops.count o + s.pc.batch.count o + (s.in_flight_ops o).toNat + (s.op o).completions

theorem account_congr (hpending : t.pending_ops = s.pending_ops) (hbatch : t.pc.batch = s.pc.batch)
    (hflight : t.in_flight_ops = s.in_flight_ops) (hop : t.op = s.op) :
  t.account o = s.account o
  := by
  rw [State.account, hpending, hbatch, hflight, hop]
  rfl

/-- `process_op` registers an operation, or completes it. -/
theorem processOp_settles (o : ι) :
  ∃ sq, processOp s o =
      { s with sq := sq, in_flight_ops := Function.update s.in_flight_ops o true } ∨
    ∃ error, processOp s o = { s.completeWith o error with sq := sq }
  := by
  by_cases hroom : s.sq.length < queueDepth
  · cases hsupported : (s.op o).type.supported with
    | true =>
        refine ⟨s.sq ++ [.op o], .inl ?_⟩
        simp [processOp, State.getSqe, hroom, hsupported]
    | false =>
        refine ⟨s.sq ++ [.null], .inr ⟨.operation_not_supported, ?_⟩⟩
        simp [processOp, State.getSqe, hroom, hsupported, State.completeWith]
  · refine ⟨s.sq, .inr ⟨.no_buffer_space, ?_⟩⟩
    simp [processOp, State.getSqe, hroom, State.completeWith]

/-- An operation is taken from the batch, and put into the ring or completed. -/
theorem account_processOp {o' : ι} {batch : List ι} (hpc : s.pc = .processing (o' :: batch))
    (hone : s.account o' ≤ 1) :
  State.account { processOp s o' with pc := .processing batch } o = s.account o
  := by
  have hnone : s.in_flight_ops o' = false := by
    apply Bool.toNat_eq_zero.mp
    simp only [State.account, hpc, Pc.batch, List.count_cons_self] at hone
    omega
  by_cases ho : o' = o
  · subst ho
    obtain ⟨sq, heq | ⟨error, heq⟩⟩ := processOp_settles (s := s) o'
    · rw [heq]
      simp only [State.account, hpc, Pc.batch, List.count_cons_self, Function.update_self, hnone,
        Bool.toNat_true, Bool.toNat_false]
      omega
    · rw [heq]
      simp only [State.account, State.completeWith, hpc, Pc.batch, List.count_cons_self,
        Function.update_self]
      omega
  · have hother : o ≠ o' := fun heq => ho heq.symm
    obtain ⟨sq, heq | ⟨error, heq⟩⟩ := processOp_settles (s := s) o' <;>
    · rw [heq]
      simp [State.account, State.completeWith, hpc, Pc.batch, ho, hother]

/-- An entry of the completion ring is handled. -/
theorem account_reap {cqe : Cqe ι} (hpc : s.pc = .reaping) :
  (reap s cqe).account o = s.account o
  := by
  unfold reap
  split
  · simp only [State.account, hpc, Pc.batch, List.count_nil]
    omega
  · rename_i o' _
    unfold finishOp
    split
    · rename_i hflight
      by_cases ho : o = o'
      · subst ho
        simp only [State.account, Function.update_self, hflight, Bool.toNat_true,
          Bool.toNat_false]
        omega
      · simp [State.account, ho]
    · rfl
  · rfl

/-- Only a push brings an operation into the engine, and none is lost. -/
theorem account_step (h : step s a = some t) (hone : ∀ o, s.account o ≤ 1) (o : ι) :
  t.account o = s.account o + a.pushed.toList.count o
  := by
  cases effect_step h with
  | push o' =>
      simp only [State.account, Label.pushed, Option.toList_some, List.count_append]
      omega
  | signal | stop | signalStop | complete => apply account_congr <;> rfl
  | begun hpc | checked hpc | returned hpc | submitted hpc | woken hpc | reaped hpc | interrupted hpc
  | failed hpc => apply account_congr <;> simp [State.submit, hpc, Pc.batch]
  | armed hpc | drained hpc =>
      obtain ⟨sq, heq⟩ := exists_arm (s := s)
      rw [heq]
      apply account_congr <;> simp [State.submit, hpc, Pc.batch]
  | @found cqe cq hpc =>
      apply Eq.trans (account_reap (s := { s with cq := cq }) hpc)
      apply account_congr <;> rfl
  | @processed o' batch hpc => apply account_processOp hpc (hone o')

/-- An operation is in the engine, or has been completed, as often as it has been pushed. -/
theorem account_run {type : ι → OpType} {as : List (Label ι)}
    (h : Run step Free (initial type) as t) (hnodup : (as.filterMap Label.pushed).Nodup) (o : ι) :
  t.account o = (as.filterMap Label.pushed).count o
  := by
  revert hnodup o
  apply h.invariant_along fun as t => (as.filterMap Label.pushed).Nodup →
    ∀ o, t.account o = (as.filterMap Label.pushed).count o
  · intro as s a t ih _ e hnodup o
    rw [List.filterMap_append] at hnodup ⊢
    have hbefore := ih hnodup.of_append_left
    have hone : ∀ o, s.account o ≤ 1 := by
      intro o
      rw [hbefore]
      apply List.nodup_iff_count_le_one.mp hnodup.of_append_left
    rw [account_step e hone, hbefore, List.count_append]
    cases hpushed : a.pushed <;> simp [hpushed]
  · intro _ o
    simp [State.account, initial, Pc.batch]

/-- When `run` has returned, every operation that was submitted before `stop` has been completed
exactly once, if and only if none of them is left in `pending_ops_` or `in_flight_ops_`. -/
theorem completed_iff_none_left {type : ι → OpType} {as bs : List (Label ι)}
    (h : Run step Free (initial type) as s) (h' : Run step Free s (.stop :: bs) t)
    (hnodup : ((as ++ bs).filterMap Label.pushed).Nodup) (hpc : t.pc = .returned) :
  (∀ o, .push o ∈ as → (t.op o).completions = 1) ↔
    ∀ o, .push o ∈ as → o ∉ t.pending_ops ∧ t.in_flight_ops o = false
  := by
  have hlabels : (as ++ .stop :: bs).filterMap Label.pushed = (as ++ bs).filterMap Label.pushed := by
    rw [List.filterMap_append, List.filterMap_append]
    rfl
  have hone : ∀ o, .push o ∈ as →
      t.pending_ops.count o + (t.in_flight_ops o).toNat + (t.op o).completions = 1 := by
    intro o ho
    have hmem : o ∈ (as ++ bs).filterMap Label.pushed := by
      apply List.mem_filterMap.mpr
      exact ⟨.push o, List.mem_append_left _ ho, rfl⟩
    have haccount := account_run (h.trans h') (hlabels ▸ hnodup) o
    rw [hlabels, List.count_eq_one_of_mem hnodup hmem] at haccount
    simpa [State.account, hpc, Pc.batch] using haccount
  constructor
  · intro hall o ho
    have hsum := hone o ho
    rw [hall o ho] at hsum
    constructor
    · apply List.count_eq_zero.mp
      omega
    · apply Bool.toNat_eq_zero.mp
      omega
  · intro hnone o ho
    have hsum := hone o ho
    rw [List.count_eq_zero.mpr (hnone o ho).1, (hnone o ho).2, Bool.toNat_false] at hsum
    omega

end IoUring

/-! ### `KqueueIOEngine` -/

namespace Kqueue

variable {ι : Type*} [DecidableEq ι] {s t : State ι} {a : Label ι} {o : ι}

/-- How often operation `o` is in the engine, has been overwritten, or has been completed. -/
def State.account (s : State ι) (o : ι) : ℕ :=
  s.pending_ops.count o + (if s.active_ops (s.op o).fd = some o then 1 else 0) +
    s.overwritten.count o + (s.op o).completions

/-- Every operation that has been submitted is accounted for once, and is in `active_ops_` under its
descriptor only. -/
structure Accounted (s : State ι) : Prop where
  nodup : s.submitted.Nodup
  account : ∀ o, s.account o = s.submitted.count o
  keyed : ∀ fd o, s.active_ops fd = some o → (s.op o).fd = fd

theorem Accounted.initial {type : ι → IoUring.OpType} {fd : ι → ℤ} :
  Accounted (initial type fd)
  where
  nodup := List.nodup_nil
  account o := by simp [State.account, Kqueue.initial]
  keyed _ _ h := by contradiction

/-- A step that leaves the places of the operations, and how often they have been completed. -/
theorem Accounted.congr (hs : Accounted s) (hsubmitted : t.submitted = s.submitted)
    (hpending : t.pending_ops = s.pending_ops) (hactive : t.active_ops = s.active_ops)
    (hoverwritten : t.overwritten = s.overwritten) (hop : t.op = s.op) :
  Accounted t
  where
  nodup := by
    rw [hsubmitted]
    apply hs.nodup
  account o := by
    rw [hsubmitted, ← hs.account o, State.account, hpending, hactive, hoverwritten, hop]
    rfl
  keyed := by
    rw [hactive, hop]
    apply hs.keyed

/-- The first pending operation is completed. -/
theorem Accounted.retire {pending : List ι} {op : Op} (hs : Accounted s)
    (hfirst : s.pending_ops = o :: pending) (hop : t.op = Function.update s.op o op)
    (hfd : op.fd = (s.op o).fd) (hcompletions : op.completions = (s.op o).completions + 1)
    (hsubmitted : t.submitted = s.submitted) (hpending : t.pending_ops = pending)
    (hactive : t.active_ops = s.active_ops) (hoverwritten : t.overwritten = s.overwritten) :
  Accounted t
  := by
  have hfd' : ∀ o', (t.op o').fd = (s.op o').fd := by
    intro o'
    by_cases ho : o' = o
    · rw [ho, hop, Function.update_self, hfd]
    · rw [hop, Function.update_of_ne ho]
  constructor
  · rw [hsubmitted]
    apply hs.nodup
  · intro o'
    rw [hsubmitted, ← hs.account o', State.account, State.account, hfd', hpending, hactive,
      hoverwritten, hfirst, hop]
    by_cases ho : o' = o
    · subst ho
      rw [Function.update_self, List.count_cons_self, hcompletions]
      omega
    · rw [Function.update_of_ne ho, List.count_cons_of_ne (Ne.symm ho)]
  · intro fd o' ho'
    rw [hactive] at ho'
    rw [hfd', hs.keyed fd o' ho']

/-- The operation recorded under a descriptor is completed, and erased from `active_ops_`. -/
theorem Accounted.release {fd : ℤ} {op : Op} (hs : Accounted s) (ho : s.active_ops fd = some o)
    (hop : t.op = Function.update s.op o op) (hfd : op.fd = (s.op o).fd)
    (hcompletions : op.completions = (s.op o).completions + 1)
    (hsubmitted : t.submitted = s.submitted) (hpending : t.pending_ops = s.pending_ops)
    (hactive : t.active_ops = Function.update s.active_ops fd none)
    (hoverwritten : t.overwritten = s.overwritten) :
  Accounted t
  := by
  have hfd' : ∀ o', (t.op o').fd = (s.op o').fd := by
    intro o'
    by_cases ho : o' = o
    · rw [ho, hop, Function.update_self, hfd]
    · rw [hop, Function.update_of_ne ho]
  constructor
  · rw [hsubmitted]
    apply hs.nodup
  · intro o'
    rw [hsubmitted, ← hs.account o', State.account, State.account, hfd', hpending, hactive,
      hoverwritten, hop]
    by_cases heq : o' = o
    · subst heq
      have hkeyed := hs.keyed fd o' ho
      simp only [hkeyed, ho, Function.update_self, hcompletions, if_true, reduceCtorEq, if_false]
      omega
    · rw [Function.update_of_ne heq]
      by_cases hfd : (s.op o').fd = fd
      · have hother : o ≠ o' := Ne.symm heq
        simp [hfd, ho, hother]
      · rw [Function.update_of_ne hfd]
  · intro fd' o' ho'
    rw [hactive, Function.update_apply] at ho'
    split at ho'
    · contradiction
    · rw [hfd', hs.keyed fd' o' ho']

/-- The first pending operation is not recorded under its descriptor. -/
theorem Accounted.not_active {pending : List ι} (hs : Accounted s)
    (hfirst : s.pending_ops = o :: pending) :
  s.active_ops (s.op o).fd ≠ some o
  := by
  intro hactive
  have haccount := hs.account o
  have hle := List.nodup_iff_count_le_one.mp hs.nodup o
  rw [State.account, hfirst, List.count_cons_self, if_pos hactive] at haccount
  omega

/-- The first pending operation waits for an event, and takes the place of the one recorded under
its descriptor. -/
theorem Accounted.watch {pending : List ι} {filter : Filter} {errno : Option ℤ} (hs : Accounted s)
    (hfirst : s.pending_ops = o :: pending) :
  Accounted (State.watch { s with pending_ops := pending } o filter errno)
  := by
  cases errno with
  | some n => exact hs.retire hfirst rfl rfl rfl rfl rfl rfl rfl
  | none =>
      have hnew := hs.not_active hfirst
      constructor
      · apply hs.nodup
      · intro o'
        have hcount : (s.active_ops (s.op o).fd).toList.count o' =
            if s.active_ops (s.op o).fd = some o' then 1 else 0 := by
          cases s.active_ops (s.op o).fd with
          | none => simp
          | some p => simp [List.count_singleton]
        apply Eq.trans _ (hs.account o')
        simp only [State.account, State.watch, List.count_append, hcount, hfirst]
        by_cases ho : o' = o
        · subst ho
          simp only [Function.update_self, hnew, List.count_cons_self, if_true, if_false]
          omega
        · have hother : o ≠ o' := Ne.symm ho
          by_cases hfd : (s.op o').fd = (s.op o).fd
          · simp only [hfd, Function.update_self, Option.some.injEq, hother,
              List.count_cons_of_ne hother, if_false]
            omega
          · have hnone : s.active_ops (s.op o).fd ≠ some o' :=
              fun heq => hfd (hs.keyed _ o' heq)
            simp [hfd, hnone, hother]
      · intro fd o' ho'
        change Function.update s.active_ops (s.op o).fd (some o) fd = some o' at ho'
        rw [Function.update_apply] at ho'
        split at ho'
        · rename_i hfd
          obtain rfl := Option.some.inj ho'
          apply hfd.symm
        · apply hs.keyed fd o' ho'

/-- The first pending operation is processed. -/
theorem Accounted.processOp {pending : List ι} {errno : Option ℤ} (hs : Accounted s)
    (hfirst : s.pending_ops = o :: pending) :
  Accounted (processOp { s with pending_ops := pending } o errno)
  := by
  unfold Kqueue.processOp
  cases htype : (s.op o).type with
  | read | accept | recvfrom | write | connect | sendto => apply hs.watch hfirst
  | «open» => exact hs.retire hfirst rfl rfl rfl rfl rfl rfl rfl
  | close =>
      have hretired : Accounted { s with
          pending_ops := pending, op := Function.update s.op o ((s.op o).closed errno) } :=
        hs.retire hfirst rfl rfl rfl rfl rfl rfl rfl
      cases hactive : s.active_ops (s.op o).fd with
      | none =>
          rw [processClose_of_none (s := { s with pending_ops := pending }) hactive]
          exact hretired.congr rfl rfl rfl rfl rfl
      | some o' =>
          have hne : o ≠ o' := by
            rintro rfl
            apply hs.not_active hfirst hactive
          rw [processClose_of_some (s := { s with pending_ops := pending }) hne hactive]
          have hsame : Function.update s.op o ((s.op o).closed errno) o' = s.op o' :=
            Function.update_of_ne (Ne.symm hne) ..
          refine hretired.release hactive rfl ?_ ?_ rfl rfl rfl rfl
          · exact (congrArg Op.fd hsame).symm
          · exact congrArg (fun op => op.completions + 1) hsame.symm

/-- An event is handled. -/
theorem Accounted.handleEvent {event : Event} {events : List Event} {res : ℤ} (hs : Accounted s) :
  Accounted { handleEvent s event res with pc := .handling events }
  := by
  cases event with
  | wakeup => exact hs.congr rfl rfl rfl rfl rfl
  | ready key error =>
      cases hactive : s.active_ops key.1 with
      | none =>
          simp only [Kqueue.handleEvent, hactive]
          exact hs.congr rfl rfl rfl rfl rfl
      | some o =>
          simp only [Kqueue.handleEvent, hactive]
          exact hs.release hactive rfl (Op.finish_fd ..) (Op.finish_completions ..) rfl rfl rfl rfl

theorem Accounted.step (hs : Accounted s) (h : step s a = some t) :
  Accounted t
  := by
  cases a with
  | submit o =>
      simp only [Kqueue.step, Option.ite_none_right_eq_some, Option.some.injEq] at h
      obtain ⟨⟨-, hnew⟩, rfl⟩ := h
      constructor
      · apply hs.nodup.append (List.nodup_singleton o)
        simpa using hnew
      · intro o'
        have haccount := hs.account o'
        simp only [State.account, List.count_append] at haccount ⊢
        omega
      · apply hs.keyed
  | trigger | interrupt | fail =>
      simp only [Kqueue.step, Option.ite_none_right_eq_some, Option.some.injEq] at h
      obtain ⟨-, rfl⟩ := h
      exact hs.congr rfl rfl rfl rfl rfl
  | stop =>
      obtain rfl := Option.some.inj h
      exact hs.congr rfl rfl rfl rfl rfl
  | run =>
      obtain ⟨running, pc, rfl, -⟩ := runStep_frame h
      exact hs.congr rfl rfl rfl rfl rfl
  | process errno =>
      simp only [Kqueue.step] at h
      split at h
      · rename_i o pending hpc hfirst
        obtain rfl := Option.some.inj h
        apply hs.processOp hfirst
      · contradiction
  | deliver events =>
      simp only [Kqueue.step, Option.ite_none_right_eq_some, Option.some.injEq] at h
      obtain ⟨-, rfl⟩ := h
      exact hs.congr rfl rfl rfl rfl rfl
  | handle res =>
      simp only [Kqueue.step] at h
      split at h
      · obtain rfl := Option.some.inj h
        apply hs.handleEvent
      · contradiction

theorem processOp_submitted {errno : Option ℤ} :
  (processOp s o errno).submitted = s.submitted
  := by
  unfold processOp
  cases (s.op o).type with
  | read | accept | recvfrom | write | connect | sendto => cases errno <;> rfl
  | «open» => rfl
  | close =>
      change (s.cancel (s.op o).fd).submitted = s.submitted
      unfold State.cancel
      split <;> rfl

/-- What has been submitted stays so. -/
theorem submitted_step (h : step s a = some t) (ho : o ∈ s.submitted) :
  o ∈ t.submitted
  := by
  cases a with
  | submit o' =>
      simp only [step, Option.ite_none_right_eq_some, Option.some.injEq] at h
      obtain ⟨-, rfl⟩ := h
      apply List.mem_append_left _ ho
  | trigger | interrupt | fail | deliver events =>
      simp only [step, Option.ite_none_right_eq_some, Option.some.injEq] at h
      obtain ⟨-, rfl⟩ := h
      apply ho
  | stop =>
      obtain rfl := Option.some.inj h
      apply ho
  | run =>
      obtain ⟨running, pc, rfl, -⟩ := runStep_frame h
      apply ho
  | process errno =>
      simp only [step] at h
      split at h
      · obtain rfl := Option.some.inj h
        rw [processOp_submitted]
        apply ho
      · contradiction
  | handle res =>
      simp only [step] at h
      split at h
      · obtain rfl := Option.some.inj h
        unfold handleEvent
        split
        · apply ho
        · cases s.active_ops _ <;> apply ho
      · contradiction

theorem accounted_of_run {type : ι → IoUring.OpType} {fd : ι → ℤ} {as : List (Label ι)}
    (h : Run step Free (initial type fd) as t) :
  Accounted t
  := by
  apply h.invariant Accounted
  · intro s a t hs _ e
    apply hs.step e
  · apply Accounted.initial

/-- When `run` has returned, every operation that was submitted before `stop` has been completed
exactly once, if and only if none of them is left in `pending_ops_` or `active_ops_`, or has been
overwritten there. -/
theorem completed_iff_none_left {type : ι → IoUring.OpType} {fd : ι → ℤ} {as bs : List (Label ι)}
    (h : Run step Free (initial type fd) as s) (h' : Run step Free s (.stop :: bs) t) :
  (∀ o ∈ s.submitted, (t.op o).completions = 1) ↔
    ∀ o ∈ s.submitted, o ∉ t.pending_ops ∧ (∀ fd, t.active_ops fd ≠ some o) ∧ o ∉ t.overwritten
  := by
  have ht : Accounted t := accounted_of_run (h.trans h')
  have hone : ∀ o ∈ s.submitted, t.account o = 1 := by
    intro o ho
    have hmem : o ∈ t.submitted := by
      apply h'.invariant (fun t => o ∈ t.submitted)
      · intro s a t hs _ e
        apply submitted_step e hs
      · apply ho
    rw [ht.account, List.count_eq_one_of_mem ht.nodup hmem]
  constructor
  · intro hall o ho
    have hsum := hone o ho
    rw [State.account, hall o ho] at hsum
    refine ⟨?_, ?_, ?_⟩
    · apply List.count_eq_zero.mp
      omega
    · intro fd hactive
      rw [← ht.keyed fd o hactive] at hactive
      rw [if_pos hactive] at hsum
      omega
    · apply List.count_eq_zero.mp
      omega
  · intro hnone o ho
    have hsum := hone o ho
    obtain ⟨hpending, hactive, hoverwritten⟩ := hnone o ho
    rw [State.account, List.count_eq_zero.mpr hpending, if_neg (hactive _),
      List.count_eq_zero.mpr hoverwritten] at hsum
    omega

end Kqueue

/-! ### The three engines -/

/-- When `stop` has been called and `run` has returned, every operation that was submitted before
has been completed exactly once, if and only if

* for `IoUringIOEngine`, none of them is left in `pending_ops_` or `in_flight_ops_`,
* for `KqueueIOEngine`, none of them is left in `pending_ops_` or `active_ops_`, or has been
  overwritten there,
* for `IOCPIOEngine`, what `submit` had completed by then had been completed once, and was not
  registered any more. -/
theorem stopped_completed_iff {ι : Type*} [DecidableEq ι] :
  (∀ (type : ι → IoUring.OpType) (as bs : List (IoUring.Label ι)) (s t : IoUring.State ι),
    Run IoUring.step Free (IoUring.initial type) as s →
    Run IoUring.step Free s (.stop :: bs) t →
    ((as ++ bs).filterMap IoUring.Label.pushed).Nodup → t.pc = .returned →
    ((∀ o, .push o ∈ as → (t.op o).completions = 1) ↔
      ∀ o, .push o ∈ as → o ∉ t.pending_ops ∧ t.in_flight_ops o = false)) ∧
  (∀ (type : ι → IoUring.OpType) (fd : ι → ℤ) (as bs : List (Kqueue.Label ι))
      (s t : Kqueue.State ι),
    Run Kqueue.step Free (Kqueue.initial type fd) as s →
    Run Kqueue.step Free s (.stop :: bs) t → t.pc = .returned →
    ((∀ o ∈ s.submitted, (t.op o).completions = 1) ↔
      ∀ o ∈ s.submitted,
        o ∉ t.pending_ops ∧ (∀ fd, t.active_ops fd ≠ some o) ∧ o ∉ t.overwritten)) ∧
  (∀ (extensions : Iocp.Extensions) (startup : Bool) (type : ι → IoUring.OpType)
      (coro_handle : ι → Bool) (as bs : List (Iocp.Label ι)) (s t : Iocp.State ι),
    Run Iocp.step Free (Iocp.initial extensions startup type coro_handle) as s →
    Run Iocp.step Free s (.stop :: bs) t → t.stopping = 0 → t.pc = .returned →
    ((∀ o, Iocp.Submitted s o → (t.op o).completions = 1) ↔ Iocp.CompletedOnce s))
  := by
  refine ⟨?_, ?_, ?_⟩
  · intro type as bs s t h h' hnodup hpc
    apply IoUring.completed_iff_none_left h h' hnodup hpc
  · intro type fd as bs s t h h' _
    apply Kqueue.completed_iff_none_left h h'
  · intro extensions startup type coro_handle as bs s t h h' hstopping hpc
    apply Iocp.completed_iff_completedOnce h h' hstopping hpc

/-- An operation that has been completed by the event loop, or, by `IOCPIOEngine`, when the engine
is stopped. -/
theorem stopped_completed_one :
  (∃ as bs s t, Run IoUring.step Free (IoUring.initial fun _ : Unit => .read) as s ∧
    Run IoUring.step Free s (.stop :: bs) t ∧ .push () ∈ as ∧
    ∀ o, .push o ∈ as → (t.op o).completions = 1) ∧
  (∃ as bs s t, Run Kqueue.step Free (Kqueue.initial (fun _ : Unit => .read) fun _ => 5) as s ∧
    Run Kqueue.step Free s (.stop :: bs) t ∧ () ∈ s.submitted ∧
    ∀ o ∈ s.submitted, (t.op o).completions = 1) ∧
  ∃ as bs s t, Run Iocp.step Free
      (Iocp.initial ⟨true, true, true⟩ true (fun _ : Unit => .read) fun _ => true) as s ∧
    Run Iocp.step Free s (.stop :: bs) t ∧ Iocp.Submitted s () ∧
    ∀ o, Iocp.Submitted s o → (t.op o).completions = 1
  := by
  obtain ⟨hio_uring, hkqueue, hiocp⟩ := stopped_completed_iff (ι := Unit)
  refine ⟨?_, ?_, ?_⟩
  · obtain ⟨s, hs, hexec⟩ : ∃ s, Run IoUring.step Free (IoUring.initial fun _ : Unit => .read)
        (List.flatten [[.push (), .signal ()], List.replicate 4 .run, [.complete 0 8],
          List.replicate 7 .run]) s ∧
        (exec IoUring.step s (.stop :: .complete 0 5 :: List.replicate 4 .run)).any
          (fun t => t.pc = .returned ∧ t.pending_ops = [] ∧ t.in_flight_ops () = false) = true := by
      apply exists_run_of_exec
      decide
    obtain ⟨t, ht, hpc, hpending, hflight⟩ := exists_run_of_exec hexec
    refine ⟨_, _, s, t, hs, ht, by simp, ?_⟩
    apply (hio_uring _ _ _ s t hs ht (by decide) hpc).mpr
    intro o _
    rw [hpending]
    exact ⟨List.not_mem_nil, hflight⟩
  · obtain ⟨s, hs, hsubmitted, hexec⟩ : ∃ s,
        Run Kqueue.step Free (Kqueue.initial (fun _ : Unit => .read) fun _ => 5)
          [.submit (), .trigger, .run, .run, .process none, .run,
            .deliver [.ready (5, .read) false]] s ∧
        s.submitted = [()] ∧
        (exec Kqueue.step s [.stop, .handle 3, .run, .run]).any
          (fun t => t.pc = .returned ∧ t.pending_ops = [] ∧ t.active_ops 5 = none ∧
            (t.op ()).fd = 5 ∧ t.overwritten = []) = true := by
      apply exists_run_of_exec
      decide
    obtain ⟨t, ht, hpc, hpending, hactive, hfd, hoverwritten⟩ := exists_run_of_exec hexec
    refine ⟨_, _, s, t, hs, ht, by simp [hsubmitted], ?_⟩
    apply (hkqueue _ _ _ _ s t hs ht hpc).mpr
    intro o _
    rw [hpending, hoverwritten]
    refine ⟨List.not_mem_nil, ?_, List.not_mem_nil⟩
    intro fd heq
    have hkeyed := (Kqueue.accounted_of_run (hs.trans ht)).keyed fd o heq
    rw [← hkeyed, hfd, hactive] at heq
    contradiction
  · obtain ⟨s, hs, hstage, hzero, hexec⟩ : ∃ s, Run Iocp.step Free
        (Iocp.initial ⟨true, true, true⟩ true (fun _ : Unit => .read) fun _ => true)
          [.submit (), .register (), .call () none true] s ∧
        s.stage () = .submitted ∧ (s.op ()).completions = 0 ∧
        (exec Iocp.step s [.stop, .cancel, .run]).any
          (fun t => t.stopping = 0 ∧ t.pc = .returned) = true := by
      apply exists_run_of_exec
      decide
    obtain ⟨t, ht, hstopping, hpc⟩ := exists_run_of_exec hexec
    refine ⟨_, _, s, t, hs, ht, .inl hstage, ?_⟩
    apply (hiocp _ _ _ _ _ _ s t hs ht hstopping hpc).mpr
    constructor
    · intro o
      rw [hzero]
      apply Nat.zero_le
    · intro o hcompleted
      rw [hstage] at hcompleted
      contradiction

/-- An operation that `run` has waited for, and that the kernel has not completed when the engine is
stopped, is never completed. -/
theorem stopped_in_flight :
  (∃ as bs s t, Run IoUring.step Free (IoUring.initial fun _ : Unit => .read) as s ∧
    Run IoUring.step Free s (.stop :: bs) t ∧ .push () ∈ as ∧ t.pc = .returned ∧
    (t.op ()).completions = 0) ∧
  ∃ as bs s t, Run Kqueue.step Free (Kqueue.initial (fun _ : Unit => .read) fun _ => 5) as s ∧
    Run Kqueue.step Free s (.stop :: bs) t ∧ () ∈ s.submitted ∧ t.pc = .returned ∧
    (t.op ()).completions = 0
  := by
  constructor
  · obtain ⟨s, hs, hexec⟩ : ∃ s, Run IoUring.step Free (IoUring.initial fun _ : Unit => .read)
        (List.flatten [[.push (), .signal ()], List.replicate 4 .run, [.complete 0 8],
          List.replicate 7 .run]) s ∧
        (exec IoUring.step s (.stop :: .signalStop :: .complete 1 8 ::
          List.replicate 5 .run)).any
          (fun t => t.pc = .returned ∧ (t.op ()).completions = 0) = true := by
      apply exists_run_of_exec
      decide
    obtain ⟨t, ht, hpc, hzero⟩ := exists_run_of_exec hexec
    exact ⟨_, _, s, t, hs, ht, by simp, hpc, hzero⟩
  · obtain ⟨s, hs, hmem, hexec⟩ : ∃ s,
        Run Kqueue.step Free (Kqueue.initial (fun _ : Unit => .read) fun _ => 5)
          [.submit (), .trigger, .run, .run, .process none, .run, .deliver [.wakeup], .handle 0] s ∧
        () ∈ s.submitted ∧
        (exec Kqueue.step s [.stop, .run, .run]).any
          (fun t => t.pc = .returned ∧ (t.op ()).completions = 0) = true := by
      apply exists_run_of_exec
      decide
    obtain ⟨t, ht, hpc, hzero⟩ := exists_run_of_exec hexec
    exact ⟨_, _, s, t, hs, ht, hmem, hpc, hzero⟩

end Koroutine
