import Koroutine.Engine.IoUringProgress
import Mathlib.Data.List.InsertIdx

/-!
# Operations by their addresses

The user data of an entry of the ring is the address of an operation, and `in_flight_ops_` is a map
from addresses.  An address may be that of another operation once the operation has been completed,
and the engine has dropped it.

The model is the engine with addresses in the place of the operations.  Beside each address in the
ring it records the operation the entry was prepared for, which the code does not read.  As long as
no two operations of one address are held at a time, the entry found for an address is that of the
operation `in_flight_ops_` has for it, and the engine behaves as the one with operations
(`step_abs`).
-/

open Transition

namespace Koroutine.IoUring.Addressed

variable {α ι : Type*}

/-- The engine, with `in_flight_ops_` by address. -/
structure State (α ι : Type*) where
  pc : Pc ι
  running : Bool
  pending_ops : List ι
  in_flight_ops : α → Option ι
  op : ι → Op
  sq : List (UserData (α × ι))
  kernel : List (UserData (α × ι))
  cq : List (Cqe (α × ι))
  event : ℕ
  submitting : List ι
  stopping : ℕ

/-- An engine whose `run` is about to begin, and operations of the given types. -/
def initial (type : ι → OpType) : State α ι where
  pc := .starting
  running := false
  pending_ops := []
  in_flight_ops := fun _ => none
  op := fun o => ⟨type o, .none, 0, 0⟩
  sq := []
  kernel := []
  cq := []
  event := 0
  submitting := []
  stopping := 0

namespace State

/-- `io_uring_get_sqe`, with the user data the entry is given. -/
def getSqe (s : State α ι) (data : UserData (α × ι)) : Option (State α ι) :=
  if s.sq.length < queueDepth then some { s with sq := s.sq ++ [data] } else none

/-- The kernel accepts the entries taken. -/
def submit (s : State α ι) : State α ι :=
  { s with kernel := s.kernel ++ s.sq, sq := [] }

/-- The read of the eventfd is put into the submission ring, if there is room. -/
def arm (s : State α ι) : State α ι :=
  (s.getSqe .wakeup).getD s

/-- The operations that `run` has still to process. -/
def queue (s : State α ι) : List ι := s.pc.batch ++ s.pending_ops

end State

variable [DecidableEq α] [DecidableEq ι] (address : ι → α)

/-- `complete(op)`, after the operation has been given an error. -/
def State.completeWith (s : State α ι) (o : ι) (error : ErrorCode) : State α ι :=
  { s with
    op := Function.update s.op o
      { s.op o with error := error, completions := (s.op o).completions + 1 } }

/-- `process_op` -/
def processOp (s : State α ι) (o : ι) : State α ι :=
  match s.getSqe (if (s.op o).type.supported then .op (address o, o) else .null) with
  | none => s.completeWith o .no_buffer_space
  | some t =>
      if (s.op o).type.supported then
        { t with in_flight_ops := Function.update s.in_flight_ops (address o) (some o) }
      else t.completeWith o .operation_not_supported

/-- The completion of a user operation: the one `in_flight_ops_` has for the address. -/
def finishOp (s : State α ι) (a : α) (res : ℤ) : State α ι :=
  match s.in_flight_ops a with
  | some o =>
      { s with
        in_flight_ops := Function.update s.in_flight_ops a none
        op := Function.update s.op o
          { s.op o with
            error := if res < 0 then .errno (-res) else .none
            actual_size := if res < 0 then 0 else res.toNat
            completions := (s.op o).completions + 1 } }
  | none => s

/-- The body of the loop over the completion ring. -/
def reap (s : State α ι) (cqe : Cqe (α × ι)) : State α ι :=
  match cqe.user_data with
  | .wakeup => { s with pc := .processing s.pending_ops, pending_ops := [] }
  | .op (a, _) => finishOp s a cqe.res
  | .null => s

/-- The next step of the thread in `run`. -/
def runStep (s : State α ι) : Option (State α ι) :=
  match s.pc with
  | .starting => some { s with running := true, pc := .arming }
  | .arming => some { s.arm.submit with pc := .checking }
  | .checking => some { s with pc := if s.running then .waiting else .returned }
  | .waiting => some { s.submit with pc := .blocked }
  | .blocked => if s.cq = [] then none else some { s with pc := .reaping }
  | .reaping =>
      match s.cq with
      | [] => some { s with pc := .checking }
      | cqe :: cq => some (reap { s with cq := cq } cqe)
  | .processing [] => some { s.arm with pc := .reaping }
  | .processing (o :: batch) => some { processOp address s o with pc := .processing batch }
  | .returned => none

/-- The kernel completes an entry. -/
def complete (s : State α ι) (k : ℕ) (res : ℤ) : Option (State α ι) :=
  match s.kernel[k]? with
  | none => none
  | some .wakeup =>
      if res < 0 then
        some { s with kernel := s.kernel.eraseIdx k, cq := s.cq ++ [⟨.wakeup, res⟩] }
      else if 0 < s.event then
        some { s with
          kernel := s.kernel.eraseIdx k, cq := s.cq ++ [⟨.wakeup, res⟩], event := 0 }
      else none
  | some data => some { s with kernel := s.kernel.eraseIdx k, cq := s.cq ++ [⟨data, res⟩] }

/-- The step function.  An operation that is submitted is at an address at which the engine holds no
other. -/
def step (s : State α ι) : Label ι → Option (State α ι)
  | .push o =>
      if (∀ o' ∈ s.queue, address o' ≠ address o) ∧ s.in_flight_ops (address o) = none then
        some { s with pending_ops := s.pending_ops ++ [o], submitting := s.submitting ++ [o] }
      else none
  | .signal o =>
      if o ∈ s.submitting then
        some { s with submitting := s.submitting.erase o, event := eventWrite s.event }
      else none
  | .stop => some { s with running := false, stopping := s.stopping + 1 }
  | .signalStop =>
      if 0 < s.stopping then
        some { s with stopping := s.stopping - 1, event := eventWrite s.event }
      else none
  | .complete k res => complete s k res
  | .run => runStep address s
  | .interrupt => if s.pc = .blocked then some { s with pc := .checking } else none
  | .fail => if s.pc = .blocked then some { s with pc := .returned } else none

/-! ### The engine with operations -/

/-- The user data with the operation in the place of its address. -/
def owner : UserData (α × ι) → UserData ι
  | .wakeup => .wakeup
  | .op (_, o) => .op o
  | .null => .null

/-- The engine with operations. -/
def abs (s : State α ι) : IoUring.State ι where
  pc := s.pc
  running := s.running
  pending_ops := s.pending_ops
  in_flight_ops := fun o => s.in_flight_ops (address o) = some o
  op := s.op
  sq := s.sq.map owner
  kernel := s.kernel.map owner
  cq := s.cq.map fun cqe => ⟨owner cqe.user_data, cqe.res⟩
  event := s.event
  submitting := s.submitting
  stopping := s.stopping

omit [DecidableEq α] in
@[simp] theorem abs_initial {type : ι → OpType} :
  abs address (initial type) = IoUring.initial type
  := by
  simp [abs, initial, IoUring.initial]

/-- The user data in the ring. -/
def State.entries (s : State α ι) : List (UserData (α × ι)) :=
  s.sq ++ s.kernel ++ s.cq.map Cqe.user_data

/-- No two operations of one address are held, and every entry in the ring is of the operation that
`in_flight_ops_` has for its address. -/
structure Keyed (s : State α ι) : Prop where
  addresses : (s.queue.map address).Nodup
  queued : ∀ o ∈ s.queue, s.in_flight_ops (address o) = none
  keyed : ∀ a o, s.in_flight_ops a = some o → address o = a
  entries : ∀ a o, .op (a, o) ∈ s.entries → s.in_flight_ops a = some o
  once : ∀ a o, s.entries.count (.op (a, o)) ≤ 1

variable {address} {s t : State α ι} {a : Label ι}

/-- A step that leaves the operations the engine holds, and their entries. -/
theorem Keyed.congr (hs : Keyed address s) (hqueue : t.queue = s.queue)
    (hflight : t.in_flight_ops = s.in_flight_ops)
    (hentries : ∀ a o, t.entries.count (.op (a, o)) = s.entries.count (.op (a, o))) :
  Keyed address t
  := by
  constructor
  · rw [hqueue]
    apply hs.addresses
  · rw [hqueue, hflight]
    apply hs.queued
  · rw [hflight]
    apply hs.keyed
  · intro a o hmem
    rw [hflight]
    apply hs.entries a o
    rw [← List.count_pos_iff, ← hentries]
    apply List.count_pos_iff.mpr hmem
  · intro a o
    rw [hentries]
    apply hs.once

omit [DecidableEq α] [DecidableEq ι] in
theorem exists_arm :
  ∃ data, s.arm = { s with sq := s.sq ++ data } ∧ ∀ d ∈ data, d = .wakeup
  := by
  by_cases hroom : s.sq.length < queueDepth
  · use [.wakeup]
    simp [State.arm, State.getSqe, hroom]
  · use []
    simp [State.arm, State.getSqe, hroom]

theorem count_arm (a : α) (o : ι) :
  s.arm.entries.count (.op (a, o)) = s.entries.count (.op (a, o))
  := by
  obtain ⟨data, heq, hdata⟩ := exists_arm (s := s)
  have hnone : data.count (.op (a, o)) = 0 := by
    apply List.count_eq_zero.mpr
    intro hmem
    have hwakeup := hdata _ hmem
    contradiction
  rw [heq]
  simp only [State.entries, List.count_append, hnone]
  omega

/-- An operation is put into the ring. -/
theorem Keyed.take {o : ι} (hs : Keyed address s) (hqueue : s.queue = o :: t.queue)
    (hflight : t.in_flight_ops = Function.update s.in_flight_ops (address o) (some o))
    (hcount : ∀ a o', t.entries.count (.op (a, o')) =
      s.entries.count (.op (a, o')) + if (a, o') = (address o, o) then 1 else 0) :
  Keyed address t
  := by
  have haddresses := hs.addresses
  have hqueued := hs.queued
  rw [hqueue] at haddresses hqueued
  rw [List.map_cons, List.nodup_cons] at haddresses
  have hnone : s.in_flight_ops (address o) = none := hqueued o List.mem_cons_self
  have hfree : ∀ a o', .op (a, o') ∈ s.entries → a ≠ address o := by
    rintro a o' hmem rfl
    rw [hs.entries _ _ hmem] at hnone
    contradiction
  constructor
  · apply haddresses.2
  · intro o' ho'
    have hne : address o' ≠ address o := by
      intro heq
      apply haddresses.1
      rw [← heq]
      apply List.mem_map_of_mem ho'
    rw [hflight, Function.update_of_ne hne]
    apply hqueued o' (List.mem_cons_of_mem o ho')
  · intro a o' ho'
    rw [hflight, Function.update_apply] at ho'
    split at ho'
    · rename_i ha
      obtain rfl := Option.some.inj ho'
      apply ha.symm
    · apply hs.keyed a o' ho'
  · intro a o' hmem
    have hpos := List.count_pos_iff.mpr hmem
    rw [hcount] at hpos
    split at hpos
    · rename_i hnew
      obtain ⟨rfl, rfl⟩ := Prod.mk.inj hnew
      rw [hflight, Function.update_self]
    · have hbefore := List.count_pos_iff.mp hpos
      rw [hflight, Function.update_of_ne (hfree a o' hbefore)]
      apply hs.entries a o' hbefore
  · intro a o'
    rw [hcount]
    split
    · rename_i hnew
      obtain ⟨rfl, rfl⟩ := Prod.mk.inj hnew
      have hzero : s.entries.count (.op (address o', o')) = 0 := by
        apply List.count_eq_zero.mpr
        intro hmem
        apply hfree _ _ hmem rfl
      rw [hzero]
    · apply hs.once

/-- An operation is completed, and its address may be used again. -/
theorem Keyed.finish {o : ι} {a : α} (hs : Keyed address s) (hqueue : t.queue = s.queue)
    (hflight : t.in_flight_ops = Function.update s.in_flight_ops a none)
    (hsome : s.in_flight_ops a = some o)
    (hcount : ∀ a' o', s.entries.count (.op (a', o')) =
      t.entries.count (.op (a', o')) + if (a', o') = (a, o) then 1 else 0) :
  Keyed address t
  := by
  constructor
  · rw [hqueue]
    apply hs.addresses
  · intro o' ho'
    rw [hqueue] at ho'
    rw [hflight, Function.update_apply]
    split
    · rfl
    · apply hs.queued o' ho'
  · intro a' o' ho'
    rw [hflight, Function.update_apply] at ho'
    split at ho'
    · contradiction
    · apply hs.keyed a' o' ho'
  · intro a' o' hmem
    have hpos := List.count_pos_iff.mpr hmem
    have hbefore : s.in_flight_ops a' = some o' := by
      apply hs.entries a' o'
      rw [← List.count_pos_iff, hcount]
      omega
    have hne : a' ≠ a := by
      rintro rfl
      obtain rfl : o = o' := by simpa [hsome] using hbefore
      have hone := hs.once a' o
      rw [hcount, if_pos rfl] at hone
      omega
    rw [hflight, Function.update_of_ne hne, hbefore]
  · intro a' o'
    have hone := hs.once a' o'
    rw [hcount] at hone
    omega

/-- An operation is completed without having been put into the ring. -/
theorem Keyed.refuse {o : ι} (hs : Keyed address s) (hqueue : s.queue = o :: t.queue)
    (hflight : t.in_flight_ops = s.in_flight_ops)
    (hentries : ∀ a o', t.entries.count (.op (a, o')) = s.entries.count (.op (a, o'))) :
  Keyed address t
  := by
  constructor
  · have haddresses := hs.addresses
    rw [hqueue, List.map_cons, List.nodup_cons] at haddresses
    apply haddresses.2
  · intro o' ho'
    rw [hflight]
    apply hs.queued
    rw [hqueue]
    apply List.mem_cons_of_mem o ho'
  · rw [hflight]
    apply hs.keyed
  · intro a o' hmem
    rw [hflight]
    apply hs.entries
    rw [← List.count_pos_iff, ← hentries]
    apply List.count_pos_iff.mpr hmem
  · intro a o'
    rw [hentries]
    apply hs.once

/-- The first of the queue is processed. -/
theorem Keyed.processOp {o : ι} {batch : List ι} (hs : Keyed address s)
    (hpc : s.pc = .processing (o :: batch)) :
  Keyed address { processOp address s o with pc := .processing batch }
  := by
  have hqueue : s.queue = o :: (batch ++ s.pending_ops) := by
    simp [State.queue, hpc, Pc.batch]
  by_cases hroom : s.sq.length < queueDepth
  · cases hsupported : (s.op o).type.supported with
    | true =>
        have heq : Addressed.processOp address s o = { s with
            sq := s.sq ++ [.op (address o, o)]
            in_flight_ops := Function.update s.in_flight_ops (address o) (some o) } := by
          simp [Addressed.processOp, State.getSqe, hroom, hsupported]
        rw [heq]
        refine hs.take hqueue rfl ?_
        intro a o'
        have hone : [UserData.op (address o, o)].count (.op (a, o')) =
            if (a, o') = (address o, o) then 1 else 0 := by
          by_cases hnew : (a, o') = (address o, o)
          · rw [hnew, List.count_singleton_self, if_pos rfl]
          · rw [if_neg hnew]
            apply List.count_eq_zero.mpr
            intro hmem
            apply hnew
            apply UserData.op.inj (List.mem_singleton.mp hmem)
        simp only [State.entries, List.count_append, hone]
        omega
    | false =>
        have heq : Addressed.processOp address s o =
            { s.completeWith o .operation_not_supported with sq := s.sq ++ [.null] } := by
          simp [Addressed.processOp, State.getSqe, hroom, hsupported, State.completeWith]
        rw [heq]
        refine hs.refuse hqueue rfl ?_
        intro a o'
        simp [State.entries, State.completeWith, List.count_append]
  · have heq : Addressed.processOp address s o = s.completeWith o .no_buffer_space := by
      simp [Addressed.processOp, State.getSqe, hroom]
    rw [heq]
    refine hs.refuse hqueue rfl ?_
    intro a o'
    rfl

/-- An entry of the completion ring is handled. -/
theorem Keyed.reap {cqe : Cqe (α × ι)} {cq : List (Cqe (α × ι))} (hs : Keyed address s)
    (hpc : s.pc = .reaping) (hcq : s.cq = cqe :: cq) :
  Keyed address (reap { s with cq := cq } cqe)
  := by
  have hcount : ∀ a o, s.entries.count (.op (a, o)) =
      (s.sq ++ s.kernel ++ cq.map Cqe.user_data).count (.op (a, o)) +
        if cqe.user_data = .op (a, o) then 1 else 0 := by
    intro a o
    simp only [State.entries, hcq, List.map_cons, List.count_append, List.count_cons, beq_iff_eq]
    omega
  unfold Addressed.reap
  split
  · rename_i hdata
    apply hs.congr
    · simp [State.queue, hpc, Pc.batch]
    · rfl
    · intro a o
      rw [hcount, hdata]
      simp [State.entries]
  · rename_i a o hdata
    have hsome : s.in_flight_ops a = some o := by
      apply hs.entries
      rw [State.entries, hcq, List.map_cons, hdata]
      simp
    unfold finishOp
    simp only [hsome]
    refine hs.finish rfl rfl hsome ?_
    intro a' o'
    rw [hcount, hdata]
    simp [State.entries, eq_comm]
  · rename_i hdata
    apply hs.congr
    · rfl
    · rfl
    · intro a o
      rw [hcount, hdata]
      simp [State.entries]

theorem Keyed.runStep (hs : Keyed address s) (h : runStep address s = some t) :
  Keyed address t
  := by
  cases hpc : s.pc with
  | starting | checking =>
      simp only [Addressed.runStep, hpc, Option.some.injEq] at h
      subst h
      apply hs.congr
      · cases s.running <;> simp [State.queue, hpc, Pc.batch]
      · rfl
      · exact fun _ _ => rfl
  | arming =>
      simp only [Addressed.runStep, hpc, Option.some.injEq] at h
      subst h
      obtain ⟨data, heq, -⟩ := exists_arm (s := s)
      apply hs.congr
      · simp [State.queue, State.submit, heq, hpc, Pc.batch]
      · simp [State.submit, heq]
      · intro a o
        apply Eq.trans _ (count_arm a o)
        simp only [State.entries, State.submit, List.count_append, List.count_nil]
        omega
  | waiting =>
      simp only [Addressed.runStep, hpc, Option.some.injEq] at h
      subst h
      apply hs.congr
      · simp [State.queue, State.submit, hpc, Pc.batch]
      · rfl
      · intro a o
        simp only [State.entries, State.submit, List.count_append, List.count_nil]
        omega
  | blocked =>
      simp only [Addressed.runStep, hpc, Option.ite_none_left_eq_some, Option.some.injEq] at h
      obtain ⟨-, rfl⟩ := h
      apply hs.congr
      · simp [State.queue, hpc, Pc.batch]
      · rfl
      · exact fun _ _ => rfl
  | reaping =>
      cases hcq : s.cq with
      | nil =>
          simp only [Addressed.runStep, hpc, hcq, Option.some.injEq] at h
          subst h
          apply hs.congr
          · simp [State.queue, hpc, Pc.batch]
          · rfl
          · intro a o
            simp [State.entries, hcq]
      | cons cqe cq =>
          simp only [Addressed.runStep, hpc, hcq, Option.some.injEq] at h
          rw [← h, ← hpc]
          apply hs.reap hpc hcq
  | processing batch =>
      cases batch with
      | nil =>
          simp only [Addressed.runStep, hpc, Option.some.injEq] at h
          subst h
          obtain ⟨data, heq, -⟩ := exists_arm (s := s)
          apply hs.congr
          · simp [State.queue, heq, hpc, Pc.batch]
          · simp [heq]
          · apply count_arm
      | cons o batch =>
          simp only [Addressed.runStep, hpc, Option.some.injEq] at h
          subst h
          apply hs.processOp hpc
  | returned => simp [Addressed.runStep, hpc] at h

omit [DecidableEq α] [DecidableEq ι] in
/-- The kernel moves an entry from one ring to the other. -/
theorem complete_cases {k : ℕ} {res : ℤ} (h : complete s k res = some t) :
  ∃ data event, s.kernel[k]? = some data ∧
    t = { s with
      kernel := s.kernel.eraseIdx k, cq := s.cq ++ [⟨data, res⟩], event := event }
  := by
  unfold complete at h
  split at h
  · contradiction
  · rename_i hk
    split at h
    · exact ⟨.wakeup, s.event, hk, (Option.some.inj h).symm⟩
    · split at h
      · exact ⟨.wakeup, 0, hk, (Option.some.inj h).symm⟩
      · contradiction
  · rename_i data hdata hk
    exact ⟨data, s.event, hk, (Option.some.inj h).symm⟩

theorem Keyed.step (hs : Keyed address s) (h : step address s a = some t) :
  Keyed address t
  := by
  cases a with
  | push o =>
      simp only [Addressed.step, Option.ite_none_right_eq_some, Option.some.injEq] at h
      obtain ⟨⟨hother, hfree⟩, rfl⟩ := h
      have hqueue : State.queue { s with
          pending_ops := s.pending_ops ++ [o], submitting := s.submitting ++ [o] } =
            s.queue ++ [o] := by
        simp [State.queue]
      constructor
      · rw [hqueue, List.map_append]
        apply hs.addresses.append (List.nodup_singleton _)
        simpa using hother
      · rw [hqueue]
        intro o' ho'
        obtain hbefore | hnow := List.mem_append.mp ho'
        · apply hs.queued o' hbefore
        · rw [List.mem_singleton.mp hnow]
          apply hfree
      · apply hs.keyed
      · apply hs.entries
      · apply hs.once
  | signal o | signalStop =>
      simp only [Addressed.step, Option.ite_none_right_eq_some, Option.some.injEq] at h
      obtain ⟨-, rfl⟩ := h
      exact hs.congr rfl rfl fun _ _ => rfl
  | stop =>
      obtain rfl := Option.some.inj h
      exact hs.congr rfl rfl fun _ _ => rfl
  | complete k res =>
      obtain ⟨data, event, hk, rfl⟩ := complete_cases h
      apply hs.congr
      · rfl
      · rfl
      · intro a o
        obtain ⟨hlt, hdata⟩ := List.getElem?_eq_some_iff.mp hk
        have hperm := (List.getElem_cons_eraseIdx_perm hlt).count_eq (UserData.op (a, o))
        rw [hdata, List.count_cons] at hperm
        simp only [State.entries, List.map_append, List.map_cons, List.map_nil, List.count_append,
          List.count_singleton]
        omega
  | run => apply hs.runStep h
  | interrupt | fail =>
      simp only [Addressed.step, Option.ite_none_right_eq_some, Option.some.injEq] at h
      obtain ⟨hpc, rfl⟩ := h
      apply hs.congr
      · simp [State.queue, hpc, Pc.batch]
      · rfl
      · exact fun _ _ => rfl

theorem Keyed.initial {type : ι → OpType} :
  Keyed address (initial type)
  where
  addresses := List.nodup_nil
  queued _ h := by contradiction
  keyed _ _ h := by contradiction
  entries _ _ h := by contradiction
  once _ _ := by simp [State.entries, Addressed.initial]

/-! ### Simulation -/

omit [DecidableEq α] in
theorem abs_arm :
  abs address s.arm = (abs address s).arm
  := by
  by_cases hroom : s.sq.length < queueDepth <;>
    simp [State.arm, State.getSqe, IoUring.State.arm, IoUring.State.getSqe, abs, hroom, owner]

theorem abs_processOp {o : ι} {batch : List ι} (hs : Keyed address s)
    (hpc : s.pc = .processing (o :: batch)) :
  abs address { processOp address s o with pc := .processing batch } =
    { IoUring.processOp (abs address s) o with pc := .processing batch }
  := by
  have hnone : s.in_flight_ops (address o) = none := by
    apply hs.queued
    simp [State.queue, hpc, Pc.batch]
  have hflight : (fun o' => decide (Function.update s.in_flight_ops (address o) (some o)
      (address o') = some o')) =
      Function.update (fun o' => decide (s.in_flight_ops (address o') = some o')) o true := by
    funext o'
    by_cases ho : o' = o
    · simp [ho]
    · rw [Function.update_of_ne ho, Function.update_apply]
      split
      · rename_i haddress
        rw [haddress, hnone]
        simp [Ne.symm ho]
      · rfl
  by_cases hroom : s.sq.length < queueDepth
  · cases hsupported : (s.op o).type.supported with
    | true =>
        simp [processOp, State.getSqe, IoUring.processOp, IoUring.State.getSqe, abs, hroom, owner,
          hsupported, hflight]
    | false =>
        simp [processOp, State.getSqe, State.completeWith, IoUring.processOp, IoUring.State.getSqe,
          IoUring.State.completeWith, abs, hroom, owner, hsupported]
  · simp [processOp, State.getSqe, State.completeWith, IoUring.processOp, IoUring.State.getSqe,
      IoUring.State.completeWith, abs, hroom]

theorem abs_reap {cqe : Cqe (α × ι)} {cq : List (Cqe (α × ι))} (hs : Keyed address s)
    (hcq : s.cq = cqe :: cq) :
  abs address (reap { s with cq := cq } cqe) =
    IoUring.reap (abs address { s with cq := cq }) ⟨owner cqe.user_data, cqe.res⟩
  := by
  obtain ⟨data, res⟩ := cqe
  cases data with
  | wakeup | null => rfl
  | op d =>
      obtain ⟨a, o⟩ := d
      have hsome : s.in_flight_ops a = some o := by
        apply hs.entries
        simp [State.entries, hcq]
      obtain rfl := hs.keyed a o hsome
      have hflight : (fun o' => decide (Function.update s.in_flight_ops (address o) none
          (address o') = some o')) =
          Function.update (fun o' => decide (s.in_flight_ops (address o') = some o')) o false := by
        funext o'
        by_cases ho : o' = o
        · simp [ho]
        · rw [Function.update_of_ne ho, Function.update_apply]
          split
          · rename_i haddress
            rw [haddress, hsome]
            simp [Ne.symm ho]
          · rfl
      simp [reap, finishOp, IoUring.reap, IoUring.finishOp, abs, owner, hsome, hflight]

theorem abs_runStep (hs : Keyed address s) (h : runStep address s = some t) :
  IoUring.runStep (abs address s) = some (abs address t)
  := by
  have habs : (abs address s).pc = s.pc := rfl
  cases hpc : s.pc with
  | starting | checking | waiting =>
      simp only [runStep, hpc, Option.some.injEq] at h
      subst h
      simp [IoUring.runStep, abs, hpc, State.submit, IoUring.State.submit]
  | arming =>
      simp only [runStep, hpc, Option.some.injEq] at h
      subst h
      simp only [IoUring.runStep, habs, hpc, ← abs_arm]
      simp only [abs, State.submit, IoUring.State.submit, List.map_append, List.map_nil]
      rfl
  | blocked =>
      simp only [runStep, hpc, Option.ite_none_left_eq_some, Option.some.injEq] at h
      obtain ⟨hcq, rfl⟩ := h
      simp [IoUring.runStep, abs, hpc, hcq]
  | reaping =>
      cases hcq : s.cq with
      | nil =>
          simp only [runStep, hpc, hcq, Option.some.injEq] at h
          subst h
          simp [IoUring.runStep, abs, hpc, hcq]
      | cons cqe cq =>
          simp only [runStep, hpc, hcq, Option.some.injEq] at h
          rw [← h, ← hpc, abs_reap hs hcq]
          simp [IoUring.runStep, abs, hpc, hcq]
  | processing batch =>
      cases batch with
      | nil =>
          simp only [runStep, hpc, Option.some.injEq] at h
          subst h
          simp only [IoUring.runStep, habs, hpc, ← abs_arm]
          rfl
      | cons o batch =>
          simp only [runStep, hpc, Option.some.injEq] at h
          subst h
          rw [abs_processOp hs hpc]
          simp [IoUring.runStep, habs, hpc]
  | returned => simp [runStep, hpc] at h

omit [DecidableEq α] in
theorem abs_complete {k : ℕ} {res : ℤ} (h : complete s k res = some t) :
  IoUring.complete (abs address s) k res = some (abs address t)
  := by
  unfold complete at h
  unfold IoUring.complete
  have hkernel : (abs address s).kernel[k]? = s.kernel[k]?.map owner := by
    simp [abs]
  rw [hkernel]
  cases hk : s.kernel[k]? with
  | none => simp [hk] at h
  | some data =>
      cases data with
      | wakeup =>
          simp only [hk] at h
          simp only [Option.map_some, owner]
          split at h
          · rename_i hres
            obtain rfl := Option.some.inj h
            simp [abs, hres, owner, List.eraseIdx_map]
          · rename_i hres
            split at h
            · rename_i hevent
              obtain rfl := Option.some.inj h
              simp [abs, hres, hevent, owner, List.eraseIdx_map]
            · contradiction
      | op d | null =>
          simp only [hk, Option.some.injEq] at h
          subst h
          simp [abs, owner, List.eraseIdx_map]

/-- The engine with addresses behaves as the engine with operations. -/
theorem step_abs (hs : Keyed address s) (h : step address s a = some t) :
  IoUring.step (abs address s) a = some (abs address t)
  := by
  cases a with
  | push o =>
      simp only [step, Option.ite_none_right_eq_some, Option.some.injEq] at h
      obtain ⟨-, rfl⟩ := h
      rfl
  | signal o =>
      simp only [step, Option.ite_none_right_eq_some, Option.some.injEq] at h
      obtain ⟨hmem, rfl⟩ := h
      exact if_pos hmem
  | stop =>
      obtain rfl := Option.some.inj h
      rfl
  | signalStop =>
      simp only [step, Option.ite_none_right_eq_some, Option.some.injEq] at h
      obtain ⟨hpos, rfl⟩ := h
      exact if_pos hpos
  | complete k res => apply abs_complete h
  | run => apply abs_runStep hs h
  | interrupt | fail =>
      simp only [step, Option.ite_none_right_eq_some, Option.some.injEq] at h
      obtain ⟨hpc, rfl⟩ := h
      exact if_pos hpc

/-! ### Result -/

/-- How often operation `o` is in `pending_ops_`, in the batch, in `in_flight_ops_`, or has been
completed. -/
def State.account (address : ι → α) (s : State α ι) (o : ι) : ℕ :=
  s.pending_ops.count o + s.pc.batch.count o +
    (if s.in_flight_ops (address o) = some o then 1 else 0) + (s.op o).completions

/-- What an operation is after a step that completes it: the entry of the completion ring that was
prepared for it gives it its result, or it could not be put into the ring. -/
inductive Answer (address : ι → α) (s : State α ι) (o : ι) : Op → Prop
  | result (res : ℤ) (cqe : s.cq.head? = some ⟨.op (address o, o), res⟩) :
      Answer address s o ((s.op o).result res)
  | refused (error : ErrorCode)
      (cause : error = .no_buffer_space ∨ error = .operation_not_supported) :
      Answer address s o ((s.op o).refused error)

variable {type : ι → OpType} {as : List (Label ι)}

theorem keyed_of_run (h : Run (step address) Free (initial type) as t) :
  Keyed address t
  := by
  apply h.invariant (Keyed address)
  · intro s a t hs _ e
    apply hs.step e
  · apply Keyed.initial

/-- A run of the engine with addresses is one of the engine with operations. -/
theorem run_abs (h : Run (step address) Free (initial type) as t) :
  Run IoUring.step Free (IoUring.initial type) as (abs address t)
  := by
  rw [← abs_initial address]
  apply h.refine (abs address) (Keyed address)
  · intro s a t hs _ e
    apply hs.step e
  · intro s a t hs _ e
    apply step_abs hs e
  · apply Keyed.initial

/-- The entry an operation finds in the completion ring was prepared for it. -/
theorem answer_abs (hs : Keyed address s) {o : ι} {op : Op}
    (h : IoUring.Answer (abs address s) o op) :
  Answer address s o op
  := by
  cases h with
  | refused error cause => apply Answer.refused (s := s) error cause
  | result res cqe =>
      apply Answer.result (s := s) res
      cases hcq : s.cq with
      | nil => simp [abs, hcq] at cqe
      | cons c cq =>
          obtain ⟨data, res'⟩ := c
          cases data with
          | wakeup | null => simp [abs, hcq, owner] at cqe
          | op d =>
              obtain ⟨a, o'⟩ := d
              obtain ⟨rfl, rfl⟩ : o' = o ∧ res' = res := by simpa [abs, hcq, owner] using cqe
              have hsome : s.in_flight_ops a = some o' := by
                apply hs.entries
                simp [State.entries, hcq]
              rw [hs.keyed a o' hsome]
              rfl

/-- Every operation that has been submitted is in exactly one place, or has been completed, and
`in_flight_ops_` has it under its own address; it is completed once at most, by its own entry of the
completion ring, or because it could not be put into the ring. -/
theorem completed_by_own (h : Run (step address) Free (initial type) as t)
    (hnodup : (as.filterMap Label.pushed).Nodup) :
  (∀ o, t.account address o = if .push o ∈ as then 1 else 0) ∧
  (∀ a o, t.in_flight_ops a = some o → address o = a) ∧
  (∀ o, (t.op o).completions ≤ 1) ∧
  ∀ o, (t.op o).completions ≠ 0 → ∃ bs cs u, as = bs ++ cs ∧
    Run (step address) Free (initial type) bs u ∧ Answer address u o (t.op o)
  := by
  have hpushed : ∀ o, o ∈ as.filterMap Label.pushed ↔ .push o ∈ as := by
    intro o
    rw [List.mem_filterMap]
    constructor
    · intro ⟨a, ha, hpush⟩
      cases a with
      | push o' =>
          obtain rfl := Option.some.inj hpush
          apply ha
      | signal _ | stop | signalStop | complete _ _ | run | interrupt | fail => contradiction
    · intro ha
      exact ⟨.push o, ha, rfl⟩
  have haccount : ∀ o, t.account address o = if .push o ∈ as then 1 else 0 := by
    intro o
    have hcount := account_run (run_abs h) hnodup o
    have hflight : ((abs address t).in_flight_ops o).toNat =
        if t.in_flight_ops (address o) = some o then 1 else 0 := by
      by_cases hheld : t.in_flight_ops (address o) = some o <;> simp [abs, hheld]
    rw [IoUring.State.account, hflight] at hcount
    rw [State.account]
    apply hcount.trans
    split
    · rename_i hmem
      apply List.count_eq_one_of_mem hnodup ((hpushed o).mpr hmem)
    · rename_i hmem
      apply List.count_eq_zero.mpr
      intro hmem'
      apply hmem ((hpushed o).mp hmem')
  refine ⟨haccount, (keyed_of_run h).keyed, ?_, ?_⟩
  · intro o
    have hone := haccount o
    have hle : (if Label.push o ∈ as then 1 else 0) ≤ 1 := by
      split <;> omega
    rw [State.account] at hone
    omega
  · intro o hcompleted
    obtain hsame | ⟨bs, a, cs, u, v, rfl, hbefore, hstep, hne, heq⟩ :=
      h.last_change fun s => s.op o
    · rw [hsame] at hcompleted
      contradiction
    · have hkeyed := keyed_of_run hbefore
      refine ⟨bs, a :: cs, u, rfl, hbefore, ?_⟩
      rw [heq]
      apply answer_abs hkeyed
      apply (progress_step (step_abs hkeyed hstep)).answer hne

/-- Two operations, one after the other, at one address. -/
theorem completed_by_own_two :
  ∃ as t, Run (step fun _ : Bool => ()) Free (initial fun _ => .read) as t ∧
    (t.op true).completions = 1 ∧ (t.op true).actual_size = 5 ∧
    t.in_flight_ops () = some false ∧ (t.op false).completions = 0
  := by
  obtain ⟨t, ht, hsize, hone, hflight⟩ : ∃ t,
      Run (step fun _ : Bool => ()) Free (initial fun _ => .read)
        (List.flatten [[.push true, .signal true], List.replicate 4 .run, [.complete 0 8],
          List.replicate 7 .run, [.complete 0 5], List.replicate 3 .run, [.push false, .signal false],
          List.replicate 2 .run, [.complete 0 8], List.replicate 4 .run]) t ∧
      (t.op true).actual_size = 5 ∧ (t.op true).completions = 1 ∧
      t.in_flight_ops () = some false := by
    apply exists_run_of_exec
    decide
  obtain ⟨haccount, -, -, -⟩ := completed_by_own ht (by decide)
  have hfalse := haccount false
  rw [State.account, if_pos hflight] at hfalse
  refine ⟨_, t, ht, hone, hsize, hflight, ?_⟩
  split at hfalse <;> omega

end Koroutine.IoUring.Addressed
