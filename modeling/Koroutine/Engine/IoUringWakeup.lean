import Mathlib.Data.List.Perm.Basic
import Koroutine.Engine.IoUringEffect
import Koroutine.Transition.Run

/-!
# The wake-up of `IoUringIOEngine`

The read of the eventfd is in the submission ring, in the kernel, or in the completion ring, from
its preparation until `run` finds its completion.  It is prepared anew from the ring that has just
taken the drained operations: when these leave no room, it is never prepared again.
-/

open Transition

namespace Koroutine.IoUring

variable {ι : Type*} {s t : State ι}

/-! ### The counter of the eventfd -/

/-- The eventfd can be read, or has been. -/
def State.CanWake (s : State ι) : Prop :=
  0 < s.event ∨ .wakeup ∈ s.cq.map Cqe.user_data

/-- Operations whose `submit` is complete, and calls of `stop` that are, can wake `run`. -/
structure Signalled (s : State ι) : Prop where
  submitted : ∀ o ∈ s.pending_ops, o ∉ s.submitting → s.CanWake
  stopped : s.pc = .waiting ∨ s.pc = .blocked → s.running = false → s.stopping = 0 → s.CanWake

theorem Signalled.initial {type : ι → OpType} :
  Signalled (initial type)
  := by
  constructor <;> simp [IoUring.initial]

theorem eventWrite_pos (event : ℕ) :
  0 < eventWrite event
  := by
  unfold eventWrite
  omega

/-- A completion leaves the eventfd readable, or is the read. -/
theorem canWake_complete {k event : ℕ} {res : ℤ} {data : UserData ι}
    (hread : event = s.event ∨ data = .wakeup) (hs : s.CanWake) :
  State.CanWake
    { s with kernel := s.kernel.eraseIdx k, cq := s.cq ++ [⟨data, res⟩], event := event }
  := by
  unfold State.CanWake
  obtain rfl | rfl := hread
  · obtain hpos | hmem := hs
    · left
      apply hpos
    · right
      simp only [List.map_append, List.mem_append]
      left
      apply hmem
  · right
    simp

variable [DecidableEq ι]

/-! ### The outstanding read -/

/-- The reads of the eventfd that are outstanding: queued, accepted, or completed and not found. -/
def State.wakeups (s : State ι) : ℕ :=
  s.sq.count .wakeup + s.kernel.count .wakeup + (s.cq.map Cqe.user_data).count .wakeup

/-- A wake-up drains less operations than the submission ring has entries. -/
def DrainsFew (s : State ι) : Label ι → Prop
  | .run => ∀ cqe ∈ s.cq.head?, s.pc = .reaping → cqe.user_data = .wakeup →
      s.pending_ops.length < queueDepth
  | _ => True

/-- How many reads of the eventfd are outstanding at a place of `run`. -/
def Pc.armed : Pc ι → ℕ
  | .starting | .arming | .processing _ => 0
  | .checking | .waiting | .blocked | .reaping | .returned => 1

/-- The places of `run` before the first read is prepared, and in its call to wait, where no entry
is in the submission ring. -/
def Pc.flushed : Pc ι → Bool
  | .starting | .arming | .blocked => true
  | _ => false

/-- The read of the eventfd is outstanding where it should be, and where it is not there is room
for it. -/
structure Armed (s : State ι) : Prop where
  count : s.wakeups = s.pc.armed
  flushed : s.pc.flushed = true → s.sq = []
  reaping : s.pc = .reaping → s.sq = [] ∨ .wakeup ∈ s.sq
  room : ∀ batch, s.pc = .processing batch → s.sq.length + batch.length < queueDepth

/-- No read of the eventfd is outstanding, and none will be. -/
structure Lost (s : State ι) : Prop where
  begun : s.pc ≠ .starting ∧ s.pc ≠ .arming
  count : s.wakeups = 0
  full : ∀ batch, s.pc = .processing batch → queueDepth ≤ s.sq.length + batch.length

/-- A completion leaves the outstanding reads as they are. -/
theorem complete_wakeups {k event : ℕ} {res : ℤ} {data : UserData ι}
    (h : s.kernel[k]? = some data) :
  State.wakeups
      { s with kernel := s.kernel.eraseIdx k, cq := s.cq ++ [⟨data, res⟩], event := event } =
    s.wakeups
  := by
  obtain ⟨hlt, hdata⟩ := List.getElem?_eq_some_iff.mp h
  have hperm := (List.getElem_cons_eraseIdx_perm hlt).count_eq .wakeup
  rw [hdata, List.count_cons] at hperm
  simp only [State.wakeups, List.map_append, List.count_append, List.map_cons, List.map_nil,
    List.count_cons, List.count_nil]
  omega

/-- `process_op` leaves the outstanding reads as they are. -/
theorem processOp_wakeups (o : ι) :
  (processOp s o).wakeups = s.wakeups
  := by
  obtain ⟨data, op, in_flight_ops, hdata, heq⟩ := processOp_cases (s := s) o
  rw [heq]
  unfold State.wakeups
  split <;> simp [List.count_append, hdata]

/-! ### The steps of `run` -/

theorem Armed.initial {type : ι → OpType} :
  Armed (initial type)
  := by
  constructor <;> simp [IoUring.initial, State.wakeups, Pc.armed, Pc.flushed]

/-- A wake-up that drains less operations than the ring has entries leaves room for the next
read. -/
theorem Armed.find {cqe : Cqe ι} {cq : List (Cqe ι)} (hs : Armed s) (hpc : s.pc = .reaping)
    (hcq : s.cq = cqe :: cq)
    (hfew : cqe.user_data = .wakeup → s.pending_ops.length < queueDepth) :
  Armed (reap { s with cq := cq } cqe)
  := by
  have hcount := hs.count
  rw [hpc] at hcount
  by_cases hdata : cqe.user_data = .wakeup
  · simp only [State.wakeups, hcq, List.map_cons, hdata, List.count_cons_self, Pc.armed] at hcount
    have hnone : s.sq.count .wakeup = 0 := by omega
    have hsq : s.sq = [] := by
      obtain hsq | hmem := hs.reaping hpc
      · apply hsq
      · have := List.count_pos_iff.mpr hmem
        omega
    simp only [reap, hdata]
    constructor
    · simp only [State.wakeups, Pc.armed]
      omega
    · simp [Pc.flushed]
    · simp
    · intro batch hbatch
      obtain rfl := Pc.processing.inj hbatch
      simpa [hsq] using hfew hdata
  · obtain ⟨op, in_flight_ops, heq⟩ := reap_cases (s := { s with cq := cq }) hdata
    rw [heq]
    constructor
    · simp only [State.wakeups, hcq, List.map_cons, List.count_cons_of_ne hdata] at hcount
      apply hcount.trans
      rw [hpc]
    · simp [hpc, Pc.flushed]
    · apply hs.reaping
    · simp [hpc]

/-- An operation takes an entry at most, and leaves room for the others and the read. -/
theorem Armed.process {o : ι} {batch : List ι} (hs : Armed s)
    (hpc : s.pc = .processing (o :: batch)) :
  Armed { processOp s o with pc := .processing batch }
  := by
  have hcount := hs.count
  have hroom := hs.room (o :: batch) hpc
  rw [hpc] at hcount
  rw [List.length_cons] at hroom
  constructor
  · apply Eq.trans (processOp_wakeups o) hcount
  · simp [Pc.flushed]
  · simp
  · intro batch' hbatch
    obtain rfl := Pc.processing.inj hbatch
    obtain ⟨data, op, in_flight_ops, -, heq⟩ := processOp_cases (s := s) o
    rw [heq]
    simp only
    split
    · rw [List.length_append, List.length_singleton]
      omega
    · omega

/-- A step that leaves `run` where it is, and the ring but for completions. -/
theorem Armed.congr (hs : Armed s) (hpc : t.pc = s.pc) (hsq : t.sq = s.sq)
    (hwakeups : t.wakeups = s.wakeups) :
  Armed t
  := by
  constructor
  · rw [hwakeups, hpc, hs.count]
  · rw [hpc, hsq]
    apply hs.flushed
  · rw [hpc, hsq]
    apply hs.reaping
  · rw [hpc, hsq]
    apply hs.room

/-- Every step in which a wake-up drains few operations keeps the read outstanding. -/
theorem Armed.step {a : Label ι} (hs : Armed s) (ha : DrainsFew s a) (h : step s a = some t) :
  Armed t
  := by
  have hcount := hs.count
  have hflushed := hs.flushed
  cases effect_step h with
  | push | signal | stop | signalStop => exact hs.congr rfl rfl rfl
  | complete accepted => exact hs.congr rfl rfl (complete_wakeups accepted)
  | begun hpc =>
      rw [hpc] at hcount hflushed
      constructor <;> simp_all [State.wakeups, Pc.armed, Pc.flushed]
  | armed hpc =>
      rw [hpc] at hcount hflushed
      have hsq := hflushed rfl
      rw [arm_of_room (by simp [hsq, queueDepth])]
      constructor <;>
        simp_all [State.wakeups, State.submit, Pc.armed, Pc.flushed, List.count_append]
  | checked hpc | returned hpc | interrupted hpc | failed hpc =>
      rw [hpc] at hcount
      constructor
      · apply hcount
      · simp [Pc.flushed]
      · simp
      · simp
  | submitted hpc =>
      rw [hpc] at hcount
      simp only [State.wakeups, Pc.armed] at hcount
      constructor
      · simp only [State.wakeups, State.submit, List.count_append, List.count_nil, Pc.armed]
        omega
      · intro _
        rfl
      · simp
      · simp
  | woken hpc =>
      rw [hpc] at hcount hflushed
      constructor <;> simp_all [State.wakeups, Pc.armed, Pc.flushed]
  | reaped hpc =>
      rw [hpc] at hcount
      constructor <;> simp_all [State.wakeups, Pc.armed, Pc.flushed]
  | @found cqe cq hpc hcq =>
      apply hs.find hpc hcq
      apply ha cqe (by simp [hcq]) hpc
  | processed hpc => apply hs.process hpc
  | drained hpc =>
      rw [hpc] at hcount
      rw [arm_of_room (hs.room [] hpc)]
      constructor
      · simp only [State.wakeups, List.count_append, List.count_singleton_self, Pc.armed]
          at hcount ⊢
        omega
      · simp [Pc.flushed]
      · intro _
        right
        simp
      · simp

/-- A step that leaves `run` at a place where it processes no operations, and no read outstanding.
-/
theorem Lost.congr (hs : Lost s) (hpc : t.pc = s.pc) (hsq : t.sq = s.sq)
    (hwakeups : t.wakeups = s.wakeups) :
  Lost t
  := by
  constructor
  · rw [hpc]
    apply hs.begun
  · rw [hwakeups, hs.count]
  · rw [hpc, hsq]
    apply hs.full

/-- An operation leaves as little room as there was. -/
theorem Lost.process {o : ι} {batch : List ι} (hs : Lost s)
    (hpc : s.pc = .processing (o :: batch)) :
  Lost { processOp s o with pc := .processing batch }
  := by
  have hfull := hs.full (o :: batch) hpc
  rw [List.length_cons] at hfull
  constructor
  · simp
  · apply Eq.trans (processOp_wakeups o) hs.count
  · intro batch' hbatch
    obtain rfl := Pc.processing.inj hbatch
    obtain ⟨data, op, in_flight_ops, -, heq⟩ := processOp_cases (s := s) o
    rw [heq]
    simp only
    split
    · rw [List.length_append, List.length_singleton]
      omega
    · omega

/-- Once the read is lost it stays lost: `run` never prepares another. -/
theorem Lost.step {a : Label ι} (hs : Lost s) (h : step s a = some t) :
  Lost t
  := by
  have hcount := hs.count
  cases effect_step h with
  | push | signal | stop | signalStop => exact hs.congr rfl rfl rfl
  | complete accepted => exact hs.congr rfl rfl (complete_wakeups accepted)
  | begun hpc => apply absurd hpc hs.begun.1
  | armed hpc => apply absurd hpc hs.begun.2
  | checked | returned | woken | reaped | interrupted | failed =>
      constructor
      · simp
      · apply hcount
      · simp
  | submitted =>
      simp only [State.wakeups] at hcount
      constructor
      · simp
      · simp only [State.wakeups, State.submit, List.count_append, List.count_nil]
        omega
      · simp
  | @found cqe cq hpc hcq =>
      simp only [State.wakeups, hcq, List.map_cons, List.count_cons, Nat.add_eq_zero_iff]
        at hcount
      obtain ⟨⟨hsq, hkernel⟩, hrest, hfirst⟩ := hcount
      have hdata : cqe.user_data ≠ .wakeup := by
        intro heq
        simp [heq] at hfirst
      obtain ⟨op, in_flight_ops, heq⟩ := reap_cases (s := { s with cq := cq }) hdata
      rw [heq]
      constructor
      · apply hs.begun
      · simp [State.wakeups, hsq, hkernel, hrest]
      · simp [hpc]
  | processed hpc => apply hs.process hpc
  | drained hpc =>
      rw [arm_of_full (hs.full [] hpc)]
      constructor
      · simp
      · apply hcount
      · simp

/-- A read of the eventfd that is found drains the operations. -/
theorem Signalled.find {cqe : Cqe ι} {cq : List (Cqe ι)} (hs : Signalled s)
    (hpc : s.pc = .reaping) (hcq : s.cq = cqe :: cq) :
  Signalled (reap { s with cq := cq } cqe)
  := by
  by_cases hdata : cqe.user_data = .wakeup
  · simp only [reap, hdata]
    constructor <;> simp
  · obtain ⟨op, in_flight_ops, heq⟩ := reap_cases (s := { s with cq := cq }) hdata
    rw [heq]
    constructor
    · intro o ho hsubmit
      obtain hpos | hmem := hs.submitted o ho hsubmit
      · left
        apply hpos
      · right
        rw [hcq, List.map_cons, List.mem_cons] at hmem
        obtain hfirst | hrest := hmem
        · apply absurd hfirst.symm hdata
        · apply hrest
    · simp [hpc]

/-- Every step keeps the eventfd readable for what has been submitted and not drained. -/
theorem Signalled.step {a : Label ι} (hs : Signalled s) (h : step s a = some t) :
  Signalled t
  := by
  have hsubmitted := hs.submitted
  cases effect_step h with
  | push o =>
      constructor
      · intro o' ho' hsubmit
        simp only [List.mem_append, List.mem_singleton, not_or] at ho' hsubmit
        apply hsubmitted o' _ hsubmit.1
        apply ho'.resolve_right hsubmit.2
      · apply hs.stopped
  | signal | signalStop =>
      constructor
      · intro _ _ _
        left
        apply eventWrite_pos
      · intro _ _ _
        left
        apply eventWrite_pos
  | complete _ hread =>
      constructor
      · intro o ho hsubmit
        apply canWake_complete hread (hsubmitted o ho hsubmit)
      · intro hpc hrunning hstopping
        apply canWake_complete hread (hs.stopped hpc hrunning hstopping)
  | stop | begun | returned | woken | reaped | interrupted | failed =>
      constructor
      · apply hsubmitted
      · simp
  | checked _ hrunning =>
      constructor
      · apply hsubmitted
      · simp [hrunning]
  | submitted hpc =>
      constructor
      · apply hsubmitted
      · intro _
        apply hs.stopped (.inl hpc)
  | armed | drained =>
      obtain ⟨sq, harm⟩ := exists_arm (s := s)
      rw [harm]
      constructor
      · apply hsubmitted
      · simp
  | found hpc hcq => apply hs.find hpc hcq
  | @processed o batch =>
      obtain ⟨data, op, in_flight_ops, -, heq⟩ := processOp_cases (s := s) o
      rw [heq]
      constructor
      · apply hsubmitted
      · simp

/-! ### The exact condition -/

instance (s : State ι) : (a : Label ι) → Decidable (DrainsFew s a)
  | .run => inferInstanceAs (Decidable (∀ _ ∈ _, _ → _ → _))
  | .push _ | .signal _ | .stop | .signalStop | .complete _ _ | .interrupt | .fail =>
      .isTrue trivial

end Koroutine.IoUring
