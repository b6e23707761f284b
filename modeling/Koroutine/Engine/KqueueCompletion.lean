import Koroutine.Engine.Kqueue
import Koroutine.Transition.Run
import Mathlib.Data.List.Nodup

/-!
# Completions of `KqueueIOEngine`

`kqueue` tells events apart by descriptor and filter, and `active_ops_` has room for one operation a
descriptor.  As long as an operation is registered only where `active_ops_` holds no other, the
event of a descriptor and filter finds the operation that asked for it.  An operation that is
registered next to one of the other direction takes its place, and the one replaced is lost.
-/

open Transition

namespace Koroutine.Kqueue

variable {ι : Type*}

/-- The operation as it was submitted. -/
def Op.fresh (op : Op) : Op :=
  { op with error := .none, actual_size := 0, completions := 0 }

/-- No operation is completed twice, overwritten or completed on an event of the other direction,
and each whose event has been handled, or whose descriptor has been closed, has been completed,
after an event with the result of its own system call. -/
structure Faithful (s : State ι) : Prop where
  once : ∀ o, (s.op o).completions ≤ 1
  ready : ∀ o error res, (o, error, res) ∈ s.ready → s.op o = (s.op o).fresh.finish error res
  closed : ∀ o ∈ s.closed, (s.op o).completions = 1
  direction : ∀ o filter, (o, filter) ∈ s.served → filterOf (s.op o).type = some filter
  kept : s.overwritten = []

/-- While an operation is outstanding, no other of its direction is submitted for its descriptor. -/
def OnePerDirection (s : State ι) : Label ι → Prop
  | .submit o => ∀ o' ∈ s.submitted, (s.op o').completions = 0 → (s.op o').fd = (s.op o).fd →
      filterOf (s.op o').type = none ∨ filterOf (s.op o').type ≠ filterOf (s.op o).type
  | _ => True

instance (s : State ι) (a : Label ι) : Decidable (OnePerDirection s a) :=
  match a with
  | .submit o => inferInstanceAs (Decidable (∀ o' ∈ s.submitted, (s.op o').completions = 0 →
      (s.op o').fd = (s.op o).fd → filterOf (s.op o').type = none ∨
        filterOf (s.op o').type ≠ filterOf (s.op o).type))
  | .trigger | .stop | .run | .process _ | .deliver _ | .handle _ | .interrupt | .fail =>
      inferInstanceAs (Decidable True)

/-- An operation is registered where `active_ops_` holds none for its descriptor. -/
def RegistersAlone (s : State ι) : Label ι → Prop
  | .process none =>
      ∀ o ∈ s.pending_ops.head?, filterOf (s.op o).type ≠ none → s.active_ops (s.op o).fd = none
  | _ => True

/-! ### Where operations are -/

/-- The events that are still to be handled. -/
def Pc.events : Pc → List Event
  | .handling events => events
  | _ => []

/-- The operation is not submitted yet, is in `pending_ops_`, or has asked for an event. -/
inductive Outstanding (s : State ι) (o : ι) : Prop
  | unsubmitted (h : o ∉ s.submitted)
  | pending (h : o ∈ s.pending_ops)
  | registered (key : Key) (h : s.awaiting key = some o)

/-- An event of the key may still be handled. -/
def Expected (s : State ι) (key : Key) : Prop :=
  s.registered key = true ∨ some key ∈ s.pc.events.map Event.key

/-- Every outstanding operation is as it was submitted, in one place, and, where it has asked for an
event, the one that `active_ops_` holds for its descriptor. -/
structure Tracked (s : State ι) : Prop where
  fresh : ∀ o, Outstanding s o → s.op o = (s.op o).fresh
  completed : ∀ o, ¬ Outstanding s o → (s.op o).completions = 1
  nodup : s.pending_ops.Nodup
  pending_submitted : ∀ o ∈ s.pending_ops, o ∈ s.submitted
  awaiting_submitted : ∀ key o, s.awaiting key = some o → o ∈ s.submitted
  not_pending : ∀ key o, s.awaiting key = some o → o ∉ s.pending_ops
  keyed : ∀ key o, s.awaiting key = some o →
    (s.op o).fd = key.1 ∧ filterOf (s.op o).type = some key.2
  active : ∀ fd o, s.active_ops fd = some o ↔ ∃ filter, s.awaiting (fd, filter) = some o
  expected : ∀ key, Expected s key → ∃ o, s.awaiting key = some o
  distinct : (s.pc.events.map Event.key).Nodup
  delivered : ∀ key, some key ∈ s.pc.events.map Event.key → s.registered key = false

section

variable {s t : State ι} {o : ι}

@[simp] theorem Op.completeWith_completions (op : Op) (error : ErrorCode) :
  (op.completeWith error).completions = op.completions + 1
  := rfl

@[simp] theorem Op.finish_type (op : Op) (error : Bool) (res : ℤ) :
  (op.finish error res).type = op.type
  := by
  unfold Op.finish
  repeat' split
  all_goals rfl

@[simp] theorem Op.finish_fd (op : Op) (error : Bool) (res : ℤ) :
  (op.finish error res).fd = op.fd
  := by
  unfold Op.finish
  repeat' split
  all_goals rfl

@[simp] theorem Op.finish_completions (op : Op) (error : Bool) (res : ℤ) :
  (op.finish error res).completions = op.completions + 1
  := by
  unfold Op.finish
  repeat' split
  all_goals rfl

@[simp] theorem Op.fresh_finish (op : Op) (error : Bool) (res : ℤ) :
  (op.finish error res).fresh = op.fresh
  := by
  unfold Op.finish
  repeat' split
  all_goals rfl

theorem Tracked.zero (h : Tracked s) (ho : Outstanding s o) :
  (s.op o).completions = 0
  := by
  rw [h.fresh o ho]
  rfl

/-- Of the two filters of a descriptor at most one is awaited. -/
theorem Tracked.filter_unique (h : Tracked s) {fd : ℤ} {filter filter' : Filter} {o o' : ι}
    (ho : s.awaiting (fd, filter) = some o) (ho' : s.awaiting (fd, filter') = some o') :
  filter = filter' ∧ o = o'
  := by
  have hactive : s.active_ops fd = some o := (h.active fd o).mpr ⟨filter, ho⟩
  have hactive' : s.active_ops fd = some o' := (h.active fd o').mpr ⟨filter', ho'⟩
  obtain rfl : o = o' := by
    rw [hactive] at hactive'
    apply Option.some.inj hactive'
  have hfilter := (h.keyed _ _ ho).2
  rw [(h.keyed _ _ ho').2] at hfilter
  exact ⟨(Option.some.inj hfilter).symm, rfl⟩

/-- Where `active_ops_` holds no operation of a descriptor, none awaits an event of it. -/
theorem Tracked.free (h : Tracked s) {fd : ℤ} (hnone : s.active_ops fd = none) (filter : Filter) :
  s.awaiting (fd, filter) = none
  := by
  by_contra hne
  obtain ⟨o, ho⟩ := Option.ne_none_iff_exists'.mp hne
  have hactive := (h.active fd o).mpr ⟨filter, ho⟩
  rw [hnone] at hactive
  contradiction

theorem Tracked.initial {type : ι → IoUring.OpType} {fd : ι → ℤ} :
  Tracked (initial type fd)
  where
  fresh _ _ := rfl
  completed o h := by
    exfalso
    apply h
    apply Outstanding.unsubmitted
    apply List.not_mem_nil
  nodup := List.nodup_nil
  pending_submitted _ h := h
  awaiting_submitted _ _ h := by contradiction
  not_pending _ _ h := by contradiction
  keyed _ _ h := by contradiction
  active _ _ := by simp [Kqueue.initial]
  expected _ h := by
    simp [Expected, Kqueue.initial, Pc.events] at h
  distinct := List.nodup_nil
  delivered _ _ := rfl

theorem Faithful.initial {type : ι → IoUring.OpType} {fd : ι → ℤ} :
  Faithful (initial type fd)
  where
  once _ := Nat.zero_le 1
  ready _ _ _ h := absurd h List.not_mem_nil
  closed _ h := absurd h List.not_mem_nil
  direction _ _ h := absurd h List.not_mem_nil
  kept := rfl

theorem Outstanding.congr (h : Outstanding s o) (hsubmitted : t.submitted = s.submitted)
    (hpending : t.pending_ops = s.pending_ops) (hawaiting : t.awaiting = s.awaiting) :
  Outstanding t o
  := by
  cases h with
  | unsubmitted h => exact .unsubmitted (hsubmitted ▸ h)
  | pending h => exact .pending (hpending ▸ h)
  | registered key h => exact .registered key (hawaiting ▸ h)

/-- A step that leaves the operations where they are. -/
theorem Tracked.congr (h : Tracked s) (hop : t.op = s.op) (hsubmitted : t.submitted = s.submitted)
    (hpending : t.pending_ops = s.pending_ops) (hawaiting : t.awaiting = s.awaiting)
    (hactive : t.active_ops = s.active_ops) (hexpected : ∀ key, Expected t key → Expected s key)
    (hdistinct : (t.pc.events.map Event.key).Nodup)
    (hdelivered : ∀ key, some key ∈ t.pc.events.map Event.key → t.registered key = false) :
  Tracked t
  where
  fresh o ho := by
    rw [hop]
    apply h.fresh o (ho.congr hsubmitted.symm hpending.symm hawaiting.symm)
  completed o ho := by
    rw [hop]
    apply h.completed o
    intro hs
    apply ho (hs.congr hsubmitted hpending hawaiting)
  nodup := by
    rw [hpending]
    apply h.nodup
  pending_submitted := by
    rw [hpending, hsubmitted]
    apply h.pending_submitted
  awaiting_submitted := by
    rw [hawaiting, hsubmitted]
    apply h.awaiting_submitted
  not_pending := by
    rw [hawaiting, hpending]
    apply h.not_pending
  keyed := by
    rw [hawaiting, hop]
    apply h.keyed
  active := by
    rw [hactive, hawaiting]
    apply h.active
  expected key hkey := by
    rw [hawaiting]
    apply h.expected key (hexpected key hkey)
  distinct := hdistinct
  delivered := hdelivered

/-- A step that leaves the registrations and the events as they are, too. -/
theorem Tracked.of_same (h : Tracked s) (hop : t.op = s.op) (hsubmitted : t.submitted = s.submitted)
    (hpending : t.pending_ops = s.pending_ops) (hawaiting : t.awaiting = s.awaiting)
    (hactive : t.active_ops = s.active_ops) (hregistered : t.registered = s.registered)
    (hevents : t.pc.events = s.pc.events) :
  Tracked t
  := by
  apply h.congr hop hsubmitted hpending hawaiting hactive
  · intro key hkey
    rw [Expected, hregistered, hevents] at hkey
    apply hkey
  · rw [hevents]
    apply h.distinct
  · rw [hevents, hregistered]
    apply h.delivered

/-- An operation is submitted. -/
theorem Tracked.submit (h : Tracked s) (hnew : o ∉ s.submitted)
    (hop : t.op = s.op) (hsubmitted : t.submitted = s.submitted ++ [o])
    (hpending : t.pending_ops = s.pending_ops ++ [o]) (hawaiting : t.awaiting = s.awaiting)
    (hactive : t.active_ops = s.active_ops) (hregistered : t.registered = s.registered)
    (hevents : t.pc.events = s.pc.events) :
  Tracked t
  := by
  have houtstanding : ∀ o', Outstanding t o' ↔ Outstanding s o' := by
    intro o'
    constructor
    · intro ho
      cases ho with
      | unsubmitted ho =>
          apply Outstanding.unsubmitted
          intro hs
          apply ho
          rw [hsubmitted]
          apply List.mem_append_left _ hs
      | pending ho =>
          obtain hs | rfl : o' ∈ s.pending_ops ∨ o' = o := by simpa [hpending] using ho
          · exact .pending hs
          · exact .unsubmitted hnew
      | registered key ho => exact .registered key (hawaiting ▸ ho)
    · intro ho
      cases ho with
      | unsubmitted ho =>
          by_cases heq : o' = o
          · apply Outstanding.pending
            simp [hpending, heq]
          · apply Outstanding.unsubmitted
            simp [hsubmitted, ho, heq]
      | pending ho =>
          apply Outstanding.pending
          simp [hpending, ho]
      | registered key ho => exact .registered key (hawaiting ▸ ho)
  have hpending_new : o ∉ s.pending_ops := fun ho => hnew (h.pending_submitted o ho)
  constructor
  case fresh =>
    intro o' ho
    rw [hop]
    apply h.fresh o' ((houtstanding o').mp ho)
  case completed =>
    intro o' ho
    rw [hop]
    apply h.completed o' (mt (houtstanding o').mpr ho)
  case nodup =>
    rw [hpending, ← List.concat_eq_append]
    apply List.Nodup.concat hpending_new h.nodup
  case pending_submitted =>
    intro o' ho
    obtain ho | ho : o' ∈ s.pending_ops ∨ o' = o := by simpa [hpending] using ho
    · simp [hsubmitted, h.pending_submitted o' ho]
    · simp [hsubmitted, ho]
  case awaiting_submitted =>
    intro key o' ho
    rw [hawaiting] at ho
    rw [hsubmitted]
    apply List.mem_append_left _ (h.awaiting_submitted key o' ho)
  case not_pending =>
    intro key o' ho
    rw [hawaiting] at ho
    have hne : o' ≠ o := by
      rintro rfl
      apply hnew (h.awaiting_submitted key o' ho)
    simp [hpending, h.not_pending key o' ho, hne]
  case keyed =>
    rw [hawaiting, hop]
    apply h.keyed
  case active =>
    rw [hactive, hawaiting]
    apply h.active
  case expected =>
    intro key hkey
    rw [Expected, hregistered, hevents] at hkey
    rw [hawaiting]
    apply h.expected key hkey
  case distinct =>
    rw [hevents]
    apply h.distinct
  case delivered =>
    rw [hevents, hregistered]
    apply h.delivered

end

variable [DecidableEq ι] {s t : State ι} {o : ι} {pending : List ι} {op : Op}

/-- One operation is completed, and the others are outstanding where they were. -/
theorem Tracked.complete (h : Tracked s) (hop : t.op = Function.update s.op o op)
    (hcompletions : op.completions = 1) (hout : ¬ Outstanding t o)
    (hother : ∀ o', o' ≠ o → (Outstanding t o' ↔ Outstanding s o')) :
  (∀ o', Outstanding t o' → t.op o' = (t.op o').fresh) ∧
    ∀ o', ¬ Outstanding t o' → (t.op o').completions = 1
  := by
  constructor
  · intro o' ho
    have hne : o' ≠ o := by
      rintro rfl
      apply hout ho
    rw [hop, Function.update_of_ne hne]
    apply h.fresh o' ((hother o' hne).mp ho)
  · intro o' ho
    by_cases hne : o' = o
    · rw [hne, hop, Function.update_self, hcompletions]
    · rw [hop, Function.update_of_ne hne]
      apply h.completed o' (mt (hother o' hne).mpr ho)

/-- The first pending operation is completed. -/
theorem Tracked.retire (h : Tracked s) (hfirst : s.pending_ops = o :: pending)
    (hop : t.op = Function.update s.op o op) (hcompletions : op.completions = 1)
    (hsubmitted : t.submitted = s.submitted) (hpending : t.pending_ops = pending)
    (hawaiting : t.awaiting = s.awaiting) (hactive : t.active_ops = s.active_ops)
    (hregistered : t.registered = s.registered) (hevents : t.pc.events = s.pc.events) :
  Tracked t
  := by
  have hmem : o ∈ s.pending_ops := by simp [hfirst]
  have hnodup := h.nodup
  rw [hfirst, List.nodup_cons] at hnodup
  have hout : ¬ Outstanding t o := by
    intro ho
    cases ho with
    | unsubmitted ho =>
        apply ho
        rw [hsubmitted]
        apply h.pending_submitted o hmem
    | pending ho =>
        rw [hpending] at ho
        apply hnodup.1 ho
    | registered key ho =>
        rw [hawaiting] at ho
        apply h.not_pending key o ho hmem
  have hother : ∀ o', o' ≠ o → (Outstanding t o' ↔ Outstanding s o') := by
    intro o' hne
    have hiff : o' ∈ t.pending_ops ↔ o' ∈ s.pending_ops := by simp [hpending, hfirst, hne]
    constructor
    · intro ho
      cases ho with
      | unsubmitted ho => exact .unsubmitted (hsubmitted ▸ ho)
      | pending ho => exact .pending (hiff.mp ho)
      | registered key ho => exact .registered key (hawaiting ▸ ho)
    · intro ho
      cases ho with
      | unsubmitted ho => exact .unsubmitted (hsubmitted ▸ ho)
      | pending ho => exact .pending (hiff.mpr ho)
      | registered key ho => exact .registered key (hawaiting ▸ ho)
  obtain ⟨hfresh, hcompleted⟩ := h.complete hop hcompletions hout hother
  constructor
  case fresh => apply hfresh
  case completed => apply hcompleted
  case nodup =>
    rw [hpending]
    apply hnodup.2
  case pending_submitted =>
    intro o' ho
    rw [hsubmitted]
    apply h.pending_submitted o'
    rw [hfirst]
    apply List.mem_cons_of_mem _ (hpending ▸ ho)
  case awaiting_submitted =>
    rw [hawaiting, hsubmitted]
    apply h.awaiting_submitted
  case not_pending =>
    intro key o' ho hp
    rw [hawaiting] at ho
    apply h.not_pending key o' ho
    rw [hfirst]
    apply List.mem_cons_of_mem _ (hpending ▸ hp)
  case keyed =>
    intro key o' ho
    rw [hawaiting] at ho
    have hne : o' ≠ o := by
      rintro rfl
      apply h.not_pending key o' ho hmem
    rw [hop, Function.update_of_ne hne]
    apply h.keyed key o' ho
  case active =>
    rw [hactive, hawaiting]
    apply h.active
  case expected =>
    intro key hkey
    rw [Expected, hregistered, hevents] at hkey
    rw [hawaiting]
    apply h.expected key hkey
  case distinct =>
    rw [hevents]
    apply h.distinct
  case delivered =>
    rw [hevents, hregistered]
    apply h.delivered

/-- The first pending operation is registered, where its descriptor has no other. -/
theorem Tracked.watch (h : Tracked s) {filter : Filter} (hfirst : s.pending_ops = o :: pending)
    (hfilter : filterOf (s.op o).type = some filter) (halone : s.active_ops (s.op o).fd = none)
    (hpc : s.pc = .draining) :
  Tracked (State.watch { s with pending_ops := pending } o filter none)
  := by
  have hmem : o ∈ s.pending_ops := by simp [hfirst]
  have hnodup := h.nodup
  rw [hfirst, List.nodup_cons] at hnodup
  have hfree : ∀ filter', s.awaiting ((s.op o).fd, filter') = none := h.free halone
  set t := State.watch { s with pending_ops := pending } o filter none with ht
  have hkey : ∀ key, t.awaiting key = if key = ((s.op o).fd, filter) then some o
      else s.awaiting key := fun key => Function.update_apply ..
  have houtstanding : ∀ o', Outstanding t o' ↔ Outstanding s o' := by
    intro o'
    constructor
    · intro ho
      cases ho with
      | unsubmitted ho => exact .unsubmitted ho
      | pending ho =>
          apply Outstanding.pending
          rw [hfirst]
          apply List.mem_cons_of_mem _ ho
      | registered key ho =>
          rw [hkey] at ho
          split at ho
          · obtain rfl := Option.some.inj ho
            exact .pending hmem
          · exact .registered key ho
    · intro ho
      cases ho with
      | unsubmitted ho => exact .unsubmitted ho
      | pending ho =>
          obtain rfl | ho : o' = o ∨ o' ∈ pending := by simpa [hfirst] using ho
          · apply Outstanding.registered ((s.op o').fd, filter)
            rw [hkey, if_pos rfl]
          · exact .pending ho
      | registered key ho =>
          apply Outstanding.registered key
          rw [hkey, if_neg]
          · apply ho
          · rintro rfl
            rw [hfree] at ho
            contradiction
  constructor
  case fresh =>
    intro o' ho
    apply h.fresh o' ((houtstanding o').mp ho)
  case completed =>
    intro o' ho
    apply h.completed o' (mt (houtstanding o').mpr ho)
  case nodup => apply hnodup.2
  case pending_submitted =>
    intro o' ho
    apply h.pending_submitted o'
    rw [hfirst]
    apply List.mem_cons_of_mem _ ho
  case awaiting_submitted =>
    intro key o' ho
    rw [hkey] at ho
    split at ho
    · obtain rfl := Option.some.inj ho
      apply h.pending_submitted o hmem
    · apply h.awaiting_submitted key o' ho
  case not_pending =>
    intro key o' ho hp
    rw [hkey] at ho
    split at ho
    · obtain rfl := Option.some.inj ho
      apply hnodup.1 hp
    · apply h.not_pending key o' ho
      rw [hfirst]
      apply List.mem_cons_of_mem _ hp
  case keyed =>
    intro key o' ho
    rw [hkey] at ho
    split at ho
    · rename_i heq
      obtain rfl := Option.some.inj ho
      rw [heq]
      exact ⟨rfl, hfilter⟩
    · apply h.keyed key o' ho
  case active =>
    intro fd o'
    by_cases hfd : fd = (s.op o).fd
    · subst hfd
      have hself : t.active_ops (s.op o).fd = some o := Function.update_self ..
      rw [hself]
      constructor
      · intro ho
        use filter
        rw [hkey, if_pos rfl, ho]
      · rintro ⟨filter', ho⟩
        rw [hkey] at ho
        split at ho
        · apply ho
        · rw [hfree] at ho
          contradiction
    · have hother : t.active_ops fd = s.active_ops fd := Function.update_of_ne hfd ..
      have hsame : ∀ filter', t.awaiting (fd, filter') = s.awaiting (fd, filter') := by
        intro filter'
        rw [hkey, if_neg]
        intro heq
        apply hfd (congrArg Prod.fst heq)
      simp only [hother, hsame]
      apply h.active
  case expected =>
    intro key hk
    rw [hkey]
    split
    · use o
    · rename_i hne
      apply h.expected key
      obtain hk | hk := hk
      · left
        rw [← hk]
        exact (Function.update_of_ne hne ..).symm
      · right
        apply hk
  case distinct =>
    change (s.pc.events.map Event.key).Nodup
    apply h.distinct
  case delivered =>
    intro key hk
    change some key ∈ s.pc.events.map Event.key at hk
    simp [hpc, Pc.events] at hk

/-- The operation that awaits a key is completed, and asks for no event any more. -/
theorem Tracked.release (h : Tracked s) {key : Key} (ho : s.awaiting key = some o)
    (hop : t.op = Function.update s.op o op) (hcompletions : op.completions = 1)
    (hsubmitted : t.submitted = s.submitted) (hpending : t.pending_ops = s.pending_ops)
    (hawaiting : t.awaiting = Function.update s.awaiting key none)
    (hactive : t.active_ops = Function.update s.active_ops key.1 none)
    (hexpected : ∀ key', Expected t key' → Expected s key' ∧ key' ≠ key)
    (hdistinct : (t.pc.events.map Event.key).Nodup)
    (hdelivered : ∀ key', some key' ∈ t.pc.events.map Event.key → t.registered key' = false) :
  Tracked t
  := by
  have hkept : ∀ key' o', t.awaiting key' = some o' → s.awaiting key' = some o' ∧ key' ≠ key := by
    intro key' o' ho'
    rw [hawaiting, Function.update_apply] at ho'
    split at ho'
    · contradiction
    · exact ⟨ho', by assumption⟩
  have hunique : ∀ key', s.awaiting key' = some o → key' = key := by
    intro key' ho'
    obtain ⟨hfd, hfilter⟩ := h.keyed key' o ho'
    obtain ⟨hfd', hfilter'⟩ := h.keyed key o ho
    apply Prod.ext
    · rw [← hfd, hfd']
    · rw [hfilter] at hfilter'
      apply Option.some.inj hfilter'
  have hout : ¬ Outstanding t o := by
    intro hs
    cases hs with
    | unsubmitted hs =>
        apply hs
        rw [hsubmitted]
        apply h.awaiting_submitted key o ho
    | pending hs =>
        rw [hpending] at hs
        apply h.not_pending key o ho hs
    | registered key' hs =>
        obtain ⟨hs, hne⟩ := hkept key' o hs
        apply hne (hunique key' hs)
  have hother : ∀ o', o' ≠ o → (Outstanding t o' ↔ Outstanding s o') := by
    intro o' hne
    constructor
    · intro hs
      cases hs with
      | unsubmitted hs => exact .unsubmitted (hsubmitted ▸ hs)
      | pending hs => exact .pending (hpending ▸ hs)
      | registered key' hs => exact .registered key' (hkept key' o' hs).1
    · intro hs
      cases hs with
      | unsubmitted hs => exact .unsubmitted (hsubmitted ▸ hs)
      | pending hs => exact .pending (hpending ▸ hs)
      | registered key' hs =>
          apply Outstanding.registered key'
          rw [hawaiting, Function.update_of_ne]
          · apply hs
          · rintro rfl
            rw [ho] at hs
            apply hne (Option.some.inj hs).symm
  obtain ⟨hfresh, hcompleted⟩ := h.complete hop hcompletions hout hother
  constructor
  case fresh => apply hfresh
  case completed => apply hcompleted
  case nodup =>
    rw [hpending]
    apply h.nodup
  case pending_submitted =>
    rw [hpending, hsubmitted]
    apply h.pending_submitted
  case awaiting_submitted =>
    intro key' o' ho'
    rw [hsubmitted]
    apply h.awaiting_submitted key' o' (hkept key' o' ho').1
  case not_pending =>
    intro key' o' ho'
    rw [hpending]
    apply h.not_pending key' o' (hkept key' o' ho').1
  case keyed =>
    intro key' o' ho'
    obtain ⟨ho', hkey⟩ := hkept key' o' ho'
    have hne : o' ≠ o := by
      rintro rfl
      apply hkey (hunique key' ho')
    rw [hop, Function.update_of_ne hne]
    apply h.keyed key' o' ho'
  case active =>
    intro fd o'
    rw [hactive, hawaiting]
    by_cases hfd : fd = key.1
    · subst hfd
      rw [Function.update_self]
      constructor
      · intro hs
        contradiction
      · rintro ⟨filter, hs⟩
        rw [← hawaiting] at hs
        obtain ⟨hs, hne⟩ := hkept _ o' hs
        exfalso
        apply hne
        rw [(h.filter_unique hs ho).1]
    · rw [Function.update_of_ne hfd, h.active]
      have hsame : ∀ filter, Function.update s.awaiting key none (fd, filter) =
          s.awaiting (fd, filter) := by
        intro filter
        apply Function.update_of_ne
        intro heq
        apply hfd (congrArg Prod.fst heq)
      simp only [hsame]
  case expected =>
    intro key' hkey
    obtain ⟨hkey, hne⟩ := hexpected key' hkey
    rw [hawaiting, Function.update_of_ne hne]
    apply h.expected key' hkey
  case distinct => apply hdistinct
  case delivered => apply hdelivered

/-! ### What a step does -/

omit [DecidableEq ι] in
/-- Operations are completed for the first time, and what is recorded about the steps stays true. -/
theorem Faithful.keep (h : Faithful s)
    (hop : ∀ o, t.op o = s.op o ∨ ((s.op o).completions = 0 ∧ (t.op o).completions = 1 ∧
      (t.op o).type = (s.op o).type))
    (hready : ∀ o error res, (o, error, res) ∈ t.ready → (o, error, res) ∈ s.ready ∨
      t.op o = (t.op o).fresh.finish error res)
    (hclosed : ∀ o ∈ t.closed, o ∈ s.closed ∨ (t.op o).completions = 1)
    (hserved : ∀ o filter, (o, filter) ∈ t.served → (o, filter) ∈ s.served ∨
      filterOf (t.op o).type = some filter)
    (hkept : t.overwritten = s.overwritten) :
  Faithful t
  where
  once o := by
    obtain heq | ⟨-, hone, -⟩ := hop o
    · rw [heq]
      apply h.once
    · exact Nat.le_of_eq hone
  ready o error res ho := by
    obtain ho | ho := hready o error res ho
    · obtain heq | ⟨hzero, -⟩ := hop o
      · rw [heq]
        apply h.ready o error res ho
      · rw [h.ready o error res ho, Op.finish_completions] at hzero
        contradiction
    · apply ho
  closed o ho := by
    obtain ho | ho := hclosed o ho
    · obtain heq | ⟨-, hone, -⟩ := hop o
      · rw [heq]
        apply h.closed o ho
      · apply hone
    · apply ho
  direction o filter ho := by
    obtain ho | ho := hserved o filter ho
    · obtain heq | ⟨-, -, htype⟩ := hop o
      · rw [heq]
        apply h.direction o filter ho
      · rw [htype]
        apply h.direction o filter ho
    · apply ho
  kept := by
    rw [hkept]
    apply h.kept

omit [DecidableEq ι] in
/-- A step that leaves the operations and what is recorded about them as they are. -/
theorem Faithful.of_same (h : Faithful s) (hop : t.op = s.op) (hready : t.ready = s.ready)
    (hclosed : t.closed = s.closed) (hserved : t.served = s.served)
    (hkept : t.overwritten = s.overwritten) :
  Faithful t
  := by
  apply h.keep
  · intro o
    left
    rw [hop]
  · intro o error res ho
    left
    rw [← hready]
    apply ho
  · intro o ho
    left
    rw [← hclosed]
    apply ho
  · intro o filter ho
    left
    rw [← hserved]
    apply ho
  · apply hkept

/-- One operation is completed for the first time. -/
theorem completed_once (hop : t.op = Function.update s.op o op) (hzero : (s.op o).completions = 0)
    (hone : op.completions = 1) (htype : op.type = (s.op o).type) (o' : ι) :
  t.op o' = s.op o' ∨ ((s.op o').completions = 0 ∧ (t.op o').completions = 1 ∧
    (t.op o').type = (s.op o').type)
  := by
  by_cases ho : o' = o
  · right
    rw [ho, hop, Function.update_self]
    exact ⟨hzero, hone, htype⟩
  · left
    rw [hop, Function.update_of_ne ho]

/-- The first pending operation is completed with an error, without an event. -/
theorem sound_completeWith (h : Tracked s) (hf : Faithful s) (hfirst : s.pending_ops = o :: pending)
    (error : ErrorCode) :
  Tracked (State.completeWith { s with pending_ops := pending } o error) ∧
    Faithful (State.completeWith { s with pending_ops := pending } o error)
  := by
  have hzero : (s.op o).completions = 0 := by
    apply h.zero
    apply Outstanding.pending
    simp [hfirst]
  have hone : ((s.op o).completeWith error).completions = 1 := by
    rw [Op.completeWith_completions, hzero]
  constructor
  · exact h.retire hfirst rfl hone rfl rfl rfl rfl rfl rfl
  · apply hf.keep
    · exact completed_once rfl hzero hone rfl
    · exact fun _ _ _ ho => .inl ho
    · exact fun _ ho => .inl ho
    · exact fun _ _ ho => .inl ho
    · rfl

/-- The first pending operation waits for an event. -/
theorem sound_watch (h : Tracked s) (hf : Faithful s) {filter : Filter} {errno : Option ℤ}
    (hfirst : s.pending_ops = o :: pending) (hfilter : filterOf (s.op o).type = some filter)
    (halone : errno = none → s.active_ops (s.op o).fd = none) (hpc : s.pc = .draining) :
  Tracked (State.watch { s with pending_ops := pending } o filter errno) ∧
    Faithful (State.watch { s with pending_ops := pending } o filter errno)
  := by
  cases errno with
  | some n => apply sound_completeWith h hf hfirst
  | none =>
      constructor
      · apply h.watch hfirst hfilter (halone rfl) hpc
      · apply hf.of_same
        · rfl
        · rfl
        · rfl
        · rfl
        · simp [State.watch, halone rfl]

/-- What `process_close` gives the operation it is called with. -/
def Op.closed (op : Op) (errno : Option ℤ) : Op :=
  { op with
    error := (errno.map .errno).getD op.error
    completions := op.completions + 1 }

/-- `process_close` on a descriptor that has no operation in `active_ops_`. -/
theorem processClose_of_none {errno : Option ℤ} (hnone : s.active_ops (s.op o).fd = none) :
  processClose s o errno = { s with
    op := Function.update s.op o ((s.op o).closed errno)
    registered := fun key => if key.1 = (s.op o).fd then false else s.registered key
    awaiting := fun key => if key.1 = (s.op o).fd then none else s.awaiting key
    closed := s.closed ++ ((s.awaiting ((s.op o).fd, .read)).toList ++
      (s.awaiting ((s.op o).fd, .write)).toList ++ [o]) }
  := by
  simp [processClose, State.cancel, hnone, Op.closed]

/-- `process_close` on a descriptor that has an operation in `active_ops_`. -/
theorem processClose_of_some {errno : Option ℤ} {o' : ι} (hne : o ≠ o')
    (hsome : s.active_ops (s.op o).fd = some o') :
  processClose s o errno = { s with
    op := Function.update (Function.update s.op o ((s.op o).closed errno)) o'
      ((s.op o').completeWith .operation_canceled)
    active_ops := Function.update s.active_ops (s.op o).fd none
    registered := fun key => if key.1 = (s.op o).fd then false else s.registered key
    awaiting := fun key => if key.1 = (s.op o).fd then none else s.awaiting key
    closed := s.closed ++ ((s.awaiting ((s.op o).fd, .read)).toList ++
      (s.awaiting ((s.op o).fd, .write)).toList ++ [o]) }
  := by
  rw [Function.update_comm hne]
  simp [processClose, State.cancel, State.completeWith, hsome, hne, Op.closed]

/-- `process_close` completes the operation it is called with. -/
theorem sound_processClose_none (h : Tracked s) (hf : Faithful s) {errno : Option ℤ}
    (hfirst : s.pending_ops = o :: pending) (hpc : s.pc = .draining)
    (hnone : s.active_ops (s.op o).fd = none) :
  Tracked (processClose { s with pending_ops := pending } o errno) ∧
    Faithful (processClose { s with pending_ops := pending } o errno)
  := by
  have hzero : (s.op o).completions = 0 := by
    apply h.zero
    apply Outstanding.pending
    simp [hfirst]
  have hone : ((s.op o).closed errno).completions = 1 := by
    simp [Op.closed, hzero]
  have hfree : ∀ filter, s.awaiting ((s.op o).fd, filter) = none := h.free hnone
  have hawaiting : (fun key : Key => if key.1 = (s.op o).fd then none else s.awaiting key) =
      s.awaiting := by
    funext key
    obtain ⟨fd, filter⟩ := key
    by_cases hfd : fd = (s.op o).fd
    · simp [hfd, hfree]
    · simp [hfd]
  rw [processClose_of_none (s := { s with pending_ops := pending }) hnone]
  constructor
  · have hretired : Tracked { s with
        pending_ops := pending, op := Function.update s.op o ((s.op o).closed errno) } :=
      h.retire hfirst rfl hone rfl rfl rfl rfl rfl rfl
    refine hretired.congr rfl rfl rfl hawaiting rfl ?_ ?_ ?_
    · intro key hkey
      obtain hkey | hkey := hkey
      · left
        change (if key.1 = (s.op o).fd then false else s.registered key) = true at hkey
        split at hkey
        · contradiction
        · apply hkey
      · right
        apply hkey
    · apply hretired.distinct
    · simp [hpc, Pc.events]
  · apply hf.keep
    · exact completed_once rfl hzero hone rfl
    · exact fun _ _ _ ho' => .inl ho'
    · intro o' ho'
      obtain ho' | rfl : o' ∈ s.closed ∨ o' = o := by simpa [hfree] using ho'
      · exact .inl ho'
      · right
        exact (congrArg Op.completions (Function.update_self ..)).trans hone
    · exact fun _ _ ho' => .inl ho'
    · rfl

/-- `process_close` completes the operation it is called with, and the one it cancels. -/
theorem sound_processClose_some (h : Tracked s) (hf : Faithful s) {errno : Option ℤ} {o' : ι}
    (hfirst : s.pending_ops = o :: pending) (hpc : s.pc = .draining)
    (hsome : s.active_ops (s.op o).fd = some o') :
  Tracked (processClose { s with pending_ops := pending } o errno) ∧
    Faithful (processClose { s with pending_ops := pending } o errno)
  := by
  have hmem : o ∈ s.pending_ops := by simp [hfirst]
  have hzero : (s.op o).completions = 0 := h.zero (.pending hmem)
  have hone : ((s.op o).closed errno).completions = 1 := by
    simp [Op.closed, hzero]
  obtain ⟨filter, hfilter⟩ := (h.active _ o').mp hsome
  have hzero' : (s.op o').completions = 0 := h.zero (.registered _ hfilter)
  have hone' : ((s.op o').completeWith .operation_canceled).completions = 1 := by
    rw [Op.completeWith_completions, hzero']
  have hne : o ≠ o' := by
    rintro rfl
    apply h.not_pending _ o hfilter hmem
  have hawaiting : (fun key : Key => if key.1 = (s.op o).fd then none else s.awaiting key) =
      Function.update s.awaiting ((s.op o).fd, filter) none := by
    funext key
    obtain ⟨fd, filter'⟩ := key
    by_cases hfd : fd = (s.op o).fd
    · subst hfd
      by_cases heq : filter' = filter
      · simp [heq]
      · have hnone : s.awaiting ((s.op o).fd, filter') = none := by
          by_contra hsome'
          obtain ⟨o'', ho''⟩ := Option.ne_none_iff_exists'.mp hsome'
          apply heq (h.filter_unique ho'' hfilter).1
        simp [heq, hnone]
    · simp [hfd]
  rw [processClose_of_some (s := { s with pending_ops := pending }) hne hsome]
  constructor
  · have hretired : Tracked { s with
        pending_ops := pending, op := Function.update s.op o ((s.op o).closed errno) } :=
      h.retire hfirst rfl hone rfl rfl rfl rfl rfl rfl
    refine hretired.release hfilter rfl hone' rfl rfl hawaiting rfl ?_ ?_ ?_
    · intro key hkey
      obtain ⟨fd, filter'⟩ := key
      obtain ⟨hfd, hregistered⟩ : fd ≠ (s.op o).fd ∧ s.registered (fd, filter') = true := by
        simpa [Expected, hpc, Pc.events] using hkey
      constructor
      · left
        apply hregistered
      · intro heq
        apply hfd (congrArg Prod.fst heq)
    · apply hretired.distinct
    · simp [hpc, Pc.events]
  · apply hf.keep
    · intro o''
      by_cases ho' : o'' = o'
      · subst ho'
        right
        simp only [Function.update_self]
        exact ⟨hzero', hone', rfl⟩
      · simp only [Function.update_of_ne ho']
        exact completed_once (s := s)
          (t := { s with op := Function.update s.op o ((s.op o).closed errno) }) rfl hzero hone
          rfl o''
    · exact fun _ _ _ ho'' => .inl ho''
    · intro o'' ho''
      have hawaited : ∀ filter', s.awaiting ((s.op o).fd, filter') = some o'' → o'' = o' :=
        fun filter' ho'' => (h.filter_unique ho'' hfilter).2
      obtain ho'' | ho'' | rfl : o'' ∈ s.closed ∨ o'' = o' ∨ o'' = o := by
        obtain ho'' | ho'' | ho'' | ho'' : o'' ∈ s.closed ∨
            s.awaiting ((s.op o).fd, .read) = some o'' ∨
            s.awaiting ((s.op o).fd, .write) = some o'' ∨ o'' = o := by
          simpa using ho''
        · exact .inl ho''
        · exact .inr (.inl (hawaited .read ho''))
        · exact .inr (.inl (hawaited .write ho''))
        · exact .inr (.inr ho'')
      · exact .inl ho''
      · right
        simp only [ho'', Function.update_self, hone']
      · right
        simp only [Function.update_of_ne hne, Function.update_self, hone]
    · exact fun _ _ ho'' => .inl ho''
    · rfl

/-- The first pending operation is processed, and is registered only next to no other. -/
theorem sound_processOp (h : Tracked s) (hf : Faithful s) {errno : Option ℤ}
    (hfirst : s.pending_ops = o :: pending) (hpc : s.pc = .draining)
    (halone : errno = none → filterOf (s.op o).type ≠ none →
      s.active_ops (s.op o).fd = none) :
  Tracked (processOp { s with pending_ops := pending } o errno) ∧
    Faithful (processOp { s with pending_ops := pending } o errno)
  := by
  unfold processOp
  cases htype : (s.op o).type with
  | read | accept | recvfrom =>
      have hfilter : filterOf (s.op o).type = some .read := by rw [htype]; rfl
      apply sound_watch h hf hfirst hfilter _ hpc
      intro herrno
      apply halone herrno
      simp [hfilter]
  | write | connect | sendto =>
      have hfilter : filterOf (s.op o).type = some .write := by rw [htype]; rfl
      apply sound_watch h hf hfirst hfilter _ hpc
      intro herrno
      apply halone herrno
      simp [hfilter]
  | close =>
      cases hactive : s.active_ops (s.op o).fd with
      | none => apply sound_processClose_none h hf hfirst hpc hactive
      | some o' => apply sound_processClose_some h hf hfirst hpc hactive
  | «open» => apply sound_completeWith h hf hfirst

/-- The first event of the batch is handled. -/
theorem sound_handleEvent (h : Tracked s) (hf : Faithful s) {event : Event} {events : List Event}
    {res : ℤ} (hpc : s.pc = .handling (event :: events)) :
  Tracked { handleEvent s event res with pc := .handling events } ∧
    Faithful { handleEvent s event res with pc := .handling events }
  := by
  have hnodup := h.distinct
  have hdelivered := h.delivered
  rw [hpc, Pc.events, List.map_cons] at hnodup hdelivered
  rw [List.nodup_cons] at hnodup
  have hrest : ∀ key, some key ∈ events.map Event.key →
      some key ∈ s.pc.events.map Event.key := by
    intro key hkey
    rw [hpc]
    apply List.mem_cons_of_mem _ hkey
  cases event with
  | wakeup =>
      constructor
      · apply h.congr
        · rfl
        · rfl
        · rfl
        · rfl
        · rfl
        · intro key hkey
          obtain hkey | hkey := hkey
          · exact .inl hkey
          · exact .inr (hrest key hkey)
        · apply hnodup.2
        · intro key hkey
          apply h.delivered key (hrest key hkey)
      · apply hf.of_same <;> rfl
  | ready key error =>
      have hexpected : Expected s key := by
        right
        simp [hpc, Pc.events, Event.key]
      obtain ⟨o, ho⟩ := h.expected key hexpected
      have hactive : s.active_ops key.1 = some o := (h.active _ o).mpr ⟨key.2, ho⟩
      have hzero : (s.op o).completions = 0 := h.zero (.registered key ho)
      have hone : ((s.op o).finish error res).completions = 1 := by
        rw [Op.finish_completions, hzero]
      set t := { handleEvent s (.ready key error) res with pc := .handling events } with ht
      have hop : t.op = Function.update s.op o ((s.op o).finish error res) := by
        simp [ht, handleEvent, hactive]
      constructor
      · apply h.release ho hop hone
        · simp [ht, handleEvent, hactive]
        · simp [ht, handleEvent, hactive]
        · simp [ht, handleEvent, hactive]
        · simp [ht, handleEvent, hactive]
        · intro key' hkey'
          have hregistered : t.registered = s.registered := by
            simp [ht, handleEvent, hactive]
          obtain hkey' | hkey' := hkey'
          · rw [hregistered] at hkey'
            constructor
            · exact .inl hkey'
            · rintro rfl
              rw [hdelivered key' List.mem_cons_self] at hkey'
              contradiction
          · constructor
            · exact .inr (hrest key' hkey')
            · rintro rfl
              apply hnodup.1 hkey'
        · apply hnodup.2
        · intro key' hkey'
          have hregistered : t.registered = s.registered := by
            simp [ht, handleEvent, hactive]
          rw [hregistered]
          apply h.delivered key' (hrest key' hkey')
      · have hfinished : t.op o = (t.op o).fresh.finish error res := by
          rw [hop, Function.update_self, Op.fresh_finish, ← h.fresh o (.registered key ho)]
        apply hf.keep
        · exact completed_once hop hzero hone (Op.finish_type ..)
        · intro o' error' res' ho'
          obtain ho' | ⟨rfl, rfl, rfl⟩ : (o', error', res') ∈ s.ready ∨
              o' = o ∧ error' = error ∧ res' = res := by
            simpa [ht, handleEvent, hactive, ho] using ho'
          · exact .inl ho'
          · exact .inr hfinished
        · intro o' ho'
          left
          simpa [ht, handleEvent, hactive] using ho'
        · intro o' filter ho'
          obtain ho' | ⟨rfl, rfl⟩ : (o', filter) ∈ s.served ∨ o' = o ∧ filter = key.2 := by
            simpa [ht, handleEvent, hactive] using ho'
          · exact .inl ho'
          · right
            rw [hop, Function.update_self, Op.finish_type]
            apply (h.keyed key o' ho).2
        · simp [ht, handleEvent, hactive]

omit [DecidableEq ι] in
/-- `kevent` returns a batch of events. -/
theorem Tracked.deliver (h : Tracked s) {events : List Event} (hdelivers : delivers s events)
    (hop : t.op = s.op) (hsubmitted : t.submitted = s.submitted)
    (hpending : t.pending_ops = s.pending_ops) (hawaiting : t.awaiting = s.awaiting)
    (hactive : t.active_ops = s.active_ops) (hpc : t.pc = .handling events)
    (hregistered : t.registered = fun key =>
      s.registered key && !(events.map Event.key).contains (some key)) :
  Tracked t
  := by
  obtain ⟨-, hnodup, hevents⟩ := hdelivers
  have hbatch : t.pc.events = events := by rw [hpc]; rfl
  apply h.congr hop hsubmitted hpending hawaiting hactive
  · intro key hkey
    left
    rw [Expected, hbatch] at hkey
    obtain hkey | hkey := hkey
    · rw [hregistered, Bool.and_eq_true] at hkey
      apply hkey.1
    · obtain ⟨event, hevent, heq⟩ := List.mem_map.mp hkey
      have hdelivered := hevents event hevent
      rw [heq] at hdelivered
      apply hdelivered
  · rw [hbatch]
    apply hnodup
  · intro key hkey
    rw [hbatch] at hkey
    rw [hregistered]
    simp only [List.contains_iff_mem.mpr hkey, Bool.not_true, Bool.and_false]

omit [DecidableEq ι] in
/-- The steps of the thread in `run` that carry no result leave everything but `pc` and `running_`.
-/
theorem runStep_frame (h : runStep s = some t) :
  ∃ running pc, t = { s with running := running, pc := pc } ∧ pc.events = s.pc.events
  := by
  unfold runStep at h
  cases hpc : s.pc with
  | starting =>
      simp only [hpc, Option.some.injEq] at h
      exact ⟨true, .checking, h.symm, rfl⟩
  | checking =>
      simp only [hpc, Option.some.injEq] at h
      refine ⟨s.running, _, h.symm, ?_⟩
      split <;> rfl
  | draining =>
      simp only [hpc, Option.ite_none_right_eq_some, Option.some.injEq] at h
      exact ⟨s.running, .waiting, h.2.symm, rfl⟩
  | handling events =>
      cases events with
      | nil =>
          simp only [hpc, Option.some.injEq] at h
          exact ⟨s.running, .checking, h.symm, rfl⟩
      | cons => simp [hpc] at h
  | waiting | returned | threw => simp [hpc] at h

/-- A step that registers operations only next to no other keeps the invariant. -/
theorem sound_step {a : Label ι} (h : Tracked s) (hf : Faithful s) (halone : RegistersAlone s a)
    (hstep : step s a = some t) :
  Tracked t ∧ Faithful t
  := by
  cases a with
  | submit o =>
      simp only [step, Option.ite_none_right_eq_some, Option.some.injEq] at hstep
      obtain ⟨⟨-, hnew⟩, rfl⟩ := hstep
      constructor
      · apply h.submit hnew <;> rfl
      · apply hf.of_same <;> rfl
  | trigger =>
      simp only [step, Option.ite_none_right_eq_some, Option.some.injEq] at hstep
      obtain ⟨-, rfl⟩ := hstep
      constructor
      · apply h.of_same <;> rfl
      · apply hf.of_same <;> rfl
  | stop =>
      obtain rfl := Option.some.inj hstep
      constructor
      · apply h.of_same <;> rfl
      · apply hf.of_same <;> rfl
  | run =>
      obtain ⟨running, pc, rfl, hevents⟩ := runStep_frame hstep
      constructor
      · apply h.of_same
        case hevents => apply hevents
        all_goals rfl
      · apply hf.of_same <;> rfl
  | process errno =>
      simp only [step] at hstep
      split at hstep
      · rename_i o pending hpc hfirst
        obtain rfl := Option.some.inj hstep
        apply sound_processOp h hf hfirst hpc
        rintro rfl hfilter
        apply halone o _ hfilter
        simp [hfirst]
      · contradiction
  | deliver events =>
      simp only [step, Option.ite_none_right_eq_some, Option.some.injEq] at hstep
      obtain ⟨⟨-, -, hdelivers⟩, rfl⟩ := hstep
      constructor
      · apply h.deliver hdelivers <;> rfl
      · apply hf.of_same <;> rfl
  | handle res =>
      simp only [step] at hstep
      split at hstep
      · rename_i event events hpc
        obtain rfl := Option.some.inj hstep
        apply sound_handleEvent h hf hpc
      · contradiction
  | interrupt =>
      simp only [step, Option.ite_none_right_eq_some, Option.some.injEq] at hstep
      obtain ⟨hpc, rfl⟩ := hstep
      constructor
      · apply h.of_same
        case hevents => rw [hpc]; rfl
        all_goals rfl
      · apply hf.of_same <;> rfl
  | fail =>
      simp only [step, Option.ite_none_right_eq_some, Option.some.injEq] at hstep
      obtain ⟨hpc, rfl⟩ := hstep
      constructor
      · apply h.of_same
        case hevents => rw [hpc]; rfl
        all_goals rfl
      · apply hf.of_same <;> rfl

/-- An operation that is registered next to another takes its place. -/
theorem not_faithful_of_crowded {a : Label ι} (hcrowded : ¬ RegistersAlone s a)
    (hstep : step s a = some t) :
  ¬ Faithful t
  := by
  intro hfaithful
  apply hcrowded
  unfold RegistersAlone
  split
  · intro o ho hfilter
    simp only [step] at hstep
    split at hstep
    · rename_i o' pending hpc hfirst
      obtain rfl := Option.some.inj hstep
      obtain rfl : o' = o := by simpa [hfirst] using ho
      cases htype : (s.op o').type with
      | read | accept | recvfrom =>
          have hkept : s.overwritten = [] ∧ s.active_ops (s.op o').fd = none := by
            simpa [processOp, htype, processRead, State.watch] using hfaithful.kept
          apply hkept.2
      | write | connect | sendto =>
          have hkept : s.overwritten = [] ∧ s.active_ops (s.op o').fd = none := by
            simpa [processOp, htype, processWrite, State.watch] using hfaithful.kept
          apply hkept.2
      | close | «open» => simp [htype, filterOf] at hfilter
    · contradiction
  · trivial

/-! ### Result -/

/-- Every operation whose event is handled, or whose descriptor is closed, is completed exactly
once, with the result of its own system call, and none is overwritten, as long as, and only as long
as, an operation is registered only where `active_ops_` holds no other of its descriptor. -/
theorem faithful_iff_registers_alone {type : ι → IoUring.OpType} {fd : ι → ℤ} {as : List (Label ι)} :
  Run step (Visits Faithful) (initial type fd) as t
    ↔ Run step (Meets RegistersAlone) (initial type fd) as t
  := by
  apply Run.visits_iff_meets fun s => Tracked s ∧ Faithful s
  · rintro s a t ⟨h, hf⟩ halone hstep
    apply sound_step h hf halone hstep
  · rintro s ⟨-, hf⟩
    apply hf
  · rintro s a t - hcrowded hstep
    apply not_faithful_of_crowded hcrowded hstep
  · exact ⟨Tracked.initial, Faithful.initial⟩

/-- One operation that reads, and one that writes. -/
def duplex : Bool → IoUring.OpType
  | true => .read
  | false => .write

/-- A descriptor is read and written at a time: the event of the read completes the write, and the
read is not completed. -/
theorem overwritten_duplex :
  ∃ as t, Run step (Meets OnePerDirection) (initial duplex fun _ => 5) as t ∧
    (true, false, 3) ∈ t.ready ∧ (false, .read) ∈ t.served ∧ ¬ Faithful t
  := by
  obtain ⟨t, hrun, hready, hserved, hzero⟩ : ∃ t,
      Run step (Meets OnePerDirection) (initial duplex fun _ => 5)
        [.submit true, .submit false, .trigger, .trigger, .run, .run, .process none,
          .process none, .run, .deliver [.wakeup, .ready (5, .read) false], .handle 0,
          .handle 3] t ∧
      (true, false, 3) ∈ t.ready ∧ (false, .read) ∈ t.served ∧ (t.op true).completions = 0 := by
    apply exists_run_of_exec_guarded
    decide
  refine ⟨_, t, hrun, hready, hserved, ?_⟩
  intro h
  have hone : (t.op true).completions = 1 := by
    rw [h.ready true false 3 hready, Op.finish_completions]
    rfl
  omega

end Koroutine.Kqueue
