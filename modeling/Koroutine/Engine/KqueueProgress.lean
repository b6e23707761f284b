import Koroutine.Engine.Stopping

/-!
# How `KqueueIOEngine` goes on

A step leaves the operations alone, takes the first of `pending_ops_` to register or complete it, or
completes the operation that `active_ops_` holds for a descriptor.  Only operations that wait for an
event are in `active_ops_`, and `process_close` leaves none there for its descriptor.
-/

open Transition

namespace Koroutine.Kqueue

variable {ι : Type*}

/-- The operation that a step submits. -/
def Label.submits : Label ι → Option ι
  | .submit o => some o
  | _ => none

variable [DecidableEq ι]

/-- What a step does to the operations. -/
inductive Progress (s : State ι) (a : Label ι) (t : State ι) : Prop
  | idle (op : t.op = s.op) (active : t.active_ops = s.active_ops)
      (pending : t.pending_ops = s.pending_ops ++ a.submits.toList)
      (submitted : t.submitted = s.submitted ++ a.submits.toList)
      (overwritten : t.overwritten = s.overwritten)
  | watched (o : ι) (type : filterOf (s.op o).type ≠ none) (op : t.op = s.op)
      (active : t.active_ops = Function.update s.active_ops (s.op o).fd (some o))
      (pending : s.pending_ops = o :: t.pending_ops) (submitted : t.submitted = s.submitted)
      (overwritten : t.overwritten = s.overwritten ++ (s.active_ops (s.op o).fd).toList)
  | failed (o : ι) (error : ErrorCode) (cause : error ≠ .none) (type : (s.op o).type ≠ .close)
      (op : t.op = Function.update s.op o ((s.op o).completeWith error))
      (active : t.active_ops = s.active_ops) (pending : s.pending_ops = o :: t.pending_ops)
      (submitted : t.submitted = s.submitted) (overwritten : t.overwritten = s.overwritten)
  | closed (o : ι) (errno : Option ℤ) (type : (s.op o).type = .close)
      (free : s.active_ops (s.op o).fd = none)
      (op : t.op = Function.update s.op o ((s.op o).closed errno))
      (active : t.active_ops = s.active_ops) (pending : s.pending_ops = o :: t.pending_ops)
      (submitted : t.submitted = s.submitted) (overwritten : t.overwritten = s.overwritten)
  | canceled (o o' : ι) (errno : Option ℤ) (type : (s.op o).type = .close) (ne : o ≠ o')
      (recorded : s.active_ops (s.op o).fd = some o')
      (op : t.op = Function.update (Function.update s.op o ((s.op o).closed errno)) o'
        ((s.op o').completeWith .operation_canceled))
      (active : t.active_ops = Function.update s.active_ops (s.op o).fd none)
      (pending : s.pending_ops = o :: t.pending_ops) (submitted : t.submitted = s.submitted)
      (overwritten : t.overwritten = s.overwritten)
  | finished (o : ι) (fd : ℤ) (error : Bool) (res : ℤ) (recorded : s.active_ops fd = some o)
      (op : t.op = Function.update s.op o ((s.op o).finish error res))
      (active : t.active_ops = Function.update s.active_ops fd none)
      (pending : t.pending_ops = s.pending_ops) (submitted : t.submitted = s.submitted)
      (overwritten : t.overwritten = s.overwritten)

variable {s t : State ι} {a : Label ι}

theorem progress_watch {o : ι} {pending : List ι} {filter : Filter} {errno : Option ℤ}
    (hfirst : s.pending_ops = o :: pending) (hfilter : filterOf (s.op o).type = some filter) :
  Progress s (.process errno) (State.watch { s with pending_ops := pending } o filter errno)
  := by
  have htype : (s.op o).type ≠ .close := by
    intro hclose
    rw [hclose] at hfilter
    contradiction
  cases errno with
  | none => exact Progress.watched o (by simp [hfilter]) rfl rfl hfirst rfl rfl
  | some n => exact Progress.failed o (.errno n) (by simp) htype rfl rfl hfirst rfl rfl

theorem progress_processOp (hs : Accounted s) {o : ι} {pending : List ι} {errno : Option ℤ}
    (hfirst : s.pending_ops = o :: pending) :
  Progress s (.process errno) (processOp { s with pending_ops := pending } o errno)
  := by
  unfold processOp
  cases htype : (s.op o).type with
  | read | accept | recvfrom | write | connect | sendto =>
      exact progress_watch hfirst (by rw [htype]; rfl)
  | «open» =>
      have hclose : (s.op o).type ≠ .close := by simp [htype]
      exact Progress.failed o .not_supported (by simp) hclose rfl rfl hfirst rfl rfl
  | close =>
      cases hactive : s.active_ops (s.op o).fd with
      | none =>
          rw [processClose_of_none (s := { s with pending_ops := pending }) hactive]
          exact Progress.closed o errno htype hactive rfl rfl hfirst rfl rfl
      | some o' =>
          have hne : o ≠ o' := by
            rintro rfl
            apply hs.not_active hfirst hactive
          rw [processClose_of_some (s := { s with pending_ops := pending }) hne hactive]
          exact Progress.canceled o o' errno htype hne hactive rfl rfl hfirst rfl rfl

/-- Every step is one of these. -/
theorem progress_step (hs : Accounted s) (h : step s a = some t) :
  Progress s a t
  := by
  cases a with
  | submit o =>
      simp only [step, Option.ite_none_right_eq_some, Option.some.injEq] at h
      obtain ⟨-, rfl⟩ := h
      exact Progress.idle rfl rfl rfl rfl rfl
  | trigger | interrupt | fail | deliver events =>
      simp only [step, Option.ite_none_right_eq_some, Option.some.injEq] at h
      obtain ⟨-, rfl⟩ := h
      apply Progress.idle <;> simp [Label.submits]
  | stop =>
      obtain rfl := Option.some.inj h
      apply Progress.idle <;> simp [Label.submits]
  | run =>
      obtain ⟨running, pc, rfl, -⟩ := runStep_frame h
      apply Progress.idle <;> simp [Label.submits]
  | process errno =>
      simp only [step] at h
      split at h
      · rename_i o pending _ hfirst
        obtain rfl := Option.some.inj h
        apply progress_processOp hs hfirst
      · contradiction
  | handle res =>
      simp only [step] at h
      split at h
      · rename_i event events _
        obtain rfl := Option.some.inj h
        cases event with
        | wakeup => apply Progress.idle <;> simp [handleEvent, Label.submits]
        | ready key error =>
            cases hactive : s.active_ops key.1 with
            | none => apply Progress.idle <;> simp [handleEvent, hactive, Label.submits]
            | some o =>
                apply Progress.finished o key.1 error res hactive <;> simp [handleEvent, hactive]
      · contradiction

/-! ### Answers -/

/-- What an operation is after a step that completes it: it has the result of its own system call,
or an error. -/
inductive Answer (op : Op) : Op → Prop
  | result (error : Bool) (res : ℤ) : Answer op (op.finish error res)
  | failed (error : ErrorCode) (cause : error ≠ .none) : Answer op (op.completeWith error)
  | closed (errno : Option ℤ) (type : op.type = .close) : Answer op (op.closed errno)

theorem Progress.answer (h : Progress s a t) {o : ι} (hne : t.op o ≠ s.op o) :
  Answer (s.op o) (t.op o)
  := by
  have hupdate : ∀ {o' : ι} {op : Op}, t.op = Function.update s.op o' op → o' = o ∧ t.op o = op := by
    intro o' op hop
    rw [hop] at hne ⊢
    by_cases ho : o = o'
    · subst ho
      simp
    · rw [Function.update_of_ne ho] at hne
      contradiction
  cases h with
  | idle hop | watched _ _ hop =>
      rw [hop] at hne
      contradiction
  | failed o' error cause _ hop =>
      obtain ⟨rfl, heq⟩ := hupdate hop
      rw [heq]
      apply Answer.failed error cause
  | closed o' errno type _ hop =>
      obtain ⟨rfl, heq⟩ := hupdate hop
      rw [heq]
      apply Answer.closed errno type
  | finished o' fd error res _ hop =>
      obtain ⟨rfl, heq⟩ := hupdate hop
      rw [heq]
      apply Answer.result error res
  | canceled c o' errno type _ _ hop =>
      rw [hop] at hne ⊢
      by_cases ho : o = o'
      · subst ho
        rw [Function.update_self]
        apply Answer.failed .operation_canceled (by simp)
      · rw [Function.update_of_ne ho] at hne ⊢
        by_cases hc : o = c
        · subst hc
          rw [Function.update_self]
          apply Answer.closed errno type
        · rw [Function.update_of_ne hc] at hne
          contradiction

theorem Answer.type {op op' : Op} (h : Answer op op') :
  op'.type = op.type ∧ op'.fd = op.fd
  := by
  cases h with
  | result => simp
  | failed | closed => exact ⟨rfl, rfl⟩

/-- An operation that has been completed has an answer of its own. -/
theorem answered {type : ι → IoUring.OpType} {fd : ι → ℤ} {as : List (Label ι)} {o : ι}
    (h : Run step Free (initial type fd) as t) (hcompleted : (t.op o).completions ≠ 0) :
  ∃ bs cs u, as = bs ++ cs ∧ Run step Free (initial type fd) bs u ∧ Answer (u.op o) (t.op o)
  := by
  obtain hsame | ⟨bs, a, cs, u, v, rfl, hbefore, hstep, hne, heq⟩ := h.last_change fun s => s.op o
  · rw [hsame] at hcompleted
    contradiction
  · refine ⟨bs, a :: cs, u, rfl, hbefore, ?_⟩
    rw [heq]
    apply (progress_step (accounted_of_run hbefore) hstep).answer hne

/-! ### What is in `active_ops_` -/

/-- An operation keeps its type and its descriptor, and is in `active_ops_` only if it waits for an
event. -/
structure Watching (type : ι → IoUring.OpType) (fd : ι → ℤ) (s : State ι) : Prop where
  types : ∀ o, (s.op o).type = type o
  fds : ∀ o, (s.op o).fd = fd o
  active : ∀ fd o, s.active_ops fd = some o → filterOf (type o) ≠ none

variable {type : ι → IoUring.OpType} {fd : ι → ℤ}

omit [DecidableEq ι] in
theorem Watching.initial :
  Watching type fd (Kqueue.initial type fd)
  where
  types _ := rfl
  fds _ := rfl
  active _ _ h := by contradiction

theorem Watching.step (hs : Watching type fd s) (h : Progress s a t) :
  Watching type fd t
  := by
  constructor
  · intro o
    by_cases hsame : t.op o = s.op o
    · rw [hsame, hs.types]
    · rw [(h.answer hsame).type.1, hs.types]
  · intro o
    by_cases hsame : t.op o = s.op o
    · rw [hsame, hs.fds]
    · rw [(h.answer hsame).type.2, hs.fds]
  · intro fd' o ho
    have hnone : ∀ fd'', t.active_ops = Function.update s.active_ops fd'' none →
        s.active_ops fd' = some o := by
      intro fd'' hactive
      rw [hactive, Function.update_apply] at ho
      split at ho
      · contradiction
      · apply ho
    cases h with
    | idle _ hactive | failed _ _ _ _ _ hactive | closed _ _ _ _ _ hactive =>
        rw [hactive] at ho
        apply hs.active fd' o ho
    | canceled _ _ _ _ _ _ _ hactive => apply hs.active fd' o (hnone _ hactive)
    | finished _ _ _ _ _ _ hactive => apply hs.active fd' o (hnone _ hactive)
    | watched o' htype _ hactive =>
        rw [hactive, Function.update_apply] at ho
        split at ho
        · obtain rfl := Option.some.inj ho
          rw [← hs.types]
          apply htype
        · apply hs.active fd' o ho

theorem watching_of_run {as : List (Label ι)} (h : Run step Free (initial type fd) as t) :
  Watching type fd t
  := by
  have hboth : Accounted t ∧ Watching type fd t := by
    apply h.invariant fun t => Accounted t ∧ Watching type fd t
    · intro s a t ⟨hs, hwatching⟩ _ e
      exact ⟨hs.step e, hwatching.step (progress_step hs e)⟩
    · exact ⟨.initial, .initial⟩
  apply hboth.2

end Koroutine.Kqueue
