import Koroutine.Engine.IoUringProgress
import Koroutine.Engine.KqueueProgress
import Koroutine.Transition.Fifo
import Mathlib.Data.Set.Insert

/-!
# Closing a descriptor

`AsyncSocket::close` and `AsyncSocket::cancel` submit a `CLOSE` operation.  Both engines process the
operations in the order of their submission, so that those submitted before have been processed when
the `CLOSE` has been completed.  `process_close` of `KqueueIOEngine` then cancels the operation that
`active_ops_` holds for the descriptor, but not one that was overwritten there; `IoUringIOEngine`
leaves what it has given to the kernel as it is.
-/

open Transition

namespace Koroutine

/-! ### `IoUringIOEngine` -/

namespace IoUring

variable {ι : Type*} [DecidableEq ι] {type : ι → OpType} {s t : State ι}
  {as bs cs : List (Label ι)} {a : Label ι} {c o : ι}

/-- Operations are processed in the order of their submission. -/
theorem queue_suffix (h : Run step Free (initial type) as t) :
  t.queue <:+ as.filterMap Label.pushed
  := by
  apply h.invariant_along fun as t => t.queue <:+ as.filterMap Label.pushed
  · intro as s a t hs _ e
    rw [List.filterMap_append]
    have hpushed : [a].filterMap Label.pushed = a.pushed.toList := by
      cases hpushed : a.pushed <;> simp [hpushed]
    rw [hpushed]
    cases progress_step e with
    | idle _ _ hqueue =>
        obtain ⟨before, hbefore⟩ := hs
        use before
        rw [hqueue, ← hbefore, List.append_assoc]
    | taken o _ _ hqueue hnone | refused o _ _ _ _ hqueue hnone =>
        rw [hnone, Option.toList_none, List.append_nil]
        rw [hqueue] at hs
        apply (List.suffix_cons o t.queue).trans hs
    | finished _ _ _ _ _ _ hqueue hnone =>
        rw [hnone, Option.toList_none, List.append_nil, hqueue]
        apply hs
  · apply List.suffix_refl

/-- The operation has been completed once, with its own result or an error. -/
structure Settled (type : ι → OpType) (as : List (Label ι)) (t : State ι) (o : ι) : Prop where
  once : (t.op o).completions = 1
  answered : ∃ bs cs u, as = bs ++ cs ∧ Run step Free (initial type) bs u ∧ Answer u o (t.op o)

theorem settled_iff_once (h : Run step Free (initial type) as t) :
  Settled type as t o ↔ (t.op o).completions = 1
  := by
  constructor
  · apply Settled.once
  · intro honce
    constructor
    · apply honce
    · apply answered h
      omega

/-- Only the operation that a step completes or takes changes its place. -/
theorem flight_of_completed (h : Progress s a t) (hc : (t.op c).completions ≠ (s.op c).completions)
    (ho : o ≠ c) :
  t.in_flight_ops o = s.in_flight_ops o
  := by
  cases h with
  | idle hop | taken _ hop =>
      rw [hop] at hc
      contradiction
  | refused _ _ _ _ hflight => rw [hflight]
  | finished o' _ _ _ hop hflight =>
      obtain rfl : c = o' := by
        by_contra hne
        rw [hop, Function.update_of_ne hne] at hc
        contradiction
      rw [hflight, Function.update_of_ne ho]

/-- When a `CLOSE` is completed, each operation that was submitted before it is in the kernel, or
has been completed. -/
theorem account_of_closed (h : Run step Free (initial type) (bs ++ .push c :: cs) s)
    (e : step s a = some t) (hnodup : ((bs ++ .push c :: cs ++ [a]).filterMap Label.pushed).Nodup)
    (hopen : (s.op c).completions = 0) (hclosed : (t.op c).completions ≠ 0) (ho : .push o ∈ bs) :
  (s.in_flight_ops o).toNat + (t.op o).completions = 1
  := by
  have hrun : Run step Free (initial type) (bs ++ .push c :: cs ++ [a]) t := h.snoc e trivial
  have hlabels : (bs ++ .push c :: cs ++ [a]).filterMap Label.pushed =
      bs.filterMap Label.pushed ++ c :: (cs ++ [a]).filterMap Label.pushed := by
    simp [List.filterMap_append, List.filterMap_cons, Label.pushed]
  have hqueue := queue_suffix hrun
  have haccount := account_run hrun hnodup
  rw [hlabels] at hqueue haccount hnodup
  have hmem : o ∈ bs.filterMap Label.pushed := by
    apply List.mem_filterMap.mpr
    exact ⟨.push o, ho, rfl⟩
  have hc : c ∉ t.queue := by
    intro hc
    have hone := haccount c
    have hle := List.nodup_iff_count_le_one.mp hnodup c
    rw [State.queue] at hc
    have hpos := List.count_pos_iff.mpr hc
    rw [List.count_append] at hpos
    rw [State.account] at hone
    omega
  have hpassed := Fifo.left_before hqueue hnodup hc hmem
  rw [State.queue, List.mem_append, not_or] at hpassed
  have hne : o ≠ c := by
    rintro rfl
    apply (List.disjoint_of_nodup_append hnodup) hmem List.mem_cons_self
  have hone := haccount o
  rw [List.count_eq_one_of_mem hnodup (List.mem_append_left _ hmem), State.account,
    List.count_eq_zero.mpr hpassed.1, List.count_eq_zero.mpr hpassed.2,
    flight_of_completed (progress_step e) (by omega) hne] at hone
  omega

/-- When a `CLOSE` is completed, the operations submitted before it have been completed, if and only
if none of them is in `in_flight_ops_`. -/
theorem settled_iff_landed {S : Set ι} (h : Run step Free (initial type) (bs ++ .push c :: cs) s)
    (e : step s a = some t) (hnodup : ((bs ++ .push c :: cs ++ [a]).filterMap Label.pushed).Nodup)
    (hopen : (s.op c).completions = 0) (hclosed : (t.op c).completions ≠ 0)
    (hS : ∀ o ∈ S, .push o ∈ bs) :
  (∀ o ∈ S, Settled type (bs ++ .push c :: cs ++ [a]) t o) ↔ ∀ o ∈ S, s.in_flight_ops o = false
  := by
  have hrun : Run step Free (initial type) (bs ++ .push c :: cs ++ [a]) t := h.snoc e trivial
  constructor
  · intro hsettled o ho
    have haccount := account_of_closed h e hnodup hopen hclosed (hS o ho)
    have honce := (hsettled o ho).once
    apply Bool.toNat_eq_zero.mp
    omega
  · intro hlanded o ho
    have haccount := account_of_closed h e hnodup hopen hclosed (hS o ho)
    rw [hlanded o ho, Bool.toNat_false] at haccount
    apply (settled_iff_once hrun).mpr
    omega

end IoUring

/-! ### `KqueueIOEngine` -/

namespace Kqueue

variable {ι : Type*} [DecidableEq ι] {type : ι → IoUring.OpType} {fd : ι → ℤ} {s t u : State ι}
  {as bs cs : List (Label ι)} {a : Label ι} {c o : ι}

/-- Operations are processed in the order of their submission. -/
theorem pending_suffix (h : Run step Free (initial type fd) as t) :
  t.pending_ops <:+ t.submitted
  := by
  have hboth : Accounted t ∧ t.pending_ops <:+ t.submitted := by
    apply h.invariant fun t => Accounted t ∧ t.pending_ops <:+ t.submitted
    · intro s a t ⟨hs, hsuffix⟩ _ e
      refine ⟨hs.step e, ?_⟩
      cases progress_step hs e with
      | idle _ _ hpending hsubmitted =>
          obtain ⟨before, hbefore⟩ := hsuffix
          use before
          rw [hpending, hsubmitted, ← hbefore, List.append_assoc]
      | watched o _ _ _ hpending hsubmitted | failed o _ _ _ _ _ hpending hsubmitted
      | closed o _ _ _ _ _ hpending hsubmitted
      | canceled o _ _ _ _ _ _ _ hpending hsubmitted =>
          rw [hsubmitted]
          rw [hpending] at hsuffix
          apply (List.suffix_cons o t.pending_ops).trans hsuffix
      | finished _ _ _ _ _ _ _ hpending hsubmitted =>
          rw [hpending, hsubmitted]
          apply hsuffix
    · exact ⟨.initial, List.suffix_refl _⟩
  apply hboth.2

/-- The operations submitted before stay the first of those submitted. -/
theorem submitted_prefix (hu : Accounted u) (h : Run step Free u as t) :
  u.submitted <+: t.submitted
  := by
  have hboth : Accounted t ∧ u.submitted <+: t.submitted := by
    apply h.invariant fun t => Accounted t ∧ u.submitted <+: t.submitted
    · intro s a t ⟨hs, hextends⟩ _ e
      refine ⟨hs.step e, ?_⟩
      cases progress_step hs e with
      | idle _ _ _ hsubmitted =>
          rw [hsubmitted]
          apply hextends.trans (List.prefix_append ..)
      | watched _ _ _ _ _ hsubmitted | failed _ _ _ _ _ _ _ hsubmitted
      | closed _ _ _ _ _ _ _ hsubmitted | canceled _ _ _ _ _ _ _ _ _ hsubmitted
      | finished _ _ _ _ _ _ _ _ hsubmitted =>
          rw [hsubmitted]
          apply hextends
    · exact ⟨hu, List.prefix_refl _⟩
  apply hboth.2

/-- The operation has been completed once, with the result of its own system call or an error. -/
structure Settled (type : ι → IoUring.OpType) (fd : ι → ℤ) (as : List (Label ι)) (t : State ι)
    (o : ι) : Prop where
  once : (t.op o).completions = 1
  answered : ∃ bs cs u, as = bs ++ cs ∧ Run step Free (initial type fd) bs u ∧
    Answer (u.op o) (t.op o)

theorem settled_iff_once (h : Run step Free (initial type fd) as t) :
  Settled type fd as t o ↔ (t.op o).completions = 1
  := by
  constructor
  · apply Settled.once
  · intro honce
    constructor
    · apply honce
    · apply answered h
      omega

/-- The step that completes a `CLOSE` is `process_close`: no operation is left in `active_ops_` for
the descriptor, and none is overwritten. -/
theorem freed_of_closed (hwatching : Watching type fd s) (h : Progress s a t)
    (hc : (t.op c).completions ≠ (s.op c).completions) (htype : type c = .close) :
  t.active_ops (fd c) = none ∧ t.overwritten = s.overwritten
  := by
  have hother : ∀ {o' : ι} {op : Op}, t.op = Function.update s.op o' op → c = o' := by
    intro o' op hop
    by_contra hne
    rw [hop, Function.update_of_ne hne] at hc
    contradiction
  have hinactive : ∀ fd', s.active_ops fd' ≠ some c := by
    intro fd' hactive
    apply hwatching.active fd' c hactive
    rw [htype]
    rfl
  cases h with
  | idle hop | watched _ _ hop =>
      rw [hop] at hc
      contradiction
  | failed o' _ _ hnot hop =>
      obtain rfl := hother hop
      rw [hwatching.types, htype] at hnot
      contradiction
  | closed o' _ _ hfree hop hactive _ _ hoverwritten =>
      obtain rfl := hother hop
      rw [hwatching.fds] at hfree
      rw [hactive]
      exact ⟨hfree, hoverwritten⟩
  | canceled c' o' _ _ _ hrecorded hop hactive _ _ hoverwritten =>
      have hne : c ≠ o' := by
        rintro rfl
        apply hinactive _ hrecorded
      obtain rfl : c = c' := by
        by_contra hne'
        rw [hop, Function.update_of_ne hne, Function.update_of_ne hne'] at hc
        contradiction
      rw [hactive, hwatching.fds, Function.update_self]
      exact ⟨rfl, hoverwritten⟩
  | finished o' fd' _ _ hrecorded hop =>
      obtain rfl := hother hop
      apply absurd hrecorded (hinactive fd')

/-- When a `CLOSE` is completed, each operation that was submitted before it for its descriptor has
been overwritten in `active_ops_`, or has been completed. -/
theorem account_of_closed (h : Run step Free (initial type fd) bs u)
    (h' : Run step Free u (.submit c :: cs) s) (e : step s a = some t) (htype : type c = .close)
    (hopen : (s.op c).completions = 0) (hclosed : (t.op c).completions ≠ 0)
    (ho : o ∈ u.submitted) (hfd : fd o = fd c) :
  s.overwritten.count o + (t.op o).completions = 1
  := by
  have hs := h.trans h'
  have ht := hs.snoc e trivial
  have haccounted := accounted_of_run ht
  obtain ⟨hactive, hoverwritten⟩ := freed_of_closed (watching_of_run hs)
    (progress_step (accounted_of_run hs) e) (by omega) htype
  obtain ⟨rest, hsubmitted⟩ : ∃ rest, t.submitted = u.submitted ++ c :: rest := by
    obtain ⟨v, hsubmit, -, hrest⟩ := h'.of_cons
    have hu := accounted_of_run h
    have hv : v.submitted = u.submitted ++ [c] := by
      simp only [step, Option.ite_none_right_eq_some, Option.some.injEq] at hsubmit
      obtain ⟨-, rfl⟩ := hsubmit
      rfl
    obtain ⟨rest, hextends⟩ := submitted_prefix (hu.step hsubmit) (hrest.snoc e trivial)
    use rest
    rw [← hextends, hv, List.append_assoc, List.singleton_append]
  have hnodup := haccounted.nodup
  have hqueue := pending_suffix ht
  rw [hsubmitted] at hnodup hqueue
  have hc : c ∉ t.pending_ops := by
    intro hc
    have hone := haccounted.account c
    have hle := List.nodup_iff_count_le_one.mp haccounted.nodup c
    have hpos := List.count_pos_iff.mpr hc
    rw [State.account] at hone
    omega
  have hpassed := Fifo.left_before hqueue hnodup hc ho
  have hone := haccounted.account o
  have hmem : o ∈ t.submitted := by
    rw [hsubmitted]
    apply List.mem_append_left _ ho
  rw [List.count_eq_one_of_mem haccounted.nodup hmem, State.account,
    List.count_eq_zero.mpr hpassed, (watching_of_run ht).fds, hfd, hactive, hoverwritten] at hone
  simpa using hone

/-- When a `CLOSE` is completed, the operations submitted before it for its descriptor have been
completed, if and only if none of them has been overwritten in `active_ops_`. -/
theorem settled_iff_kept {S : Set ι} (h : Run step Free (initial type fd) bs u)
    (h' : Run step Free u (.submit c :: cs) s) (e : step s a = some t) (htype : type c = .close)
    (hopen : (s.op c).completions = 0) (hclosed : (t.op c).completions ≠ 0)
    (hS : ∀ o ∈ S, o ∈ u.submitted ∧ fd o = fd c) :
  (∀ o ∈ S, Settled type fd (bs ++ .submit c :: cs ++ [a]) t o) ↔ ∀ o ∈ S, o ∉ s.overwritten
  := by
  have hrun : Run step Free (initial type fd) (bs ++ .submit c :: cs ++ [a]) t :=
    (h.trans h').snoc e trivial
  constructor
  · intro hsettled o ho
    have haccount := account_of_closed h h' e htype hopen hclosed (hS o ho).1 (hS o ho).2
    have honce := (hsettled o ho).once
    apply List.count_eq_zero.mp
    omega
  · intro hkept o ho
    have haccount := account_of_closed h h' e htype hopen hclosed (hS o ho).1 (hS o ho).2
    rw [List.count_eq_zero.mpr (hkept o ho)] at haccount
    apply (settled_iff_once hrun).mpr
    omega

end Kqueue

/-! ### Both engines -/

/-- When a `CLOSE` is completed, every operation of a set that was submitted before it on the same
object has been completed exactly once, with its own result or an error, if and only if

* for `IoUringIOEngine`, none of them is then in `in_flight_ops_`,
* for `KqueueIOEngine`, none of them has been overwritten in `active_ops_`. -/
theorem closed_settled_iff {ι : Type*} [DecidableEq ι] :
  (∀ (type : ι → IoUring.OpType) (bs cs : List (IoUring.Label ι)) (a : IoUring.Label ι)
      (s t : IoUring.State ι) (c : ι) (S : Set ι), type c = .close →
    Run IoUring.step Free (IoUring.initial type) (bs ++ .push c :: cs) s →
    ((bs ++ .push c :: cs ++ [a]).filterMap IoUring.Label.pushed).Nodup →
    (∀ o ∈ S, .push o ∈ bs) → IoUring.step s a = some t →
    (s.op c).completions = 0 → (t.op c).completions ≠ 0 →
    ((∀ o ∈ S, IoUring.Settled type (bs ++ .push c :: cs ++ [a]) t o) ↔
      ∀ o ∈ S, s.in_flight_ops o = false)) ∧
  ∀ (type : ι → IoUring.OpType) (fd : ι → ℤ) (bs cs : List (Kqueue.Label ι)) (a : Kqueue.Label ι)
      (u s t : Kqueue.State ι) (c : ι) (S : Set ι), type c = .close →
    Run Kqueue.step Free (Kqueue.initial type fd) bs u →
    Run Kqueue.step Free u (.submit c :: cs) s →
    (∀ o ∈ S, o ∈ u.submitted ∧ fd o = fd c) → Kqueue.step s a = some t →
    (s.op c).completions = 0 → (t.op c).completions ≠ 0 →
    ((∀ o ∈ S, Kqueue.Settled type fd (bs ++ .submit c :: cs ++ [a]) t o) ↔
      ∀ o ∈ S, o ∉ s.overwritten)
  := by
  constructor
  · intro type bs cs a s t c S _ h hnodup hS e hopen hclosed
    apply IoUring.settled_iff_landed h e hnodup hopen hclosed hS
  · intro type fd bs cs a u s t c S htype h h' hS e hopen hclosed
    apply Kqueue.settled_iff_kept h h' e htype hopen hclosed hS

/-- An operation that reads, one that writes, and one that closes. -/
def closing : Option Bool → IoUring.OpType
  | some true => .read
  | some false => .write
  | none => .close

/-- `IoUringIOEngine` completes a read before the descriptor is closed, `KqueueIOEngine` cancels it.
-/
theorem closed_settled_two :
  (∃ bs cs a s t, Run IoUring.step Free (IoUring.initial closing) (bs ++ .push none :: cs) s ∧
    IoUring.step s a = some t ∧ (t.op none).completions = 1 ∧
    IoUring.Settled closing (bs ++ .push none :: cs ++ [a]) t (some true)) ∧
  ∃ bs cs a s t, Run Kqueue.step Free (Kqueue.initial closing fun _ => 5) (bs ++ .submit none :: cs) s ∧
    Kqueue.step s a = some t ∧ (t.op none).completions = 1 ∧
    Kqueue.Settled closing (fun _ => 5) (bs ++ .submit none :: cs ++ [a]) t (some true)
  := by
  obtain ⟨hio_uring, hkqueue⟩ := closed_settled_iff (ι := Option Bool)
  constructor
  · obtain ⟨s, hs, hopen, hlanded, hexec⟩ : ∃ s,
        Run IoUring.step Free (IoUring.initial closing)
          (List.flatten [[.push (some true), .signal (some true)], List.replicate 4 .run,
            [.complete 0 8], List.replicate 7 .run, [.complete 0 5], List.replicate 3 .run] ++
            .push none :: List.flatten [[.signal none], List.replicate 2 .run, [.complete 0 8],
              List.replicate 7 .run, [.complete 0 0, .run]]) s ∧
        (s.op none).completions = 0 ∧ s.in_flight_ops (some true) = false ∧
        (IoUring.step s .run).any (fun t => (t.op none).completions = 1) = true := by
      apply exists_run_of_exec
      decide
    obtain ⟨t, ht, hclosed⟩ := (Option.any_eq_true _ _).mp hexec
    have honce : (t.op none).completions = 1 := by simpa using hclosed
    refine ⟨_, _, .run, s, t, hs, ht, honce, ?_⟩
    apply (hio_uring closing _ _ .run s t none {some true} rfl hs (by decide) _ ht hopen _).mpr
    · intro o ho
      rw [Set.mem_singleton_iff.mp ho]
      apply hlanded
    · apply Set.mem_singleton
    · intro o ho
      rw [Set.mem_singleton_iff.mp ho]
      simp
    · omega
  · obtain ⟨u, hu, hsubmitted, hexec⟩ : ∃ u,
        Run Kqueue.step Free (Kqueue.initial closing fun _ => 5) [.submit (some true)] u ∧
        u.submitted = [some true] ∧
        (exec Kqueue.step u [.submit none, .trigger, .trigger, .run, .run, .process none]).any
          (fun s => (s.op none).completions = 0 ∧ s.overwritten = [] ∧
            (Kqueue.step s (.process none)).any (fun t => (t.op none).completions = 1) = true) =
              true := by
      apply exists_run_of_exec
      decide
    obtain ⟨s, hs, hopen, hkept, hstep⟩ := exists_run_of_exec hexec
    obtain ⟨t, ht, hclosed⟩ := (Option.any_eq_true _ _).mp hstep
    have honce : (t.op none).completions = 1 := by simpa using hclosed
    refine ⟨_, _, .process none, s, t, hu.trans hs, ht, honce, ?_⟩
    apply (hkqueue closing (fun _ => 5) _ _ (.process none) u s t none {some true} rfl hu hs _ ht
      hopen _).mpr
    · intro o _
      rw [hkept]
      apply List.not_mem_nil
    · apply Set.mem_singleton
    · intro o ho
      rw [Set.mem_singleton_iff.mp ho, hsubmitted]
      simp
    · omega

/-- An operation that the kernel has not completed, or, with `KqueueIOEngine`, one that was
overwritten in `active_ops_`, is left waiting when the descriptor has been closed. -/
theorem closed_in_flight :
  (∃ bs cs a s t, Run IoUring.step Free (IoUring.initial closing) (bs ++ .push none :: cs) s ∧
    .push (some true) ∈ bs ∧ IoUring.step s a = some t ∧ (s.op none).completions = 0 ∧
    (t.op none).completions = 1 ∧ (t.op (some true)).completions = 0) ∧
  ∃ bs cs a s t, Run Kqueue.step Free (Kqueue.initial closing fun _ => 5) (bs ++ .submit none :: cs) s ∧
    .submit (some true) ∈ bs ∧ Kqueue.step s a = some t ∧ (s.op none).completions = 0 ∧
    (t.op none).completions = 1 ∧ (t.op (some true)).completions = 0
  := by
  constructor
  · obtain ⟨s, hs, hopen, hexec⟩ : ∃ s,
        Run IoUring.step Free (IoUring.initial closing)
          ([.push (some true)] ++ .push none :: List.flatten [[.signal none], List.replicate 4 .run,
            [.complete 0 8], List.replicate 8 .run, [.complete 1 0, .run]]) s ∧
        (s.op none).completions = 0 ∧
        (IoUring.step s .run).any (fun t =>
          (t.op none).completions = 1 ∧ (t.op (some true)).completions = 0) = true := by
      apply exists_run_of_exec
      decide
    obtain ⟨t, ht, hend⟩ := (Option.any_eq_true _ _).mp hexec
    obtain ⟨hclosed, hwaiting⟩ : (t.op none).completions = 1 ∧ (t.op (some true)).completions = 0 := by
      simpa using hend
    refine ⟨[.push (some true)], _, .run, s, t, hs, ?_, ht, hopen, hclosed, hwaiting⟩
    apply List.mem_singleton_self
  · obtain ⟨s, hs, hopen, hexec⟩ : ∃ s,
        Run Kqueue.step Free (Kqueue.initial closing fun _ => 5)
          ([.submit (some true), .submit (some false)] ++ .submit none ::
            [.trigger, .run, .run, .process none, .process none]) s ∧
        (s.op none).completions = 0 ∧
        (Kqueue.step s (.process none)).any (fun t =>
          (t.op none).completions = 1 ∧ (t.op (some true)).completions = 0) = true := by
      apply exists_run_of_exec
      decide
    obtain ⟨t, ht, hend⟩ := (Option.any_eq_true _ _).mp hexec
    obtain ⟨hclosed, hwaiting⟩ : (t.op none).completions = 1 ∧ (t.op (some true)).completions = 0 := by
      simpa using hend
    refine ⟨[.submit (some true), .submit (some false)], _, .process none, s, t, hs, ?_, ht, hopen,
      hclosed, hwaiting⟩
    apply List.mem_cons_self

end Koroutine
