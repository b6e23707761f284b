import Mathlib.Data.List.Nodup
import Koroutine.Channel.Closing
import Koroutine.Channel.Order

/-!
# Values handed over before `close`

A value is handed to a reader under `channel_lock`, but the reader's and the writer's `co_await`
end later, in an `await_resume` that checks once more whether the channel is closed.  A channel that
is closed in between takes the value back from the reader, and tells the writer that it was not
delivered.  A reader that `operator>>` has made returns what is left of the value when it has been
moved to where `p_value` points.
-/

open Transition

namespace Koroutine.Channel

variable {V : Type*} {capacity : ℕ} {s t : State V} {moved_from : V → V}

/-- The writers whose values have been handed to readers. -/
def State.delivered (s : State V) : List (Writer V) :=
  s.written.take s.handed.length

/-- What was handed over counts: the reader's `co_await` returns the value, the writer completes
normally, and a writer that gets the exception has not delivered its value. -/
structure Honoured (moved_from : V → V) (s : State V) : Prop where
  readers : ∀ r v o, (r, v) ∈ s.handed → s.outcome (.reader r) = some o →
    o.returned moved_from = some v
  writers : ∀ w o, w ∈ s.delivered → s.outcome (.writer w.id) = some o → o = .done
  undelivered : ∀ w, s.outcome (.writer w.id) = some .closed → w ∉ s.delivered

/-- The awaiters that are served: handed a value, or having delivered theirs. -/
inductive Served (s : State V) : Awaiter → Prop
  | reader {r : Reader} {v : V} (handed : (r, v) ∈ s.handed) : Served s (.reader r)
  | writer {w : Writer V} (delivered : w ∈ s.delivered) : Served s (.writer w.id)

/-- Every awaiter that is served has been through `await_resume`. -/
def Awaited (s : State V) : Prop :=
  ∀ b, Served s b → s.outcome b ≠ none

/-- No reader has been through `await_resume` that has moved its value, where that changes the
value. -/
def Unmoved (moved_from : V → V) (s : State V) : Prop :=
  ∀ r v, (r, v) ∈ s.handed → s.outcome (.reader r) ≠ none → r.p_value = true → moved_from v = v

/-- No awaiter is destroyed. -/
def Intact (_ : State V) : Label V → Prop
  | .remove_reader _ | .remove_writer _ => False
  | _ => True

/-! ### While the channel is open -/

/-- The values of the writers that have delivered are the values handed over. -/
theorem delivered_values (hv : (values s).Conserved) :
  s.delivered.map Writer.value = s.handed.map Prod.snd
  := by
  have hwritten : s.handed.map Prod.snd ++ (values s).queue = s.written.map Writer.value := hv
  rw [State.delivered, List.map_take, ← hwritten]
  apply List.take_left'
  rw [List.length_map]

theorem obtain_returned (moved_from : V → V) (r : Reader) (v : V) :
  (r.obtain v).returned moved_from = some v ↔ (r.p_value = true → moved_from v = v)
  := by
  cases hr : r.p_value <;> simp [Reader.obtain, Outcome.returned, hr]

/-- An open channel honours what it has handed over, but for what readers have moved. -/
theorem Given.honoured_iff (hs : Given s) (hdelivered : Delivered s) (moved_from : V → V) :
  Honoured moved_from s ↔ Unmoved moved_from s
  := by
  have hobtained : ∀ r v o, (r, v) ∈ s.handed → s.outcome (.reader r) = some o →
      o = r.obtain v := by
    intro r v o hmem ho
    obtain ⟨v', rfl, hmem'⟩ := hdelivered.obtained r o ho
    rw [hs.eq_of_handed hmem' hmem]
  constructor
  · intro hhonoured r v hmem houtcome
    obtain ⟨o, ho⟩ := Option.ne_none_iff_exists'.mp houtcome
    obtain rfl := hobtained r v o hmem ho
    apply (obtain_returned moved_from r v).mp (hhonoured.readers r v _ hmem ho)
  · intro hunmoved
    constructor
    · intro r v o hmem ho
      obtain rfl := hobtained r v o hmem ho
      apply (obtain_returned moved_from r v).mpr
      apply hunmoved r v hmem
      simp [ho]
    · intro w o _ ho
      apply hs.done w.id o ho
    · intro w ho
      have := hs.done w.id _ ho
      contradiction

theorem Served.congr {b : Awaiter} (hb : Served s b) (hhanded : t.handed = s.handed)
    (hwritten : t.written = s.written) :
  Served t b
  := by
  cases hb with
  | @reader r v hmem =>
      apply Served.reader (v := v)
      rw [hhanded]
      apply hmem
  | writer hmem =>
      apply Served.writer
      rw [State.delivered, hhanded, hwritten]
      apply hmem

theorem Served.suspended {b : Awaiter} (hb : Served s b) (hs : Given s) :
  s.suspended b = true
  := by
  cases hb with
  | @reader r v hmem =>
      apply hs.readers_suspended
      apply List.mem_append_left
      apply List.mem_map.mpr ⟨(r, v), hmem, rfl⟩
  | writer hmem => apply hs.writers_suspended _ (List.mem_of_mem_take hmem)

/-- An awaiter that has been served is not parked. -/
theorem Served.not_waiting {b : Awaiter} (hb : Served s b) (hs : Given s)
    (horderly : Orderly capacity s) (hv : (values s).Conserved) :
  b ∉ s.waiting
  := by
  cases hb with
  | reader hmem => apply hs.not_waiting hmem
  | @writer w hmem =>
      obtain ⟨placed, hplaced, hlength⟩ := horderly.exists_placed hv
      have hw : w ∈ placed := by
        rw [State.delivered, ← hplaced, List.take_append_of_le_length (by omega)] at hmem
        apply List.mem_of_mem_take hmem
      have hdisjoint := hs.writers
      rw [← hplaced, List.map_append] at hdisjoint
      have hnot : w.id ∉ s.writer_list.map Writer.id := by
        apply List.disjoint_of_nodup_append hdisjoint
        apply List.mem_map.mpr ⟨w, hw, rfl⟩
      simpa [State.waiting] using hnot

/-- An awaiter that has been served has been resumed, or a thread is about to resume it. -/
theorem Served.resumed_or_due {b : Awaiter} (hb : Served s b) (hs : Given s)
    (horderly : Orderly capacity s) (hv : (values s).Conserved) :
  0 < s.resumes b ∨ b ∈ s.due
  := by
  apply horderly.resumed_or_due (hb.suspended hs) (hb.not_waiting hs horderly hv)

/-! ### After the close -/

/-- A call that a thread has still to make can be made, after those before it. -/
theorem exists_run_call {c : Call V} {k : ℕ} {calls : List (Call V)} (hc : c ∈ calls) :
  ∀ s : State V, s.threads[k]? = some calls →
    ∃ bs t, Run (step capacity) (Meets Intact) s bs t ∧ 0 < t.resumes c.awaiter ∧
      t.is_active = s.is_active ∧ t.outcome = s.outcome ∧ t.handed = s.handed ∧
      t.written = s.written
  := by
  induction calls with
  | nil => contradiction
  | cons d calls ih =>
      intro s hk
      let u := { s with threads := s.threads.set k calls }.call d
      have hstep : step capacity s (.resume k) = some u := by simp [step, hk, u]
      have hrun : Run (step capacity) (Meets Intact) s [.resume k] u :=
        Run.single hstep trivial
      have hsame : u.is_active = s.is_active ∧ u.outcome = s.outcome ∧ u.handed = s.handed ∧
          u.written = s.written := by
        cases d <;> exact ⟨rfl, rfl, rfl, rfl⟩
      obtain rfl | htail := List.mem_cons.mp hc
      · have hresumed : 0 < u.resumes c.awaiter := by
          cases c <;> simp [u, State.call, Call.awaiter]
        exact ⟨[.resume k], u, hrun, hresumed, hsame⟩
      · have hthreads : u.threads[k]? = some calls := by
          have hlt := (List.getElem?_eq_some_iff.mp hk).1
          cases d <;> simp [u, State.call, hlt]
        obtain ⟨bs, t, hrest, hresumed, hactive, houtcome, hhanded, hwritten⟩ :=
          ih htail u hthreads
        obtain ⟨hactive', houtcome', hhanded', hwritten'⟩ := hsame
        exact ⟨_, t, hrun.trans hrest, hresumed, hactive.trans hactive',
          houtcome.trans houtcome', hhanded.trans hhanded', hwritten.trans hwritten'⟩

/-- In a closed channel an awaiter that is due to be resumed can get the exception. -/
theorem exists_run_closed {b : Awaiter} (hclosed : s.is_active = false)
    (hnone : s.outcome b = none) (hdue : 0 < s.resumes b ∨ b ∈ s.due) :
  ∃ bs t, Run (step capacity) (Meets Intact) s bs t ∧ t.outcome b = some .closed ∧
    t.handed = s.handed ∧ t.written = s.written
  := by
  obtain ⟨bs, t, hrun, hresumed, hactive, houtcome, hhanded, hwritten⟩ :
      ∃ bs t, Run (step capacity) (Meets Intact) s bs t ∧ 0 < t.resumes b ∧
        t.is_active = s.is_active ∧ t.outcome = s.outcome ∧ t.handed = s.handed ∧
        t.written = s.written := by
    obtain hresumed | hmem := hdue
    · exact ⟨[], s, .nil s, hresumed, rfl, rfl, rfl, rfl⟩
    · obtain ⟨c, hc, rfl⟩ := List.mem_map.mp hmem
      obtain ⟨calls, hcalls, hc⟩ := List.mem_flatten.mp hc
      obtain ⟨k, hk⟩ := List.mem_iff_getElem?.mp hcalls
      apply exists_run_call hc s hk
  have hstep : step capacity t (.await_resume b) =
      some { t with outcome := Function.update t.outcome b (some .closed) } := by
    simp [step, hresumed, houtcome, hnone, State.awaitResume, hactive, hclosed]
  refine ⟨_, _, hrun.snoc hstep trivial, ?_, hhanded, hwritten⟩
  simp

/-- A closed channel whose served awaiters have been through `await_resume`, with what they should
get. -/
structure Kept (moved_from : V → V) (s : State V) : Prop where
  inactive : s.is_active = false
  honoured : Honoured moved_from s
  awaited : Awaited s
  suspended : ∀ b, Served s b → s.suspended b = true

/-- Every step of such a channel leaves the served awaiters what they have got. -/
theorem Kept.step {a : Label V} (hs : Kept moved_from s) (h : step capacity s a = some t) :
  Kept moved_from t
  := by
  have hrefuses := refuses_step hs.inactive h
  have hdelivered : t.delivered = s.delivered := by
    rw [State.delivered, hrefuses.handed, hrefuses.written, State.delivered]
  have hserved : ∀ b, Served t b → Served s b := by
    intro b hb
    apply hb.congr hrefuses.handed.symm hrefuses.written.symm
  have hsame : ∀ b, Served t b → t.outcome b = s.outcome b := by
    intro b hb
    obtain hsame | ⟨-, hnone⟩ := hrefuses.outcome b
    · apply hsame
    · apply absurd (hnone (hs.suspended b (hserved b hb))) (hs.awaited b (hserved b hb))
  constructor
  · apply hrefuses.inactive
  · constructor
    · intro r v o hmem ho
      rw [hsame _ (.reader hmem)] at ho
      rw [hrefuses.handed] at hmem
      apply hs.honoured.readers r v o hmem ho
    · intro w o hmem ho
      rw [hsame _ (.writer hmem)] at ho
      rw [hdelivered] at hmem
      apply hs.honoured.writers w o hmem ho
    · intro w ho hmem
      rw [hsame _ (.writer hmem)] at ho
      rw [hdelivered] at hmem
      apply hs.honoured.undelivered w ho hmem
  · intro b hb
    rw [hsame b hb]
    apply hs.awaited b (hserved b hb)
  · intro b hb
    apply hrefuses.suspended b (hs.suspended b (hserved b hb))

/-- A channel that honours what it has handed over has not refused a served awaiter. -/
theorem Honoured.not_closed {b : Awaiter} (hs : Honoured moved_from s) (hb : Served s b) :
  s.outcome b ≠ some .closed
  := by
  intro hclosed
  cases hb with
  | @reader r v hmem =>
      have := hs.readers r v _ hmem hclosed
      contradiction
  | writer hmem => apply hs.undelivered _ hclosed hmem

/-- An open channel honours what it hands over exactly if no reader that has been through
`await_resume` has moved a value that a move changes.  Once closed it goes on to do so exactly if
every awaiter that was served before has been through `await_resume` by then, too. -/
theorem honoured_iff_awaited_unmoved (moved_from : V → V) {as : List (Label V)}
    (h : Run (step capacity) (Meets Undisturbed) (initial V) as s) :
  s.delivered.map Writer.value = s.handed.map Prod.snd ∧
    (Honoured moved_from s ↔ Unmoved moved_from s) ∧
    ((∀ bs t, Run (step capacity) (Meets Intact) s (.close :: bs) t → Honoured moved_from t) ↔
      Awaited s ∧ Unmoved moved_from s)
  := by
  obtain ⟨-, hv⟩ := orderly_of_undisturbed h
  obtain ⟨horderly, hdelivered, hgiven⟩ := given_of_undisturbed h
  have hiff := hgiven.honoured_iff hdelivered moved_from
  have hclose : step capacity s .close = some { s with is_active := false, closing := true } := by
    simp [step, horderly.active]
  refine ⟨delivered_values hv, hiff, ?_⟩
  constructor
  · intro hall
    constructor
    · intro b hb hnone
      have hdue : 0 < s.resumes b ∨ b ∈ s.due := hb.resumed_or_due hgiven horderly hv
      obtain ⟨bs, t, hrun, hclosed, hhanded, hwritten⟩ :
          ∃ bs t, Run (step capacity) (Meets Intact) { s with is_active := false, closing := true }
            bs t ∧ t.outcome b = some .closed ∧ t.handed = s.handed ∧ t.written = s.written :=
        exists_run_closed rfl hnone hdue
      have ht : Honoured moved_from t := hall bs t ((Run.single hclose trivial).trans hrun)
      apply ht.not_closed (hb.congr hhanded hwritten) hclosed
    · -- closing the channel changes nothing that has ended
      have ht := hall [] _ (Run.single hclose trivial)
      apply hiff.mp
      exact ⟨ht.readers, ht.writers, ht.undelivered⟩
  · rintro ⟨hawaited, hunmoved⟩ bs t hrun
    have hhonoured := hiff.mpr hunmoved
    obtain ⟨u, hstep, -, hrest⟩ := hrun.of_cons
    have hkept : Kept moved_from t := by
      apply hrest.invariant (Kept moved_from)
      · intro s a t hs _ e
        apply hs.step e
      · obtain rfl := Option.some.inj (hclose.symm.trans hstep)
        constructor
        · rfl
        · exact ⟨hhonoured.readers, hhonoured.writers, hhonoured.undelivered⟩
        · intro b hb
          apply hawaited b (hb.congr rfl rfl)
        · intro b hb
          have hb' : Served s b := hb.congr rfl rfl
          apply hb'.suspended hgiven
    apply hkept.honoured

/-- A string passes through a channel of capacity one to a reader with a `p_value`, and only the
writer has been through `await_resume`.  A string that is moved is left empty. -/
theorem honoured_iff_awaited_unmoved_passed :
  ∃ as s, Run (step 1) (Meets Undisturbed) (initial (List ℕ)) as s ∧
    s.handed = [(⟨0, true⟩, [10])] ∧ s.outcome (.writer 0) = some .done ∧
    s.delivered.map Writer.value = s.handed.map Prod.snd ∧
    (Honoured (fun _ => []) s ↔ Unmoved (fun _ => []) s) ∧
    ((∀ bs t, Run (step 1) (Meets Intact) s (.close :: bs) t → Honoured (fun _ => []) t) ↔
      Awaited s ∧ Unmoved (fun _ => []) s)
  := by
  obtain ⟨s, hrun, hhanded, hdone⟩ : ∃ s, Run (step 1) (Meets Undisturbed) (initial (List ℕ))
      [.try_push_writer ⟨0, [10]⟩, .resume 0, .try_push_reader ⟨0, true⟩,
        .await_resume (.writer 0), .resume 1] s ∧ s.handed = [(⟨0, true⟩, [10])] ∧
        s.outcome (.writer 0) = some .done := by
    apply exists_run_of_exec_guarded
    decide
  exact ⟨_, s, hrun, hhanded, hdone, honoured_iff_awaited_unmoved _ hrun⟩

instance (s : State V) : (a : Label V) → Decidable (Intact s a)
  | .try_push_reader _ | .try_push_writer _ | .resume _ | .await_resume _ | .close | .clean_up =>
      .isTrue trivial
  | .remove_reader _ | .remove_writer _ => .isFalse id

/-- A writer hands its value to a parked reader and resumes it.  The channel is closed before the
reader's `await_resume`, which gives the exception, and the value is lost.  And `operator>>` returns
an empty string in a channel that is not closed. -/
theorem not_honoured :
  (¬ ∀ (as bs : List (Label ℕ)) (s t : State ℕ),
    Run (step 0) (Meets Undisturbed) (initial ℕ) as s →
    Run (step 0) (Meets Intact) s (.close :: bs) t → Honoured id t) ∧
  ¬ ∀ (as : List (Label (List ℕ))) (s : State (List ℕ)),
    Run (step 0) (Meets Undisturbed) (initial (List ℕ)) as s → Honoured (fun _ => []) s
  := by
  constructor
  · intro hall
    let s := (((initial ℕ).parkReader 0).handTo ⟨0, 7⟩ 0 []).call (.reader 0 7)
    have hrun : Run (step 0) (Meets Undisturbed) (initial ℕ)
        [.try_push_reader 0, .try_push_writer ⟨0, 7⟩, .resume 0]
        { s with threads := [[.writer 0]] } := by
      apply run_of_exec_guarded
      rfl
    obtain ⟨t, hclose, hhanded, hclosed⟩ : ∃ t, Run (step 0) (Meets Intact)
        { s with threads := [[.writer 0]] } [.close, .clean_up, .await_resume (.reader 0)] t ∧
        (0, 7) ∈ t.handed ∧ t.outcome (.reader 0) = some .closed := by
      apply exists_run_of_exec_guarded
      decide
    apply (hall _ _ _ t hrun hclose).not_closed (.reader hhanded) hclosed
  · intro hall
    obtain ⟨s, hrun, hhanded, hassigned⟩ : ∃ s, Run (step 0) (Meets Undisturbed)
        (initial (List ℕ)) [.try_push_reader ⟨0, true⟩, .try_push_writer ⟨0, [7]⟩, .resume 0,
          .await_resume (.reader ⟨0, true⟩)] s ∧
        (⟨0, true⟩, [7]) ∈ s.handed ∧
        s.outcome (.reader ⟨0, true⟩) = some (.assigned [7]) := by
      apply exists_run_of_exec_guarded
      decide
    have hreturned := (hall _ s hrun).readers _ _ _ hhanded hassigned
    simp [Outcome.returned] at hreturned

end Koroutine.Channel
