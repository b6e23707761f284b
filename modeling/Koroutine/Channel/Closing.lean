import Koroutine.Channel.Bounds

/-!
# Reading and writing after `close`

A closed channel refuses every read and every write, also while its buffer is not empty.  The values
that are buffered when the channel is closed are never read, and `clean_up` discards them.
-/

open Transition

namespace Koroutine.Channel

variable {V : Type*} {capacity : ℕ} {s t : State V}

/-- What a step of a closed channel does: it hands nothing over, refuses an awaiter that suspends,
and ends a `co_await` only with the exception. -/
structure Refuses (s : State V) (a : Label V) (t : State V) : Prop where
  inactive : t.is_active = false
  handed : t.handed = s.handed
  written : t.written = s.written
  suspended : ∀ b, s.suspended b = true → t.suspended b = true
  refused : ∀ b, a.suspends = some b → t.outcome b = some .closed
  outcome : ∀ b, t.outcome b = s.outcome b ∨
    t.outcome b = some .closed ∧ (s.suspended b = true → s.outcome b = none)

/-- A step that leaves the outcomes as they are. -/
theorem Refuses.of_same {a : Label V} (hclosed : t.is_active = false)
    (hhanded : t.handed = s.handed)
    (hwritten : t.written = s.written) (hsuspended : t.suspended = s.suspended)
    (ha : a.suspends = none) (houtcome : t.outcome = s.outcome) :
  Refuses s a t
  := by
  constructor
  · apply hclosed
  · apply hhanded
  · apply hwritten
  · intro b hb
    rw [hsuspended, hb]
  · intro b hb
    rw [ha] at hb
    contradiction
  · intro b
    left
    rw [houtcome]

/-- An awaiter that suspends is refused. -/
theorem Refuses.refuse {a : Label V} {b : Awaiter} (hclosed : s.is_active = false)
    (hnew : s.suspended b = false) (ha : a.suspends = some b) :
  Refuses s a (s.refuse b)
  := by
  constructor
  · apply hclosed
  · rfl
  · rfl
  · intro c hc
    by_cases hcb : c = b
    · simp [State.refuse, hcb]
    · simpa [State.refuse, hcb] using hc
  · intro c hc
    obtain rfl : b = c := by simpa [ha] using hc
    simp [State.refuse]
  · intro c
    by_cases hcb : c = b
    · subst hcb
      right
      simp [State.refuse, hnew]
    · left
      simp [State.refuse, hcb]

/-- Every step of a closed channel refuses. -/
theorem refuses_step {a : Label V} (hclosed : s.is_active = false)
    (h : step capacity s a = some t) :
  Refuses s a t
  := by
  cases closedEffect_step hclosed h with
  | refuse ha hnew => apply Refuses.refuse hclosed hnew ha
  | @resume k c calls hk => cases c <;> exact Refuses.of_same hclosed rfl rfl rfl rfl rfl
  | @awaitResume b hresumed hnone =>
      constructor
      · apply hclosed
      · rfl
      · rfl
      · intro c hc
        apply hc
      · intro c hc
        contradiction
      · intro c
        by_cases hcb : c = b
        · subst hcb
          right
          simp [hnone]
        · left
          simp [hcb]
  | cleanUp hclosing =>
      obtain ⟨resumes, heq⟩ := exists_cleanUp s
      rw [heq]
      exact Refuses.of_same hclosed rfl rfl rfl rfl rfl
  | removeReader r | removeWriter w => exact Refuses.of_same hclosed rfl rfl rfl rfl rfl

/-- In a closed channel every awaiter that suspends is refused. -/
theorem refused_of_mem {P : State V → Label V → State V → Prop} {as : List (Label V)}
    {a : Label V} {b : Awaiter} (h : Run (step capacity) P s as t) (hclosed : s.is_active = false)
    (hmem : a ∈ as) (ha : a.suspends = some b) :
  t.outcome b = some .closed
  := by
  have hboth : t.is_active = false ∧ t.outcome b = some .closed := by
    apply h.of_mem (I := fun s => s.is_active = false) _ _ _ hclosed hmem
    · intro s a t hs _ e
      apply (refuses_step hs e).inactive
    · intro s t hs e
      have hrefuses := refuses_step hs e
      exact ⟨hrefuses.inactive, hrefuses.refused b ha⟩
    · intro s a t hs e
      have hrefuses := refuses_step hs.1 e
      use hrefuses.inactive
      obtain hsame | ⟨hrefused, -⟩ := hrefuses.outcome b
      · rw [hsame, hs.2]
      · apply hrefused
  exact hboth.2

/-! ### What is read after the close -/

/-- The reads among the steps, in the order in which they take the lock. -/
def readsOf (as : List (Label V)) : List Reader :=
  as.filterMap fun
    | .try_push_reader r => some r
    | _ => none

/-- How the `k`-th read after the close should end, where `buffer` was buffered. -/
def drained (buffer : List V) (k : ℕ) (r : Reader) : Outcome V :=
  match buffer[k]? with
  | some v => r.obtain v
  | none => .closed

/-- After the steps `as` of a closed channel, the reads among them that have ended gave the values
of `buffer`, in order, and then the exception, and every write gave the exception. -/
structure Drains (buffer : List V) (as : List (Label V)) (s : State V) : Prop where
  reads : ∀ k r o, (readsOf as)[k]? = some r → s.outcome (.reader r) = some o →
    o = drained buffer k r
  writes : ∀ w, .try_push_writer w ∈ as → s.outcome (.writer w.id) = some .closed

theorem mem_of_readsOf {as : List (Label V)} {k : ℕ} {r : Reader} (h : (readsOf as)[k]? = some r) :
  .try_push_reader r ∈ as
  := by
  obtain ⟨a, ha, heq⟩ := List.mem_filterMap.mp (List.mem_of_getElem? h)
  cases a with
  | try_push_reader r' =>
      obtain rfl := Option.some.inj heq
      apply ha
  | _ => contradiction

/-- A step leaves it open whether an awaiter has suspended, except for the one that suspends. -/
theorem suspended_step {a : Label V} {b : Awaiter} (h : step capacity s a = some t)
    (hb : a.suspends ≠ some b) :
  t.suspended b = s.suspended b
  := by
  cases a with
  | try_push_reader r =>
      have hne : b ≠ .reader r := by
        rintro rfl
        contradiction
      simp only [step, Option.ite_none_left_eq_some, Option.some.injEq] at h
      obtain ⟨-, rfl⟩ := h
      rw [tryPushReader_suspended, Function.update_of_ne hne]
  | try_push_writer w =>
      have hne : b ≠ .writer w.id := by
        rintro rfl
        contradiction
      simp only [step, Option.ite_none_left_eq_some, Option.some.injEq] at h
      obtain ⟨-, rfl⟩ := h
      rw [tryPushWriter_suspended, Function.update_of_ne hne]
  | resume k =>
      simp only [step] at h
      split at h
      · rename_i c calls hk
        obtain rfl := Option.some.inj h
        cases c <;> rfl
      · contradiction
  | await_resume c | close =>
      simp only [step, Option.ite_none_right_eq_some, Option.some.injEq] at h
      obtain ⟨-, rfl⟩ := h
      rfl
  | clean_up =>
      simp only [step, Option.ite_none_right_eq_some, Option.some.injEq] at h
      obtain ⟨-, rfl⟩ := h
      obtain ⟨resumes, heq⟩ := exists_cleanUp s
      rw [heq]
  | remove_reader r | remove_writer w =>
      obtain rfl := Option.some.inj h
      rfl

/-- In every run there are readers that have not suspended yet. -/
theorem exists_new {P : State V → Label V → State V → Prop} {as : List (Label V)}
    (h : Run (step capacity) P (initial V) as s) :
  ∃ n, ∀ r : Reader, n ≤ r.id → s.suspended (.reader r) = false
  := by
  apply h.invariant (fun s => ∃ n, ∀ r : Reader, n ≤ r.id → s.suspended (.reader r) = false)
  · rintro s a t ⟨n, hn⟩ - e
    cases ha : a.suspends with
    | none =>
        use n
        intro r hr
        rw [suspended_step e (by simp [ha]), hn r hr]
    | some b =>
        cases b with
        | writer w =>
            use n
            intro r hr
            rw [suspended_step e (by simp [ha]), hn r hr]
        | reader r₀ =>
            use max n (r₀.id + 1)
            intro r hr
            have hne : r₀ ≠ r := by
              rintro rfl
              omega
            rw [suspended_step e (by simp [ha, hne]), hn r (by omega)]
  · use 0
    intro r _
    rfl

/-- Closing an open channel and reading it. -/
theorem exists_run_close_read {r : Reader} (hopen : s.is_active = true)
    (hnew : s.suspended (.reader r) = false) :
  ∃ t, Run (step capacity) Free s [.close, .try_push_reader r] t ∧
    t.outcome (.reader r) = some .closed
  := by
  use { s with is_active := false, closing := true }.refuse (.reader r)
  constructor
  · apply run_of_exec
    simp [exec, step, hopen, hnew, tryPushReader]
  · simp [State.refuse]

/-- A channel whose buffer is empty when it is closed drains.  With a value in the buffer it does
not: the next read is refused. -/
theorem drains_iff_buffer_empty {as : List (Label V)}
    (h : Run (step capacity) Free (initial V) as s) (hopen : s.is_active = true) :
  (∀ bs t, Run (step capacity) Free s (.close :: bs) t → Drains s.buffer bs t) ↔ s.buffer = []
  := by
  constructor
  · intro hdrains
    obtain ⟨n, hn⟩ := exists_new h
    let r : Reader := ⟨n, false⟩
    obtain ⟨t, hrun, hrefused⟩ := exists_run_close_read hopen (hn r (Nat.le_refl n))
    have hclosed : Outcome.closed = drained s.buffer 0 r := by
      apply (hdrains _ t hrun).reads 0 r _ rfl hrefused
    cases hbuffer : s.buffer with
    | nil => rfl
    | cons v buffer => simp [drained, hbuffer, Reader.obtain, r] at hclosed
  · intro hempty bs t hrun
    obtain ⟨u, hclose, -, hrest⟩ := hrun.of_cons
    obtain rfl : u = { s with is_active := false, closing := true } := by
      simpa [step, hopen] using hclose.symm
    constructor
    · intro k r o hk ho
      have hrefused := refused_of_mem hrest rfl (mem_of_readsOf hk) rfl
      rw [hrefused, Option.some.injEq] at ho
      simp [← ho, drained, hempty]
    · intro w hw
      apply refused_of_mem hrest rfl hw rfl

/-- A channel of capacity two through which a value has passed, before it is closed. -/
theorem drains_iff_passed :
  ∃ as s, Run (step 2) Free (initial ℕ) as s ∧ s.handed = [(0, 7)] ∧
    ((∀ bs t, Run (step 2) Free s (.close :: bs) t → Drains s.buffer bs t) ↔ s.buffer = [])
  := by
  obtain ⟨s, hrun, hopen, hhanded⟩ : ∃ s, Run (step 2) Free (initial ℕ)
      [.try_push_writer ⟨0, 7⟩, .try_push_reader 0] s ∧ s.is_active = true ∧
      s.handed = [(0, 7)] := by
    apply exists_run_of_exec
    decide
  exact ⟨_, s, hrun, hhanded, drains_iff_buffer_empty hrun hopen⟩

/-- A value is written to a channel of capacity one, the channel is closed and then read: the read
gives the exception, and not the value. -/
theorem not_drains :
  ¬ ∀ (as bs : List (Label ℕ)) (s t : State ℕ),
    Run (step 1) Free (initial ℕ) as s → s.is_active = true →
    Run (step 1) Free s (.close :: bs) t → Drains s.buffer bs t
  := by
  intro hdrains
  let s := (initial ℕ).put ⟨0, 7⟩
  have hrun : Run (step 1) Free (initial ℕ) [.try_push_writer ⟨0, 7⟩] s := by
    apply run_of_exec
    rfl
  obtain ⟨t, hread, hrefused⟩ : ∃ t, Run (step 1) Free s [.close, .clean_up, .try_push_reader 0] t ∧
      t.outcome (.reader 0) = some .closed := by
    apply exists_run_of_exec
    decide
  have hclosed : Outcome.closed = drained s.buffer 0 0 := by
    apply (hdrains _ _ s t hrun rfl hread).reads 0 0 _ rfl hrefused
  contradiction

end Koroutine.Channel
