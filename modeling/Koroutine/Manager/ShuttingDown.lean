import Koroutine.Manager.Joining

/-!
# Shutting down

The call of `shutdown` that sets `is_shutdown_` cancels all groups and joins them; a later call
finds the flag set and returns at once.  A run is one in which no call of `shutdown` has returned
while an accepted task is unfinished, precisely if every call that finds the flag set finds all
accepted tasks done (`barrier_iff_findsDone`).  After the flag has been set no task is started or
added to a group.
-/

open Transition

namespace Koroutine.Manager

open AwaitTransform

variable {ι β χ V E : Type*}

/-- Every task the manager has taken is done. -/
def State.AllDone (s : State ι β V E) : Prop :=
  ∀ i, s.stage i ≠ .unsubmitted → s.stage i = .done

/-- When a call of `shutdown` has returned, all accepted tasks are done. -/
def Barrier (x : List (Label ι χ V E) × State ι β V E) : Prop :=
  ∀ c, .shutdown c ∈ x.1 → x.2.call c = .returned → x.2.AllDone

/-- A call of `shutdown` that finds `is_shutdown_` set finds all accepted tasks done. -/
def FindsDone (x : List (Label ι χ V E) × State ι β V E) (a : Label ι χ V E) : Prop :=
  ∀ c, a = .go c → x.2.call c = .shuttingDown → x.2.is_shutdown = true → x.2.AllDone

/-- Where a call of `shutdown` is. -/
def Pc.Shuts (shut : Bool) (finished : Prop) : Pc ι → Prop
  | .idle => False
  | .shuttingDown => True
  | .cancelling name | .cancelLoop name _ | .scanning name | .erasing name _
  | .sleeping name _ => name = "" ∧ shut = true
  | .returned => shut = true ∧ finished

/-- The calls of `shutdown` in a run that meets the condition. -/
structure Shutting (x : List (Label ι χ V E) × State ι β V E) : Prop where
  kept : Kept x.1 x.2
  called : ∀ c, x.2.call c = .shuttingDown → .shutdown c ∈ x.1
  calls : ∀ c, .shutdown c ∈ x.1 → (x.2.call c).Shuts x.2.is_shutdown x.2.AllDone

theorem Shutting.initial :
  Shutting (([], Manager.initial) : List (Label ι χ V E) × State ι β V E)
  where
  kept := Kept.initial
  called _ h := by contradiction
  calls _ h := by contradiction

variable {P : Bodies ι β χ V E} {s t : State ι β V E} {a : Label ι χ V E}

/-- Where no group has unfinished tasks, all accepted tasks are done. -/
theorem Kept.allDone {as : List (Label ι χ V E)} (h : Kept as s) (hactive : s.active "" = []) :
  s.AllDone
  := by
  intro i hsubmitted
  obtain ⟨name, hmem⟩ := h.submitted i hsubmitted
  obtain hdone | hentry := h.entries name i ⟨hmem, hsubmitted⟩
  · apply hdone
  · apply done_of_active hactive hentry rfl

variable [DecidableEq ι]

/-- After `shutdown` no task is taken. -/
theorem Effect.unsubmitted (h : Effect s a t) (hshut : s.is_shutdown = true) {i : ι}
    (hs : s.stage i = .unsubmitted) :
  t.stage i = .unsubmitted
  := by
  by_contra ht
  obtain ⟨haccepting, -⟩ := h.accepts hs ht
  rw [hshut] at haccepting
  contradiction

/-- After `shutdown` nothing is added to a group. -/
theorem Effect.entries_subset (h : Effect s a t) (hshut : s.is_shutdown = true) :
  t.entries ⊆ s.entries
  := by
  cases h with
  | accept _ _ haccepting =>
      rw [hshut] at haccepting
      contradiction
  | erase => apply List.filter_subset_self
  | _ => apply List.Subset.refl

theorem State.AllDone.step (hs : s.AllDone) (hshut : s.is_shutdown = true) (h : Effect s a t) :
  t.AllDone
  := by
  intro i hsubmitted
  apply h.done_mono
  apply hs
  intro hfresh
  apply hsubmitted
  apply h.unsubmitted hshut hfresh

theorem Pc.Shuts.step {c : ℕ} (hs : (s.call c).Shuts s.is_shutdown s.AllDone)
    (h : Effect s a t) (hactive : s.active "" = [] → s.AllDone)
    (hfinds : a = .go c → s.call c = .shuttingDown → s.is_shutdown = true → s.AllDone) :
  (t.call c).Shuts t.is_shutdown t.AllDone
  := by
  have hcall := h.call c
  generalize s.call c = pc at hs hfinds hcall
  generalize t.call c = pc' at hcall ⊢
  cases hcall with
  | same =>
      cases pc with
      | idle | shuttingDown => apply hs
      | cancelling _ | cancelLoop _ _ | scanning _ | erasing _ _ | sleeping _ _ =>
          exact ⟨hs.1, h.shut_mono hs.2⟩
      | returned => exact ⟨h.shut_mono hs.1, hs.2.step hs.1 h⟩
  | begin => contradiction
  | barred hlabel hshut =>
      exact ⟨h.shut_mono hshut, (hfinds hlabel rfl hshut).step hshut h⟩
  | shut hshut => exact ⟨rfl, hshut⟩
  | joined hnone =>
      obtain ⟨rfl, hshut⟩ := hs
      exact ⟨h.shut_mono hshut, (hactive hnone).step hshut h⟩
  | lock | cancel | unlock | scan | erase | wake => exact ⟨hs.1, h.shut_mono hs.2⟩

variable {x y : List (Label ι χ V E) × State ι β V E}

theorem Shutting.step (hx : Shutting x) (hfinds : FindsDone x a)
    (h : logged (step P) x a = some y) :
  Shutting y
  := by
  obtain ⟨hlabels, hstep⟩ := logged_eq_some.mp h
  have heffect := effect_step hstep
  constructor
  · rw [hlabels]
    apply hx.kept.step heffect
  · intro c hc
    rw [hlabels]
    apply List.mem_append.mpr
    have hcall := heffect.call c
    generalize hpc : x.2.call c = pc at hcall
    rw [hc] at hcall
    cases hcall with
    | same =>
        left
        apply hx.called c hpc
    | begin begins =>
        right
        cases a <;> simp_all [Label.begins]
  · intro c hc
    rw [hlabels] at hc
    obtain hbefore | hnow := List.mem_append.mp hc
    · apply (hx.calls c hbefore).step heffect hx.kept.allDone
      apply hfinds
    · obtain rfl := List.mem_singleton.mp hnow
      rw [(heffect.call_of_begins rfl).2]
      trivial

omit [DecidableEq ι] in
theorem Shutting.barrier (hx : Shutting x) :
  Barrier x
  := by
  intro c hc hreturned
  have hcall := hx.calls c hc
  rw [hreturned] at hcall
  apply hcall.2

/-- A call that finds the flag set returns at once. -/
theorem not_barrier_of_barred (hx : Shutting x) (hfinds : ¬ FindsDone x a)
    (h : logged (step P) x a = some y) :
  ¬ Barrier y
  := by
  obtain ⟨hlabels, hstep⟩ := logged_eq_some.mp h
  simp only [FindsDone, not_forall] at hfinds
  obtain ⟨c, rfl, hcall, hshut, hunfinished⟩ := hfinds
  simp only [step, goStep, hcall, hshut, if_true, Option.ite_none_right_eq_some,
    Option.some.injEq] at hstep
  obtain ⟨-, hy⟩ := hstep
  intro hbarrier
  apply hunfinished
  have hdone := hbarrier c
  rw [hlabels, ← hy] at hdone
  apply hdone
  · apply List.mem_append_left _ (hx.called c hcall)
  · simp [State.goTo]

/-! ### Result -/

/-- All accepted tasks are done whenever a call of `shutdown` has returned, if and only if no call
finds `is_shutdown_` set while an accepted task is unfinished; and once the flag is set, no task is
started or added to a group. -/
theorem barrier_iff_findsDone :
  (∀ as x, Run (logged (step P)) (Visits Barrier) ([], initial) as x ↔
    Run (logged (step P)) (Meets FindsDone) ([], initial) as x) ∧
  ∀ s bs t, s.is_shutdown = true → Run (step P) Free s bs t →
    t.entries ⊆ s.entries ∧ ∀ i, s.stage i = .unsubmitted → t.stage i = .unsubmitted
  := by
  constructor
  · intro as x
    apply Run.visits_iff_meets Shutting _ _ _ Shutting.initial
    · intro x a y hx hfinds h
      apply hx.step hfinds h
    · intro x hx
      apply hx.barrier
    · intro x a y hx hfinds h
      apply not_barrier_of_barred hx hfinds h
  · intro s bs t hshut hrun
    have hlocked : t.is_shutdown = true ∧ t.entries ⊆ s.entries ∧
        ∀ i, s.stage i = .unsubmitted → t.stage i = .unsubmitted := by
      apply hrun.invariant (fun t => t.is_shutdown = true ∧ t.entries ⊆ s.entries ∧
        ∀ i, s.stage i = .unsubmitted → t.stage i = .unsubmitted)
      · intro t a u ⟨hshut, hentries, hfresh⟩ _ e
        have heffect := effect_step e
        refine ⟨heffect.shut_mono hshut, ?_, ?_⟩
        · apply List.Subset.trans (heffect.entries_subset hshut) hentries
        · intro i hi
          apply heffect.unsubmitted hshut (hfresh i hi)
      · exact ⟨hshut, List.Subset.refl _, fun i hi => hi⟩
    apply hlocked.2

/-- `SubmitToShutdownManager` -/
theorem barrier_iff_findsDone_shut :
  ∃ s t, Run (step short) Free initial [.shutdown 0, .go 0, .go 0, .go 0, .go 0] s ∧
    s.call 0 = .returned ∧ Run (step short) Free s [.submit "g1" true] t ∧
    t.entries = [] ∧ t.stage true = .unsubmitted
  := by
  obtain ⟨s, t, hshutdown, hreturned, hsubmit, hshut, hentries, hstage⟩ : ∃ s t,
      Run (step short) Free initial [.shutdown 0, .go 0, .go 0, .go 0, .go 0] s ∧
      s.call 0 = .returned ∧ Run (step short) Free s [.submit "g1" true] t ∧
      s.is_shutdown = true ∧ s.entries = [] ∧ s.stage true = .unsubmitted :=
    ⟨_, _, run_of_exec rfl, rfl, run_of_exec rfl, rfl, rfl, rfl⟩
  obtain ⟨hsubset, hfresh⟩ := barrier_iff_findsDone.2 s _ t hshut hsubmit
  refine ⟨s, t, hshutdown, hreturned, hsubmit, ?_, hfresh true hstage⟩
  rw [hentries] at hsubset
  apply List.eq_nil_of_subset_nil hsubset

/-- A second call of `shutdown` returns while the first one waits for a task. -/
theorem unfinished_after_shutdown :
  ¬ ∀ as x, Run (logged (step short)) Free ([], initial) as x → Barrier x
  := by
  intro hbarrier
  obtain ⟨x, hrun, hlabel, hreturned, hstage⟩ : ∃ x,
      Run (logged (step short)) Free ([], initial)
        [.submit "g" true, .shutdown 0, .go 0, .shutdown 1, .go 1] x ∧
      .shutdown 1 ∈ x.1 ∧ x.2.call 1 = .returned ∧ x.2.stage true = .scheduled := by
    refine ⟨_, run_of_exec rfl, ?_, rfl, rfl⟩
    simp
  have hdone := hbarrier _ x hrun 1 hlabel hreturned true
  rw [hstage] at hdone
  simp at hdone

end Koroutine.Manager
