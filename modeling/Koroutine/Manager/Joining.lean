import Koroutine.Manager.Effect
import Koroutine.Transition.Run

/-!
# Waiting for a group

No clean-up drops a task that is not done (`Kept.step`), so that `join_group`, which returns when it
has found no unfinished task in the group, returns after every task is done that was in the group
when it was called (`joins_all`).
-/

open Transition

namespace Koroutine.Manager

open AwaitTransform

variable {ι β χ V E : Type*}

/-- The manager has taken the task into the group. -/
def Accepted (as : List (Label ι χ V E)) (s : State ι β V E) (name : String) (i : ι) : Prop :=
  .submit name i ∈ as ∧ s.stage i ≠ .unsubmitted

/-- Every task that has been submitted to a group, and is not done, is in `groups_` under the name
of the group, unless `submit_to_group` found the manager shut down. -/
structure Kept (as : List (Label ι χ V E)) (s : State ι β V E) : Prop where
  refused : ∀ name i, .submit name i ∈ as → s.stage i = .unsubmitted → s.is_shutdown = true
  submitted : ∀ i, s.stage i ≠ .unsubmitted → ∃ name, .submit name i ∈ as
  entries : ∀ name i, Accepted as s name i → s.stage i = .done ∨ (name, i) ∈ s.entries

variable {P : Bodies ι β χ V E} {s t : State ι β V E} {as bs cs : List (Label ι χ V E)}
  {a : Label ι χ V E}

theorem Kept.initial :
  Kept (β := β) ([] : List (Label ι χ V E)) Manager.initial
  where
  refused _ _ h := by simp at h
  submitted _ h := by simp [Manager.initial] at h
  entries _ _ h := by simp [Accepted] at h

variable [DecidableEq ι]

theorem Kept.step (hs : Kept as s) (h : Effect s a t) :
  Kept (as ++ [a]) t
  := by
  constructor
  · intro name i hsubmit hfresh
    have hfresh' : s.stage i = .unsubmitted := by
      by_contra hsubmitted
      apply h.submitted_mono hsubmitted hfresh
    obtain hbefore | hnow := List.mem_append.mp hsubmit
    · apply h.shut_mono (hs.refused name i hbefore hfresh')
    · obtain rfl := List.mem_singleton.mp hnow
      cases h with
      | refuse _ _ hshut => apply hshut
      | accept => simp at hfresh
      | begin begins => contradiction
      | move _ mover => contradiction
  · intro i hsubmitted
    by_cases hfresh : s.stage i = .unsubmitted
    · obtain ⟨-, name, rfl, -⟩ := h.accepts hfresh hsubmitted
      use name
      simp
    · obtain ⟨name, hmem⟩ := hs.submitted i hfresh
      use name
      apply List.mem_append_left _ hmem
  · intro name i ⟨hsubmit, hsubmitted⟩
    by_cases hfresh : s.stage i = .unsubmitted
    · obtain ⟨haccepting, group, rfl, hentry⟩ := h.accepts hfresh hsubmitted
      right
      obtain hbefore | hnow := List.mem_append.mp hsubmit
      · rw [hs.refused name i hbefore hfresh] at haccepting
        contradiction
      · obtain ⟨rfl, -⟩ : name = group ∧ i = i := by simpa using hnow
        apply hentry
    · obtain hbefore | hnow := List.mem_append.mp hsubmit
      · obtain hdone | hentry := hs.entries name i ⟨hbefore, hfresh⟩
        · left
          apply h.done_mono hdone
        · apply (h.entries hentry).imp_left h.done_mono
      · obtain rfl := List.mem_singleton.mp hnow
        cases h with
        | refuse _ hfresh' => contradiction
        | accept _ hfresh' => contradiction
        | begin begins => contradiction
        | move _ mover => contradiction

theorem kept_of_run (h : Run (step P) Free initial as s) :
  Kept as s
  := by
  apply h.invariant_along Kept _ Kept.initial
  intro as s a t hs _ e
  apply hs.step (effect_step e)

/-! ### A call of `join_group` -/

/-- The call joins the group, or has returned and `finished` holds. -/
def Pc.Joins (name : String) (finished : Prop) : Pc ι → Prop
  | .scanning name' | .erasing name' _ | .sleeping name' _ => name' = name
  | .returned => finished
  | .idle | .shuttingDown | .cancelling _ | .cancelLoop _ _ => False

/-- A call does not return before the task is done, which is in the group it joins. -/
structure Awaits (c : ℕ) (name group : String) (i : ι) (s : State ι β V E) : Prop where
  entry : s.stage i = .done ∨ (group, i) ∈ s.entries
  call : (s.call c).Joins name (s.stage i = .done)

theorem Awaits.step {c : ℕ} {name group : String} {i : ι} (hs : Awaits c name group i s)
    (hgroup : inGroup name (group, i) = true) (h : Effect s a t) :
  Awaits c name group i t
  := by
  obtain ⟨hentry, hcall⟩ := hs
  constructor
  · obtain hdone | hmem := hentry
    · left
      apply h.done_mono hdone
    · apply (h.entries hmem).imp_left h.done_mono
  · have hstep := h.call c
    generalize s.call c = pc at hcall hstep
    generalize t.call c = pc' at hstep ⊢
    cases hstep with
    | same =>
        cases pc with
        | returned => apply h.done_mono hcall
        | scanning _ | erasing _ _ | sleeping _ _ => apply hcall
        | idle | shuttingDown | cancelling _ | cancelLoop _ _ => contradiction
    | joined hactive =>
        obtain rfl : _ = name := hcall
        obtain hdone | hmem := hentry
        · apply h.done_mono hdone
        · apply h.done_mono (done_of_active hactive hmem hgroup)
    | scan | erase | wake => apply hcall
    | begin | barred | shut | lock | cancel | unlock => contradiction

/-- No task is dropped before it is done; and when a call of `join_group` returns, every task is
done that was in the group when the call was made. -/
theorem joins_all (h : Run (step P) Free initial bs s) :
  (∀ name i, Accepted bs s name i → s.stage i ≠ .done → (name, i) ∈ s.entries) ∧
    ∀ c name cs t, Run (step P) Free s (.joinGroup c name :: cs) t → t.call c = .returned →
      ∀ group i, name = "" ∨ group = name → Accepted bs s group i → t.stage i = .done
  := by
  have hkept := kept_of_run h
  constructor
  · intro name i haccepted hunfinished
    apply (hkept.entries name i haccepted).resolve_left hunfinished
  · intro c name cs t hrun hreturned group i hname haccepted
    have hgroup : inGroup name (group, i) = true := by
      simpa [inGroup] using hname
    obtain ⟨u, hbegin, -, hrest⟩ := hrun.of_cons
    have hu : Awaits c name group i u := by
      have heffect := effect_step hbegin
      constructor
      · obtain hdone | hmem := hkept.entries group i haccepted
        · left
          apply heffect.done_mono hdone
        · apply (heffect.entries hmem).imp_left heffect.done_mono
      · rw [(heffect.call_of_begins rfl).2]
        rfl
    have ht : Awaits c name group i t := by
      apply hrest.invariant (Awaits c name group i) _ hu
      intro s a t hs _ e
      apply hs.step hgroup (effect_step e)
    have hcall := ht.call
    rw [hreturned] at hcall
    apply hcall

/-- Tasks that end at once. -/
def short : Bodies Bool Unit Unit Unit Unit where
  start _ := ()
  reach _ _ := .coReturn ()
  cancelled := ()

/-- `JoinEmptyGroupWaitsForAll` -/
theorem joins_all_two :
  ∃ s t, Run (step short) Free initial [.submit "g1" true, .submit "g2" false] s ∧
    Run (step short) Free s
      [.joinGroup 0 "", .go 0, .start true, .reach true (), .go 0, .go 0, .go 0, .start false,
        .go 0, .reach false (), .go 0, .go 0] t ∧
    t.call 0 = .returned ∧ t.stage true = .done ∧ t.stage false = .done
  := by
  obtain ⟨s, t, hsubmitted, hjoined, hreturned, haccepted⟩ : ∃ s t,
      Run (step short) Free initial [.submit "g1" true, .submit "g2" false] s ∧
      Run (step short) Free s
        [.joinGroup 0 "", .go 0, .start true, .reach true (), .go 0, .go 0, .go 0, .start false,
          .go 0, .reach false (), .go 0, .go 0] t ∧
      t.call 0 = .returned ∧ ∀ i, s.stage i = .scheduled := by
    refine ⟨_, _, run_of_exec rfl, run_of_exec rfl, rfl, ?_⟩
    intro i
    cases i <;> rfl
  have hdone := (joins_all hsubmitted).2 0 "" _ t hjoined hreturned
  refine ⟨s, t, hsubmitted, hjoined, hreturned, ?_, ?_⟩
  · apply hdone "g1" true (.inl rfl)
    simp [Accepted, haccepted]
  · apply hdone "g2" false (.inl rfl)
    simp [Accepted, haccepted]

end Koroutine.Manager
