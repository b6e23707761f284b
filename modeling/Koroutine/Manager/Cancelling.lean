import Koroutine.Manager.Joining
import Koroutine.Manager.Prompt

/-!
# Cancelling a group

`cancel_group` cancels the tokens of the tasks it finds in the group, in one section under `mtx_`,
and then joins the group by its name.  A task that is submitted to the group while the call joins it
is waited for, although nobody has cancelled its token: `isolated_iff_unextended`.
-/

open Transition

namespace Koroutine.Manager

open AwaitTransform

variable {ι β χ V E : Type*}

/-- What a call of `cancel_group` does to its group, and to no other. -/
structure Isolated (c : ℕ) (name : String) (x : List (Label ι χ V E) × State ι β V E) : Prop where
  /-- While it cancels, it is about to cancel or has cancelled every unfinished task of the group. -/
  reaches : ∀ todo, x.2.call c = .cancelLoop name todo → ∀ i, Accepted x.1 x.2 name i →
    x.2.stage i ≠ .done → i ∈ x.2.targets c ∧ (x.2.cancelled i = true ∨ i ∈ todo)
  /-- It cancels the tasks of the group only. -/
  own : ∀ i ∈ x.2.targets c, Accepted x.1 x.2 name i
  /-- Only such calls cancel tokens. -/
  cause : ∀ i, x.2.cancelled i = true → ∃ c', i ∈ x.2.targets c'
  /-- When it has released `mtx_`, it has cancelled them. -/
  cancels : (x.2.call c).joins = true ∨ x.2.call c = .returned → ∀ i ∈ x.2.targets c,
    x.2.cancelled i = true
  /-- It waits only for tasks it has cancelled. -/
  waits : (x.2.call c).joins = true → ∀ i ∈ x.2.active name, i ∈ x.2.targets c

/-- The call keeps to its group. -/
def Isolates (c : ℕ) (name : String) (x : List (Label ι χ V E) × State ι β V E) : Prop :=
  .cancelGroup c name ∈ x.1 → Isolated c name x

/-- The manager takes no task into the group while the call joins it. -/
def Unextended (c : ℕ) (name : String) (x : List (Label ι χ V E) × State ι β V E)
    (a : Label ι χ V E) : Prop :=
  .cancelGroup c name ∈ x.1 → (x.2.call c).joins = true →
    ∀ i, a = .submit name i → x.2.is_shutdown = true

/-! ### The calls that cancel -/

/-- The calls of `cancel_group` hold `mtx_` while they cancel what they have found in the group. -/
structure Locking (x : List (Label ι χ V E) × State ι β V E) : Prop where
  kept : Kept x.1 x.2
  targeted : Targeted x.2
  listed : ∀ name i, (name, i) ∈ x.2.entries → Accepted x.1 x.2 name i
  holds : ∀ c name todo, x.2.call c = .cancelLoop name todo →
    x.2.mtx = some c ∧ x.2.targets c = x.2.tasks name ∧ todo ⊆ x.2.targets c
  cause : ∀ i, x.2.cancelled i = true → ∃ c, i ∈ x.2.targets c

theorem Locking.initial :
  Locking (([], Manager.initial) : List (Label ι χ V E) × State ι β V E)
  where
  kept := Kept.initial
  targeted _ := rfl
  listed _ _ h := by contradiction
  holds _ _ _ h := by contradiction
  cause _ h := by contradiction

variable {P : Bodies ι β χ V E} {s t : State ι β V E} {as : List (Label ι χ V E)}
  {a : Label ι χ V E} {x y : List (Label ι χ V E) × State ι β V E} {c : ℕ} {name : String} {i : ι}

/-- A call that has not begun to cancel has no targets. -/
theorem Targeted.targets_eq_nil (hs : Targeted s) (hcall : s.call c = .cancelling name) :
  s.targets c = []
  := by
  have htargets := hs c
  rw [hcall] at htargets
  apply htargets

theorem mem_tasks :
  i ∈ s.tasks name ↔ ∃ group, (group, i) ∈ s.entries ∧ inGroup name (group, i) = true
  := by
  simp [State.tasks]

variable [DecidableEq ι]

theorem Accepted.step (hs : Accepted as s name i) (h : Effect s a t) :
  Accepted (as ++ [a]) t name i
  := by
  constructor
  · apply List.mem_append_left _ hs.1
  · apply h.submitted_mono hs.2

/-- What a call has found in the group stays its target. -/
theorem Targeted.mem_targets (hs : Targeted s) (h : Effect s a t) (hi : i ∈ s.targets c) :
  i ∈ t.targets c
  := by
  obtain hsame | ⟨name, hcall, -⟩ := h.targets_cases c
  · rw [hsame]
    apply hi
  · rw [hs.targets_eq_nil hcall] at hi
    contradiction

theorem Locking.step (hx : Locking x) (h : logged (step P) x a = some y) :
  Locking y
  := by
  obtain ⟨hlabels, hstep⟩ := logged_eq_some.mp h
  have heffect := effect_step hstep
  constructor
  case kept =>
    rw [hlabels]
    apply hx.kept.step heffect
  case targeted => apply hx.targeted.step hstep
  case listed =>
    intro name i hentry
    rw [hlabels]
    obtain hbefore | ⟨rfl, -, hsubmitted⟩ := heffect.entries_cases hentry
    · apply (hx.listed name i hbefore).step heffect
    · constructor
      · simp
      · apply hsubmitted
  case holds =>
    intro c name todo hcall
    have hcalls := heffect.call c
    rw [hcall] at hcalls
    -- a call that was cancelling held `mtx_` before the step, and no other call has released it
    have hkeep : ∀ todo', x.2.call c = .cancelLoop name todo' →
        y.2.mtx = some c ∧ y.2.targets c = y.2.tasks name ∧ todo' ⊆ y.2.targets c := by
      intro todo' hcall'
      obtain ⟨hmtx, htargets, htodo⟩ := hx.holds c name todo' hcall'
      obtain ⟨hentries, hsame, hheld⟩ := heffect.held (by simp [hmtx])
      rw [State.tasks, hentries, hsame]
      refine ⟨?_, htargets, htodo⟩
      obtain hsame | ⟨c', name', hleaving, hleft⟩ := hheld
      · rw [hsame, hmtx]
      · have hmtx' := (hx.holds c' name' [] hleaving).1
        obtain rfl : c = c' := by simpa [hmtx] using hmtx'
        rw [hcall] at hleft
        contradiction
    generalize hpc : x.2.call c = pc at hcalls
    cases hcalls with
    | same => apply hkeep todo hpc
    | begin begins => cases a <;> simp [Label.begins] at begins
    | lock mtx targets entries =>
        refine ⟨mtx, ?_, ?_⟩
        · rw [targets, State.tasks, State.tasks, entries]
        · rw [targets]
          apply List.Subset.refl
    | cancel name todo' k =>
        obtain ⟨hmtx, htargets, htodo⟩ := hkeep todo' hpc
        refine ⟨hmtx, htargets, ?_⟩
        apply List.Subset.trans (List.eraseIdx_subset ..) htodo
  case cause =>
    intro i hcancelled
    have hcause : ∃ c, i ∈ x.2.targets c := by
      obtain hbefore | ⟨c, name, todo, hcall, hmem⟩ := heffect.cancelled_cases hcancelled
      · apply hx.cause i hbefore
      · use c
        apply (hx.holds c name todo hcall).2.2 hmem
    obtain ⟨c, hc⟩ := hcause
    use c
    apply hx.targeted.mem_targets heffect hc

/-! ### A call of `cancel_group` -/

/-- Where a call of `cancel_group` is. -/
def Pc.Cancels (name : String) : Pc ι → Prop
  | .idle | .shuttingDown => False
  | .cancelling name' | .cancelLoop name' _ | .scanning name' | .erasing name' _
  | .sleeping name' _ => name' = name
  | .returned => True

omit [DecidableEq ι] in
theorem CallEffect.cancels {pc pc' : Pc ι} (h : CallEffect s t a c pc pc')
    (hpc : pc.Cancels name) :
  pc'.Cancels name
  := by
  cases h with
  | begin | barred | shut => contradiction
  | joined => trivial
  | same | lock | cancel | unlock | scan | erase | wake => apply hpc

/-- A call of `cancel_group` in a run that meets the condition. -/
structure Covering (c : ℕ) (name : String) (x : List (Label ι χ V E) × State ι β V E) : Prop where
  call : (x.2.call c).Cancels name
  own : ∀ i ∈ x.2.targets c, Accepted x.1 x.2 name i
  covers : (x.2.call c).joins = true → x.2.tasks name ⊆ x.2.targets c

theorem Covering.step (hx : Covering c name x) (hlocking : Locking x) (hname : name ≠ "")
    (hunextended : (x.2.call c).joins = true → ∀ i, a = .submit name i → x.2.is_shutdown = true)
    (h : logged (step P) x a = some y) :
  Covering c name y
  := by
  obtain ⟨hlabels, hstep⟩ := logged_eq_some.mp h
  have heffect := effect_step hstep
  constructor
  case call => apply (heffect.call c).cancels hx.call
  case own =>
    intro i hi
    rw [hlabels]
    obtain hsame | ⟨name', hcall, hfound⟩ := heffect.targets_cases c
    · rw [hsame] at hi
      apply (hx.own i hi).step heffect
    · have hcancels := hx.call
      rw [hcall] at hcancels
      obtain rfl : name' = name := hcancels
      rw [hfound] at hi
      obtain ⟨group, hentry, hgroup⟩ := mem_tasks.mp hi
      obtain rfl : group = name' := by simpa [inGroup, hname] using hgroup
      apply (hlocking.listed group i hentry).step heffect
  case covers =>
    intro hjoins i hi
    obtain ⟨group, hentry, hgroup⟩ := mem_tasks.mp hi
    obtain rfl : group = name := by simpa [inGroup, hname] using hgroup
    apply hlocking.targeted.mem_targets heffect
    have hcalls := heffect.call c
    generalize hpc : x.2.call c = pc at hcalls
    generalize y.2.call c = pc' at hcalls hjoins
    -- a task in the group was there before the step, or the call was not yet joining
    have hjoining : pc.joins = true → i ∈ x.2.targets c := by
      intro hbefore
      rw [← hpc] at hbefore
      apply hx.covers hbefore
      apply mem_tasks.mpr
      obtain hentry | ⟨rfl, haccepting, -⟩ := heffect.entries_cases hentry
      · exact ⟨group, hentry, hgroup⟩
      · rw [hunextended hbefore i rfl] at haccepting
        contradiction
    cases hcalls with
    | same => apply hjoining hjoins
    | scan | erase | wake => apply hjoining rfl
    | unlock name' =>
        have hcancels := hx.call
        rw [hpc] at hcancels
        obtain rfl : name' = group := hcancels
        obtain ⟨hmtx, htargets, -⟩ := hlocking.holds c name' [] hpc
        obtain ⟨hentries, -⟩ := heffect.held (by simp [hmtx])
        rw [htargets]
        apply mem_tasks.mpr
        rw [hentries] at hentry
        exact ⟨name', hentry, hgroup⟩
    | begin =>
        have hcancels := hx.call
        rw [hpc] at hcancels
        contradiction
    | barred | shut | lock | cancel | joined => contradiction

/-- What holds of a run that meets the condition. -/
structure Keeping (c : ℕ) (name : String) (x : List (Label ι χ V E) × State ι β V E) : Prop where
  locking : Locking x
  covering : .cancelGroup c name ∈ x.1 → Covering c name x

theorem Keeping.step (hx : Keeping c name x) (hname : name ≠ "")
    (hunextended : Unextended c name x a) (h : logged (step P) x a = some y) :
  Keeping c name y
  := by
  have hlocking := hx.locking.step h
  obtain ⟨hlabels, hstep⟩ := logged_eq_some.mp h
  constructor
  · apply hlocking
  · intro hcalled
    rw [hlabels] at hcalled
    obtain hbefore | hnow := List.mem_append.mp hcalled
    · apply (hx.covering hbefore).step hx.locking hname (hunextended hbefore) h
    · obtain rfl := List.mem_singleton.mp hnow
      have hcall := ((effect_step hstep).call_of_begins rfl).2
      constructor
      · rw [hcall]
        rfl
      · rw [hlocking.targeted.targets_eq_nil hcall]
        simp
      · rw [hcall]
        intro hjoins
        contradiction

omit [DecidableEq ι] in
theorem Keeping.isolates (hx : Keeping c name x) :
  Isolates c name x
  := by
  intro hcalled
  have hcovering := hx.covering hcalled
  have htargets := hx.locking.targeted c
  constructor
  case reaches =>
    intro todo hcall i haccepted hunfinished
    rw [hcall] at htargets
    have hentry := (hx.locking.kept.entries name i haccepted).resolve_left hunfinished
    have hmem : i ∈ x.2.targets c := by
      rw [(hx.locking.holds c name todo hcall).2.1]
      apply mem_tasks.mpr
      exact ⟨name, hentry, by simp [inGroup]⟩
    exact ⟨hmem, htargets i hmem⟩
  case own => apply hcovering.own
  case cause => apply hx.locking.cause
  case cancels =>
    intro hpast
    cases hcall : x.2.call c with
    | idle | shuttingDown | cancelling _ | cancelLoop _ _ =>
        rw [hcall] at hpast
        simp [Pc.joins] at hpast
    | scanning _ | erasing _ _ | sleeping _ _ | returned =>
        rw [hcall] at htargets
        apply htargets
  case waits =>
    intro hjoins i hi
    apply hcovering.covers hjoins
    apply List.mem_of_mem_filter hi

/-- A task that is taken into the group while the call joins it is waited for. -/
theorem not_isolates_of_extended (hx : Keeping c name x) (hextended : ¬ Unextended c name x a)
    (h : logged (step P) x a = some y) :
  ¬ Isolates c name y
  := by
  obtain ⟨hlabels, hstep⟩ := logged_eq_some.mp h
  simp only [Unextended, not_forall] at hextended
  obtain ⟨hcalled, hjoins, i, rfl, haccepting⟩ := hextended
  generalize hy : y.2 = t at hstep
  cases effect_step hstep with
  | begin begins => contradiction
  | move _ mover => contradiction
  | refuse _ _ hshut => contradiction
  | accept _ hfresh _ =>
      intro hisolates
      have hwaits := (hisolates (hlabels ▸ List.mem_append_left _ hcalled)).waits
      rw [hy] at hwaits
      have hmem : i ∈ x.2.targets c := by
        apply hwaits hjoins i
        apply List.mem_filter.mpr
        constructor
        · apply mem_tasks.mpr
          refine ⟨name, ?_, by simp [inGroup]⟩
          simp
        · simp [Stage.isDone]
      apply ((hx.covering hcalled).own i hmem).2 hfresh

/-! ### Result -/

/-- A call of `cancel_group` cancels every unfinished task of its group, and no task of another, and
waits only for tasks it has cancelled, if and only if no task is taken into the group while the call
joins it. -/
theorem isolated_iff_unextended (hname : name ≠ "") :
  Run (logged (step P)) (Visits (Isolates c name)) ([], initial) as x ↔
    Run (logged (step P)) (Meets (Unextended c name)) ([], initial) as x
  := by
  apply Run.visits_iff_meets (Keeping c name)
  · intro x a y hx hunextended h
    apply hx.step hname hunextended h
  · intro x hx
    apply hx.isolates
  · intro x a y hx hextended h
    apply not_isolates_of_extended hx hextended h
  · constructor
    · apply Locking.initial
    · intro h
      contradiction

/-- A task of one group is cancelled, a task of another goes on. -/
theorem isolated_iff_unextended_two :
  ∃ x, Run (logged (step short)) (Visits (Isolates 0 "slow")) ([], initial)
      [.submit "slow" true, .submit "fast" false, .cancelGroup 0 "slow", .go 0, .cancel 0 0, .go 0]
      x ∧
    (x.2.call 0).joins = true ∧ x.2.cancelled true = true ∧ x.2.cancelled false = false
  := by
  obtain ⟨x, y, hfirst, hrest, hend⟩ : ∃ x y,
      logged (step short) ([], initial) (.submit "slow" true) = some x ∧
      Run (logged (step short)) Free x
        [.submit "fast" false, .cancelGroup 0 "slow", .go 0, .cancel 0 0, .go 0] y ∧
      (y.2.call 0).joins = true ∧ y.2.cancelled true = true ∧ y.2.cancelled false = false :=
    ⟨_, _, rfl, run_of_exec rfl, rfl, rfl, rfl⟩
  have hbefore : Run (logged (step short)) (Meets (Unextended 0 "slow")) ([], initial)
      [.submit "slow" true] x := by
    apply Run.single hfirst
    intro hcalled
    contradiction
  have hafter := hrest.meets_of_labels (C := Unextended 0 "slow") (by
    intro a ha x _ _ i hsubmit
    subst hsubmit
    simp at ha)
  refine ⟨y, (isolated_iff_unextended (by decide)).mpr ?_, hend⟩
  apply hbefore.trans hafter

/-- A task that is submitted to the group while `cancel_group` joins it is waited for, and its token
is not cancelled. -/
theorem waits_for_extended :
  ¬ ∀ as x, Run (logged (step short)) Free ([], initial) as x → Isolates 0 "g" x
  := by
  intro hisolates
  obtain ⟨x, hrun, hcalled, hjoins, hactive, htargets⟩ : ∃ x,
      Run (logged (step short)) Free ([], initial)
        [.submit "g" true, .cancelGroup 0 "g", .go 0, .cancel 0 0, .go 0, .submit "g" false] x ∧
      .cancelGroup 0 "g" ∈ x.1 ∧ (x.2.call 0).joins = true ∧ false ∈ x.2.active "g" ∧
      x.2.targets 0 = [true] := by
    refine ⟨_, run_of_exec rfl, ?_, rfl, ?_, rfl⟩
    · simp
    · simp [State.active, State.tasks, inGroup, initial, State.goTo, Stage.isDone]
  have hwaits := (hisolates _ x hrun hcalled).waits hjoins false hactive
  rw [htargets] at hwaits
  simp at hwaits

end Koroutine.Manager
