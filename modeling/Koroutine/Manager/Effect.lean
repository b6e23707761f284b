import Koroutine.Manager.Basic

/-!
# What a step of the manager does

`effect_step` names the outcomes of a step, with what each requires of the state.  The steps of a
task are one outcome: they leave the groups and the calls as they are, and the task is neither
unsubmitted nor done before them, and not unsubmitted after.
-/

namespace Koroutine.Manager

open AwaitTransform

variable {ι β χ V E : Type*}

/-- Where a call is at its beginning. -/
def Label.begins : Label ι χ V E → Option (ℕ × Pc ι)
  | .shutdown c => some (c, .shuttingDown)
  | .cancelGroup c name => some (c, .cancelling name)
  | .joinGroup c name => some (c, .scanning name)
  | _ => none

/-- The task that takes the step. -/
def Label.mover : Label ι χ V E → Option ι
  | .start i | .reach i _ | .resume i _ => some i
  | _ => none

/-- The entries of a group whose tasks are done are removed. -/
def State.erase (s : State ι β V E) (name : String) : List (String × ι) :=
  s.entries.filter fun entry => !(inGroup name entry && (s.stage entry.2).isDone)

variable [DecidableEq ι]

/-- The outcomes of a step. -/
inductive Effect (s : State ι β V E) : Label ι χ V E → State ι β V E → Prop
  /-- After `shutdown`, `submit_to_group` does nothing. -/
  | refuse {name : String} {i : ι} (free : s.mtx = none) (fresh : s.stage i = .unsubmitted)
      (shut : s.is_shutdown = true) : Effect s (.submit name i) s
  | accept {name : String} {i : ι} (free : s.mtx = none) (fresh : s.stage i = .unsubmitted)
      (accepting : s.is_shutdown = false) :
      Effect s (.submit name i)
        { s with
          entries := s.entries ++ [(name, i)]
          stage := Function.update s.stage i .scheduled }
  | begin {a : Label ι χ V E} {c : ℕ} {pc : Pc ι} (begins : a.begins = some (c, pc))
      (idle : s.call c = .idle) : Effect s a (s.goTo c pc)
  /-- `shutdown` has been called before. -/
  | barred {c : ℕ} (free : s.mtx = none) (call : s.call c = .shuttingDown)
      (shut : s.is_shutdown = true) : Effect s (.go c) (s.goTo c .returned)
  | shut {c : ℕ} (free : s.mtx = none) (call : s.call c = .shuttingDown)
      (accepting : s.is_shutdown = false) :
      Effect s (.go c) { s.goTo c (.cancelling "") with is_shutdown := true }
  | lock {c : ℕ} {name : String} (free : s.mtx = none) (call : s.call c = .cancelling name) :
      Effect s (.go c)
        { s.goTo c (.cancelLoop name (s.tasks name)) with
          mtx := some c
          targets := Function.update s.targets c (s.tasks name) }
  | cancel {c k : ℕ} {name : String} {todo : List ι} {i : ι}
      (call : s.call c = .cancelLoop name todo) (next : todo[k]? = some i) :
      Effect s (.cancel c k)
        { s.goTo c (.cancelLoop name (todo.eraseIdx k)) with
          cancelled := Function.update s.cancelled i true }
  | unlock {c : ℕ} {name : String} (call : s.call c = .cancelLoop name []) :
      Effect s (.go c) { s.goTo c (.scanning name) with mtx := none }
  | joined {c : ℕ} {name : String} (free : s.mtx = none) (call : s.call c = .scanning name)
      (none_active : s.active name = []) : Effect s (.go c) (s.goTo c .returned)
  | scan {c : ℕ} {name : String} (free : s.mtx = none) (call : s.call c = .scanning name)
      (active : s.active name ≠ []) :
      Effect s (.go c) (s.goTo c (.erasing name (s.active name)))
  | erase {c : ℕ} {name : String} {active : List ι} (free : s.mtx = none)
      (call : s.call c = .erasing name active) :
      Effect s (.go c) { s.goTo c (.sleeping name active) with entries := s.erase name }
  | wake {c : ℕ} {name : String} {active : List ι} (call : s.call c = .sleeping name active) :
      Effect s (.go c) (s.goTo c (.scanning name))
  | move {a : Label ι χ V E} {i : ι} {stage : Stage β V E} (passed : ι → ℕ)
      (mover : a.mover = some i) (submitted : s.stage i ≠ .unsubmitted)
      (unfinished : s.stage i ≠ .done) (stage_ne : stage ≠ .unsubmitted) :
      Effect s a { s.move i stage with passed := passed }

variable {P : Bodies ι β χ V E} {s t : State ι β V E} {a : Label ι χ V E}

theorem effect_begin {c : ℕ} {pc : Pc ι} (begins : a.begins = some (c, pc))
    (h : s.begin c pc = some t) :
  Effect s a t
  := by
  unfold State.begin at h
  split at h
  · rename_i hidle
    obtain rfl := Option.some.inj h
    apply Effect.begin begins hidle
  · contradiction

theorem effect_goStep {c : ℕ} (h : goStep s c = some t) :
  Effect s (.go c : Label ι χ V E) t
  := by
  unfold goStep at h
  cases hcall : s.call c with
  | idle | returned => simp [hcall] at h
  | shuttingDown =>
      simp only [hcall, Option.ite_none_right_eq_some, Option.some.injEq] at h
      obtain ⟨hfree, rfl⟩ := h
      split
      · rename_i hshut
        apply Effect.barred hfree hcall hshut
      · rename_i hshut
        apply Effect.shut hfree hcall (Bool.eq_false_iff.mpr hshut)
  | cancelling name =>
      simp only [hcall, Option.ite_none_right_eq_some, Option.some.injEq] at h
      obtain ⟨hfree, rfl⟩ := h
      apply Effect.lock hfree hcall
  | cancelLoop name todo =>
      cases todo with
      | cons i todo => simp [hcall] at h
      | nil =>
          simp only [hcall, Option.some.injEq] at h
          subst h
          apply Effect.unlock hcall
  | scanning name =>
      simp only [hcall, Option.ite_none_right_eq_some, Option.some.injEq] at h
      obtain ⟨hfree, rfl⟩ := h
      split
      · rename_i hactive
        apply Effect.joined hfree hcall hactive
      · rename_i hactive
        apply Effect.scan hfree hcall hactive
  | erasing name active =>
      simp only [hcall, Option.ite_none_right_eq_some, Option.some.injEq] at h
      obtain ⟨hfree, rfl⟩ := h
      apply Effect.erase hfree hcall
  | sleeping name active =>
      simp only [hcall, Option.some.injEq] at h
      subst h
      apply Effect.wake hcall

/-- Every step has one of the outcomes. -/
theorem effect_step (h : step P s a = some t) :
  Effect s a t
  := by
  cases a with
  | submit name i =>
      simp only [Manager.step] at h
      split at h
      · rename_i hfree hfresh
        obtain rfl := Option.some.inj h
        split
        · rename_i hshut
          apply Effect.refuse hfree hfresh hshut
        · rename_i hshut
          apply Effect.accept hfree hfresh (Bool.eq_false_iff.mpr hshut)
      · contradiction
  | shutdown c => apply effect_begin rfl h
  | cancelGroup c name => apply effect_begin rfl h
  | joinGroup c name => apply effect_begin rfl h
  | go c => apply effect_goStep h
  | cancel c k =>
      simp only [Manager.step] at h
      split at h
      · rename_i hcall
        split at h
        · rename_i hnext
          simp only [Option.ite_none_right_eq_some, Option.some.injEq] at h
          obtain ⟨-, rfl⟩ := h
          apply Effect.cancel hcall hnext
        · contradiction
      · contradiction
  | start i =>
      simp only [Manager.step] at h
      split at h
      · rename_i hstage
        obtain rfl := Option.some.inj h
        apply Effect.move (s := s) s.passed rfl <;> simp [hstage]
      · contradiction
  | resume i r =>
      simp only [Manager.step] at h
      split at h
      · rename_i hstage
        obtain rfl := Option.some.inj h
        apply Effect.move (s := s) s.passed rfl <;> simp [hstage]
      · contradiction
  | reach i x =>
      simp only [Manager.step] at h
      split at h
      · rename_i b hstage
        obtain rfl := Option.some.inj h
        unfold reachStep
        split
        · apply Effect.move (s := s) s.passed rfl <;> simp [hstage]
        · apply Effect.move (s := s) s.passed rfl <;> simp [hstage]
        · split
          · apply Effect.move (s := s) _ rfl <;> simp [hstage]
          · apply Effect.move (s := s) s.passed rfl <;> simp [hstage]
      · contradiction

/-! ### The tasks -/

theorem Stage.eq_done {stage : Stage β V E} (h : stage.isDone = true) :
  stage = .done
  := by
  cases stage with
  | done => rfl
  | unsubmitted | scheduled | running _ | suspended _ => contradiction

namespace Effect

variable {i : ι}

theorem shut_mono (h : Effect s a t) (hs : s.is_shutdown = true) :
  t.is_shutdown = true
  := by
  cases h with
  | shut => rfl
  | _ => exact hs

/-- A task that has been submitted stays so. -/
theorem submitted_mono (h : Effect s a t) (hs : s.stage i ≠ .unsubmitted) :
  t.stage i ≠ .unsubmitted
  := by
  cases h with
  | @accept name j =>
      by_cases hi : i = j
      · simp [hi]
      · simpa [hi] using hs
  | @move a j stage passed _ _ _ hstage =>
      by_cases hi : i = j
      · simpa [State.move, hi] using hstage
      · simpa [State.move, hi] using hs
  | _ => exact hs

/-- A task that is done stays so. -/
theorem done_mono (h : Effect s a t) (hs : s.stage i = .done) :
  t.stage i = .done
  := by
  cases h with
  | @accept name j _ hfresh =>
      have hi : i ≠ j := by
        rintro rfl
        rw [hs] at hfresh
        contradiction
      simpa [hi] using hs
  | @move a j stage passed _ _ hunfinished _ =>
      have hi : i ≠ j := by
        rintro rfl
        contradiction
      simpa [State.move, hi] using hs
  | _ => exact hs

/-- A task leaves the stage `unsubmitted` when the manager takes it into a group, before
`shutdown`. -/
theorem accepts (h : Effect s a t) (hs : s.stage i = .unsubmitted)
    (ht : t.stage i ≠ .unsubmitted) :
  s.is_shutdown = false ∧ ∃ name, a = .submit name i ∧ (name, i) ∈ t.entries
  := by
  cases h with
  | @accept name j _ _ haccepting =>
      obtain rfl : i = j := by
        by_contra hi
        simp [hi, hs] at ht
      refine ⟨haccepting, name, rfl, ?_⟩
      simp
  | @move a j stage passed _ hsubmitted _ _ =>
      have hi : i ≠ j := by
        rintro rfl
        contradiction
      simp [State.move, hi, hs] at ht
  | _ => exact absurd hs ht

/-- Only the entries of tasks that are done are removed. -/
theorem entries (h : Effect s a t) {name : String} (hs : (name, i) ∈ s.entries) :
  s.stage i = .done ∨ (name, i) ∈ t.entries
  := by
  cases h with
  | accept =>
      right
      apply List.mem_append_left _ hs
  | @erase c group active =>
      by_cases hdone : (s.stage i).isDone = true
      · left
        apply Stage.eq_done hdone
      · right
        apply List.mem_filter.mpr
        simp [hs, hdone]
  | _ => exact Or.inr hs

/-- An entry is added for a task that the manager takes. -/
theorem entries_cases (h : Effect s a t) {name : String} (ht : (name, i) ∈ t.entries) :
  (name, i) ∈ s.entries ∨
    a = .submit name i ∧ s.is_shutdown = false ∧ t.stage i ≠ .unsubmitted
  := by
  cases h with
  | @accept group j _ _ haccepting =>
      obtain hbefore | hnow := List.mem_append.mp ht
      · left
        apply hbefore
      · right
        obtain ⟨rfl, rfl⟩ : name = group ∧ i = j := by simpa using hnow
        simp [haccepting]
  | erase =>
      left
      apply (List.mem_filter.mp ht).1
  | _ => exact Or.inl ht

/-- While a call holds `mtx_`, the groups stay as they are, and no other call cancels a group. -/
theorem held (h : Effect s a t) (hmtx : s.mtx ≠ none) :
  t.entries = s.entries ∧ t.targets = s.targets ∧
    (t.mtx = s.mtx ∨ ∃ c name, s.call c = .cancelLoop name [] ∧ t.call c = .scanning name)
  := by
  cases h with
  | refuse free | accept free | barred free | shut free | lock free | joined free | scan free
  | erase free => contradiction
  | begin | cancel | wake | move => simp [State.goTo, State.move]
  | @unlock c name call =>
      refine ⟨rfl, rfl, .inr ⟨c, name, call, ?_⟩⟩
      simp [State.goTo]

/-- A token is cancelled by a call that had it still to cancel. -/
theorem cancelled_cases (h : Effect s a t) (ht : t.cancelled i = true) :
  s.cancelled i = true ∨ ∃ c name todo, s.call c = .cancelLoop name todo ∧ i ∈ todo
  := by
  cases h with
  | @cancel c k name todo j call next =>
      by_cases hi : i = j
      · right
        rw [hi]
        exact ⟨c, name, todo, call, List.mem_of_getElem? next⟩
      · left
        simpa [hi] using ht
  | _ => exact Or.inl ht

/-- The targets of a call are recorded when it begins to cancel. -/
theorem targets_cases (h : Effect s a t) (c : ℕ) :
  t.targets c = s.targets c ∨
    ∃ name, s.call c = .cancelling name ∧ t.targets c = s.tasks name
  := by
  cases h with
  | @lock c' name _ call =>
      by_cases hc : c = c'
      · right
        rw [hc]
        exact ⟨name, call, Function.update_self ..⟩
      · left
        exact Function.update_of_ne hc ..
  | _ => exact Or.inl rfl

end Effect

omit [DecidableEq ι] in
/-- A task of a group without unfinished tasks is done. -/
theorem done_of_active {name group : String} {i : ι} (hactive : s.active name = [])
    (hentry : (group, i) ∈ s.entries) (hgroup : inGroup name (group, i) = true) :
  s.stage i = .done
  := by
  apply Stage.eq_done
  by_contra hunfinished
  have hmem : i ∈ s.active name := by
    simp only [State.active, State.tasks, List.mem_filter, List.mem_map]
    refine ⟨⟨(group, i), ⟨hentry, hgroup⟩, rfl⟩, ?_⟩
    simpa using hunfinished
  rw [hactive] at hmem
  contradiction

/-! ### The calls -/

/-- How a step takes a call from one place to another. -/
inductive CallEffect (s t : State ι β V E) (a : Label ι χ V E) (c : ℕ) : Pc ι → Pc ι → Prop
  | same (pc : Pc ι) : CallEffect s t a c pc pc
  | begin {pc : Pc ι} (begins : a.begins = some (c, pc)) : CallEffect s t a c .idle pc
  | barred (label : a = .go c) (shut : s.is_shutdown = true) :
      CallEffect s t a c .shuttingDown .returned
  | shut (shut : t.is_shutdown = true) : CallEffect s t a c .shuttingDown (.cancelling "")
  | lock {name : String} (mtx : t.mtx = some c) (targets : t.targets c = s.tasks name)
      (entries : t.entries = s.entries) :
      CallEffect s t a c (.cancelling name) (.cancelLoop name (s.tasks name))
  | cancel (name : String) (todo : List ι) (k : ℕ) :
      CallEffect s t a c (.cancelLoop name todo) (.cancelLoop name (todo.eraseIdx k))
  | unlock (name : String) : CallEffect s t a c (.cancelLoop name []) (.scanning name)
  | joined {name : String} (none_active : s.active name = []) :
      CallEffect s t a c (.scanning name) .returned
  | scan (name : String) (active : List ι) :
      CallEffect s t a c (.scanning name) (.erasing name active)
  | erase (name : String) (active : List ι) :
      CallEffect s t a c (.erasing name active) (.sleeping name active)
  | wake (name : String) (active : List ι) :
      CallEffect s t a c (.sleeping name active) (.scanning name)

/-- What a step does to a call. -/
theorem Effect.call (h : Effect s a t) (c : ℕ) :
  CallEffect s t a c (s.call c) (t.call c)
  := by
  have hgo : ∀ {c' : ℕ} {pc pc' : Pc ι}, s.call c' = pc →
      (c = c' → CallEffect s t a c pc pc') →
      CallEffect s t a c (s.call c) ((s.goTo c' pc').call c) := by
    intro c' pc pc' hcall hstep
    by_cases hc : c = c'
    · subst hc
      simpa [State.goTo, hcall] using hstep rfl
    · simpa [State.goTo, hc] using CallEffect.same (s.call c)
  cases h with
  | refuse | accept | move => apply CallEffect.same
  | begin begins idle =>
      apply hgo idle
      rintro rfl
      apply CallEffect.begin begins
  | barred _ call shut => exact hgo call fun hc => .barred (hc ▸ rfl) shut
  | shut _ call => exact hgo call fun _ => .shut rfl
  | lock _ call =>
      apply hgo call
      rintro rfl
      exact .lock rfl (Function.update_self ..) rfl
  | cancel call => exact hgo call fun _ => .cancel ..
  | unlock call => exact hgo call fun _ => .unlock _
  | joined _ call none_active => exact hgo call fun _ => .joined none_active
  | scan _ call => exact hgo call fun _ => .scan ..
  | erase _ call => exact hgo call fun _ => .erase ..
  | wake call => exact hgo call fun _ => .wake ..

/-- A call is made once. -/
theorem Effect.call_of_begins {c : ℕ} {pc : Pc ι} (h : Effect s a t)
    (begins : a.begins = some (c, pc)) :
  s.call c = .idle ∧ t.call c = pc
  := by
  cases h with
  | begin begins' idle =>
      obtain ⟨rfl, rfl⟩ : c = _ ∧ pc = _ := by simpa [begins] using begins'
      constructor
      · apply idle
      · simp [State.goTo]
  | move mover =>
      cases a <;> contradiction
  | refuse | accept | barred | shut | lock | cancel | unlock | joined | scan | erase | wake =>
      contradiction

end Koroutine.Manager
