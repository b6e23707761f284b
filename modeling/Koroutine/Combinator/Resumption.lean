import Koroutine.Combinator.WhenAllHandshake
import Koroutine.Combinator.WhenAnyHandshake

/-!
# How often `when_all` and `when_any` resume their coroutine

A coroutine that awaits `when_all` or `when_any` is never forgotten.  It is put on the scheduler
twice when the section of the completing wrapper, from the completion to the reading of the
continuation, overlaps with the section of `await_suspend`, from the storing of the continuation
to the second look at the completion; otherwise once.
-/

open Transition

namespace Koroutine

variable {V E : Type*} {n : ℕ}

/-- The coroutine is put on the scheduler at most once, not at all while `await_suspend` has not
been called, and exactly once when all steps of the completion and of `await_suspend` are made. -/
structure ScheduledOnce (dispatched : ℕ) (sus : Suspend) (settled : Prop) : Prop where
  le : dispatched ≤ 1
  uncalled : sus = .uncalled → dispatched = 0
  settled : settled → dispatched = 1

namespace WhenAll

variable {ov : Overload} {outcomes : Fin n → Except E V} {t : State V E n} {as : List (Label n)}

theorem scheduled_once
    (h : Run (step ov outcomes) (Meets (Apart ov outcomes)) (initial V E n) as t) :
  ScheduledOnce t.dispatched t.suspend (Settled t)
  := by
  have honce := (tracks ov outcomes).once h Valid.initial kept_initial
  constructor
  · apply honce.le
  · intro huncalled
    apply honce.unregistered
    simp [handshake, registration, huncalled, Suspend.registered]
  · intro hsettled
    apply honce.settled
    apply hsettled.handshake (Valid.run h)

theorem scheduled_once_iff
    (h : Run (step ov outcomes) Free (initial V E n) as t) (hsettled : Settled t) :
  t.dispatched = 1 ↔ Run (step ov outcomes) (Meets (Apart ov outcomes)) (initial V E n) as t
  := (tracks ov outcomes).settled_iff h Valid.initial kept_initial
      (hsettled.handshake (Valid.run h))

end WhenAll

namespace WhenAny

variable {ov : Overload} {outcomes : Fin n → Except E V} {t : State V E n} {as : List (Label n)}

theorem scheduled_once (hn : 0 < n)
    (h : Run (step ov outcomes) (Meets Apart) (initial V E n) as t) :
  ScheduledOnce t.dispatched t.suspend (Settled t)
  := by
  have honce := (tracks ov outcomes hn).once h Valid.initial kept_initial
  constructor
  · apply honce.le
  · intro huncalled
    apply honce.unregistered
    simp [handshake, registration, huncalled, Suspend.registered]
  · intro hsettled
    apply honce.settled
    apply hsettled.handshake hn (Valid.run h)

theorem scheduled_once_iff (hn : 0 < n)
    (h : Run (step ov outcomes) Free (initial V E n) as t) (hsettled : Settled t) :
  t.dispatched = 1 ↔ Run (step ov outcomes) (Meets Apart) (initial V E n) as t
  := (tracks ov outcomes hn).settled_iff h Valid.initial kept_initial
      (hsettled.handshake hn (Valid.run h))

/-- With an empty list of tasks the coroutine throws before it creates anything. -/
theorem scheduled_never (hov : ov ≠ .variadic) {outcomes : Fin 0 → Except E V}
    {t : State V E 0} {as : List (Label 0)}
    (h : Run (step ov outcomes) Free (initial V E 0) as t) :
  t.suspend = .uncalled ∧ t.dispatched = 0
  := by
  have hinv : (t.body = .entering ∨ t.body = .leaving ∨ t.body = .left) ∧
      t.suspend = .uncalled ∧ t.dispatched = 0 := by
    apply h.invariant (fun s => (s.body = .entering ∨ s.body = .leaving ∨ s.body = .left) ∧
      s.suspend = .uncalled ∧ s.dispatched = 0)
    · rintro s a u ⟨hbody, hsus, hd⟩ - e
      cases a with
      | body =>
          obtain hb | hb | hb := hbody
          · obtain rfl := by simpa [step, bodyStep, hb, hov] using e
            simp [hsus, hd]
          · obtain rfl := by simpa [step, bodyStep, hb] using e
            simp [State.goes, hsus, hd]
          · simp [step, bodyStep, hb] at e
      | suspend => simp [step, suspendStep, hsus] at e
      | resume => obtain hb | hb | hb := hbody <;> simp [step, hb] at e
      | wrapper i => apply i.elim0
    · simp [initial]
  exact hinv.2

end WhenAny

/-- A run of `when_all`, and one of `when_any`, in which the completing wrapper's section and that
of `await_suspend` do not overlap, puts the awaiting coroutine on the scheduler once if it is
suspended and not at all otherwise.  In a run that has made all its steps it does so only if they
do not overlap. -/
theorem scheduled_once_iff_apart {lov : Overload} {yov : WhenAny.Overload}
    {outcomes : Fin n → Except E V} {s : WhenAll.State V E n} {t : WhenAny.State V E n}
    {as : List (WhenAll.Label n)} {bs : List (WhenAny.Label n)}
    (hn : 0 < n ∨ yov ≠ .variadic)
    (hall : Run (WhenAll.step lov outcomes) Free (WhenAll.initial V E n) as s)
    (hany : Run (WhenAny.step yov outcomes) Free (WhenAny.initial V E n) bs t) :
  (Run (WhenAll.step lov outcomes) (Meets (WhenAll.Apart lov outcomes))
      (WhenAll.initial V E n) as s →
    ScheduledOnce s.dispatched s.suspend (WhenAll.Settled s)) ∧
  (WhenAll.Settled s →
    (s.dispatched = 1 ↔ Run (WhenAll.step lov outcomes) (Meets (WhenAll.Apart lov outcomes))
      (WhenAll.initial V E n) as s)) ∧
  (Run (WhenAny.step yov outcomes) (Meets WhenAny.Apart) (WhenAny.initial V E n) bs t →
    ScheduledOnce t.dispatched t.suspend (WhenAny.Settled t)) ∧
  (WhenAny.Settled t →
    (t.dispatched = 1 ↔ Run (WhenAny.step yov outcomes) (Meets WhenAny.Apart)
      (WhenAny.initial V E n) bs t))
  := by
  refine ⟨WhenAll.scheduled_once, WhenAll.scheduled_once_iff hall, ?_, ?_⟩
  · intro hmeets
    by_cases hpos : 0 < n
    · apply WhenAny.scheduled_once hpos hmeets
    · obtain rfl : n = 0 := Nat.eq_zero_of_not_pos hpos
      obtain ⟨hsus, hd⟩ := WhenAny.scheduled_never (hn.resolve_left hpos) hany
      constructor
      · omega
      · intro _
        apply hd
      · intro hsettled
        have hret := hsettled.2
        rw [hsus] at hret
        contradiction
  · intro hsettled
    by_cases hpos : 0 < n
    · apply WhenAny.scheduled_once_iff hpos hany hsettled
    · obtain rfl : n = 0 := Nat.eq_zero_of_not_pos hpos
      have hret := hsettled.2
      rw [(WhenAny.scheduled_never (hn.resolve_left hpos) hany).1] at hret
      contradiction

/-! ### Runs -/

namespace WhenAll

instance (s : State V E n) : Decidable (Settled s) :=
  inferInstanceAs (Decidable (_ ∧ _))

instance (ov : Overload) (outcomes : Fin n → Except E V) (s : State V E n) (a : Label n) :
    Decidable (Apart ov outcomes s a) :=
  inferInstanceAs (Decidable (_ ∧ _))

end WhenAll

namespace WhenAny

instance (s : State V E n) : Decidable (Settled s) :=
  inferInstanceAs (Decidable (_ ∧ _))

instance (s : State V E n) (a : Label n) : Decidable (Apart s a) :=
  inferInstanceAs (Decidable (_ ∧ _))

end WhenAny

/-- Two tasks, of which the second fails. -/
def twoTasks : Fin 2 → Except String ℕ := ![.ok 7, .error "refused"]

/-- With both tasks completed after `await_suspend` has returned, the coroutine is scheduled
once. -/
theorem scheduled_once_twoTasks :
  (∃ as s, Run (WhenAll.step .variadic twoTasks) Free (WhenAll.initial ℕ String 2) as s ∧
    WhenAll.Settled s ∧ s.dispatched = 1) ∧
  ∃ bs t, Run (WhenAny.step .vector twoTasks) Free (WhenAny.initial ℕ String 2) bs t ∧
    WhenAny.Settled t ∧ t.dispatched = 1
  := by
  obtain ⟨s, hall, hs⟩ : ∃ s, Run (WhenAll.step .variadic twoTasks)
      (Meets (WhenAll.Apart .variadic twoTasks)) (WhenAll.initial ℕ String 2)
      (List.flatten [List.replicate 8 .body, List.replicate 2 .suspend,
        List.replicate 7 (.wrapper 1), List.replicate 8 (.wrapper 0)]) s ∧ WhenAll.Settled s := by
    apply exists_run_of_exec_guarded
    decide
  obtain ⟨t, hany, ht⟩ : ∃ t, Run (WhenAny.step .vector twoTasks)
      (Meets WhenAny.Apart) (WhenAny.initial ℕ String 2)
      (List.flatten [List.replicate 5 .body, List.replicate 2 .suspend,
        List.replicate 6 (.wrapper 0), List.replicate 2 (.wrapper 1)]) t ∧ WhenAny.Settled t := by
    apply exists_run_of_exec_guarded
    decide
  obtain ⟨-, hone, -, hone'⟩ := scheduled_once_iff_apart (.inl (by decide)) hall.free hany.free
  exact ⟨⟨_, s, hall.free, hs, (hone hs).mpr hall⟩, ⟨_, t, hany.free, ht, (hone' ht).mpr hany⟩⟩

/-- With one task, completed between the storing of the continuation and the second look, the
coroutine is scheduled twice, by `when_all` and by `when_any`. -/
theorem scheduled_twice_one :
  (∃ as s, Run (WhenAll.step .variadic fun _ : Fin 1 => (.ok 7 : Except String ℕ)) Free
    (WhenAll.initial ℕ String 1) as s ∧ s.dispatched = 2) ∧
  ∃ bs t, Run (WhenAny.step .vector fun _ : Fin 1 => (.ok 7 : Except String ℕ)) Free
    (WhenAny.initial ℕ String 1) bs t ∧ t.dispatched = 2
  := by
  constructor
  · use List.flatten [List.replicate 6 .body, [.suspend], List.replicate 8 (.wrapper 0),
      List.replicate 2 .suspend]
    apply exists_run_of_exec
    decide
  · use List.flatten [List.replicate 4 .body, [.suspend], List.replicate 6 (.wrapper 0),
      List.replicate 2 .suspend]
    apply exists_run_of_exec
    decide

end Koroutine
