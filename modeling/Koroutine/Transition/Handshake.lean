import Koroutine.Transition.Run

/-!
# Registering a continuation against a completion flag

One side, the finisher, raises a flag, then reads the continuation, and dispatches it if it
found one.  The other side, the awaiter, asks for the flag and passes if it is raised;
otherwise it stores the continuation, asks once more, and dispatches the continuation itself
if the flag has been raised meanwhile.

    finisher:  complete · read · dispatch
    awaiter:   ask · store · recheck · redispatch

No order of these steps loses the continuation.  It is dispatched twice exactly when the
finisher's section from `complete` to `read` and the awaiter's section from `store` to
`recheck` overlap.  The number of dispatches that have been made or have become inevitable is
`pledged`; no step decreases it, and it jumps to two in the step by which the two sections
begin to overlap.
-/

namespace Transition

namespace Handshake

/-- The stages of the finisher. -/
inductive Finisher
  | pending
  | deciding
  | dispatching
  | finished
  deriving DecidableEq

/-- The stages of the awaiter. -/
inductive Awaiter
  | asking
  | storing
  | stored
  | dispatching
  | suspended
  | passed
  deriving DecidableEq

/-- The continuation has been stored. -/
def Awaiter.registered : Awaiter → Bool
  | .stored | .dispatching | .suspended => true
  | .asking | .storing | .passed => false

/-- The steps of the two sides. -/
inductive Label
  | complete
  | read
  | dispatch
  | ask
  | store
  | recheck
  | redispatch
  deriving DecidableEq

end Handshake

open Handshake in
/-- The finisher, the awaiter, and how often the continuation has been dispatched. -/
structure Handshake where
  finisher : Finisher
  awaiter : Awaiter
  dispatched : ℕ

namespace Handshake

/-- The step function of the two sides. -/
def step (s : Handshake) : Label → Option Handshake
  | .complete => if s.finisher = .pending then some { s with finisher := .deciding } else none
  | .read =>
      if s.finisher = .deciding then
        some { s with finisher := if s.awaiter.registered then .dispatching else .finished }
      else none
  | .dispatch =>
      if s.finisher = .dispatching then
        some { s with finisher := .finished, dispatched := s.dispatched + 1 }
      else none
  | .ask =>
      if s.awaiter = .asking then
        some { s with awaiter := if s.finisher = .pending then .storing else .passed }
      else none
  | .store => if s.awaiter = .storing then some { s with awaiter := .stored } else none
  | .recheck =>
      if s.awaiter = .stored then
        some { s with awaiter := if s.finisher = .pending then .suspended else .dispatching }
      else none
  | .redispatch =>
      if s.awaiter = .dispatching then
        some { s with awaiter := .suspended, dispatched := s.dispatched + 1 }
      else none

/-- The sections do not overlap: the flag is not raised while the awaiter is between `store` and
`recheck`, and the continuation is not stored while the finisher is between `complete` and
`read`. -/
def Apart (s : Handshake) (a : Label) : Prop :=
  (a = .complete → s.awaiter ≠ .stored) ∧ (a = .store → s.finisher ≠ .deciding)

/-- `1` if the finisher is bound to dispatch the continuation. -/
def Finisher.pledge (registered : Bool) : Finisher → ℕ
  | .deciding => if registered then 1 else 0
  | .dispatching => 1
  | .pending | .finished => 0

/-- `1` if the awaiter is bound to dispatch the continuation. -/
def Awaiter.pledge (f : Finisher) : Awaiter → ℕ
  | .stored => if f = .pending then 0 else 1
  | .dispatching => 1
  | .asking | .storing | .suspended | .passed => 0

/-- The dispatches that have been made or have become inevitable. -/
def pledged (s : Handshake) : ℕ :=
  s.dispatched + s.finisher.pledge s.awaiter.registered + s.awaiter.pledge s.finisher

/-- What holds while the sections have not overlapped: nothing is pledged before the flag is
raised and the continuation stored, one dispatch is after that. -/
structure Kept (s : Handshake) : Prop where
  pending : s.finisher = .pending → s.pledged = 0
  unregistered : s.awaiter.registered = false → s.pledged = 0
  both : s.finisher ≠ .pending → s.awaiter.registered = true → s.pledged = 1

/-- What holds once they have overlapped. -/
def Doomed (s : Handshake) : Prop :=
  2 ≤ s.pledged

/-- What should hold does before the awaiter has asked for the flag. -/
theorem Kept.of_asking {s : Handshake} (ha : s.awaiter = .asking) (hf : s.finisher ≠ .dispatching)
    (hd : s.dispatched = 0) :
  s.Kept
  := by
  obtain ⟨f, w, d⟩ := s
  obtain rfl : w = .asking := ha
  obtain rfl : d = 0 := hd
  constructor <;> cases f <;>
    simp_all [pledged, Finisher.pledge, Awaiter.pledge, Awaiter.registered]

/-- A step that keeps the sections apart preserves `Kept`. -/
theorem Kept.step {s t : Handshake} {a : Label} (hs : s.Kept) (ha : s.Apart a)
    (h : s.step a = some t) :
  t.Kept
  := by
  obtain ⟨f, w, d⟩ := s
  obtain ⟨hpending, hunregistered, hboth⟩ := hs
  obtain ⟨hcomplete, hstore⟩ := ha
  cases a with
  | complete =>
      simp only [Handshake.step, Option.ite_none_right_eq_some, Option.some.injEq] at h
      obtain ⟨rfl, rfl⟩ := h
      constructor <;> cases w <;>
        simp_all [pledged, Finisher.pledge, Awaiter.pledge, Awaiter.registered]
  | store =>
      simp only [Handshake.step, Option.ite_none_right_eq_some, Option.some.injEq] at h
      obtain ⟨rfl, rfl⟩ := h
      constructor <;> cases f <;>
        simp_all [pledged, Finisher.pledge, Awaiter.pledge, Awaiter.registered]
  | read | dispatch =>
      simp only [Handshake.step, Option.ite_none_right_eq_some, Option.some.injEq] at h
      obtain ⟨rfl, rfl⟩ := h
      constructor <;> cases w <;>
        simp_all [pledged, Finisher.pledge, Awaiter.pledge, Awaiter.registered]
  | ask | recheck | redispatch =>
      simp only [Handshake.step, Option.ite_none_right_eq_some, Option.some.injEq] at h
      obtain ⟨rfl, rfl⟩ := h
      constructor <;> cases f <;>
        simp_all [pledged, Finisher.pledge, Awaiter.pledge, Awaiter.registered]

/-- No step takes a pledge back. -/
theorem pledged_le {s t : Handshake} {a : Label} (h : s.step a = some t) :
  s.pledged ≤ t.pledged
  := by
  obtain ⟨f, w, d⟩ := s
  cases a with
  | complete | read | dispatch =>
      simp only [step, Option.ite_none_right_eq_some, Option.some.injEq] at h
      obtain ⟨rfl, rfl⟩ := h
      cases w <;> simp [pledged, Finisher.pledge, Awaiter.pledge, Awaiter.registered] <;> omega
  | ask | store | recheck | redispatch =>
      simp only [step, Option.ite_none_right_eq_some, Option.some.injEq] at h
      obtain ⟨rfl, rfl⟩ := h
      cases f <;> simp [pledged, Finisher.pledge, Awaiter.pledge, Awaiter.registered] <;> omega

/-- The step by which the sections begin to overlap pledges the second dispatch. -/
theorem Doomed.of_overlap {s t : Handshake} {a : Label} (ha : ¬ s.Apart a)
    (h : s.step a = some t) :
  t.Doomed
  := by
  obtain ⟨f, w, d⟩ := s
  rw [Apart, not_and_or] at ha
  push Not at ha
  obtain ⟨rfl, rfl⟩ | ⟨rfl, rfl⟩ := ha
  · simp only [step, Option.ite_none_right_eq_some, Option.some.injEq] at h
    obtain ⟨rfl, rfl⟩ := h
    simp [Doomed, pledged, Finisher.pledge, Awaiter.pledge, Awaiter.registered]
  · simp only [step, Option.ite_none_right_eq_some, Option.some.injEq] at h
    obtain ⟨rfl, rfl⟩ := h
    simp [Doomed, pledged, Finisher.pledge, Awaiter.pledge, Awaiter.registered]

theorem Doomed.step {s t : Handshake} {a : Label} (hs : s.Doomed) (h : s.step a = some t) :
  t.Doomed
  := Nat.le_trans hs (pledged_le h)

/-- Both sides have made their steps, and the awaiter did not pass. -/
def Settled (s : Handshake) : Prop :=
  s.finisher = .finished ∧ s.awaiter = .suspended

/-- The continuation is dispatched at most once, not at all if it has not been stored, and exactly
once when both sides have made their steps. -/
structure Once (s : Handshake) : Prop where
  le : s.dispatched ≤ 1
  unregistered : s.awaiter.registered = false → s.dispatched = 0
  settled : s.Settled → s.dispatched = 1

/-- What has been dispatched had been pledged. -/
theorem dispatched_le (s : Handshake) :
  s.dispatched ≤ s.pledged
  := by
  unfold pledged
  omega

theorem Kept.pledged_le_one {s : Handshake} (hs : s.Kept) :
  s.pledged ≤ 1
  := by
  by_cases hf : s.finisher = .pending
  · have := hs.pending hf
    omega
  · cases hw : s.awaiter.registered with
    | false =>
        have := hs.unregistered hw
        omega
    | true =>
        have := hs.both hf hw
        omega

theorem Settled.pledged {s : Handshake} (hs : s.Settled) :
  s.pledged = s.dispatched
  := by
  obtain ⟨hf, hw⟩ := hs
  simp [Handshake.pledged, hf, hw, Finisher.pledge, Awaiter.pledge]

theorem Kept.once {s : Handshake} (hs : s.Kept) :
  s.Once
  := by
  constructor
  · apply Nat.le_trans s.dispatched_le hs.pledged_le_one
  · intro hw
    have hnone := hs.unregistered hw
    have := s.dispatched_le
    omega
  · intro hsettled
    rw [← hsettled.pledged]
    apply hs.both
    · rw [hsettled.1]
      simp
    · rw [hsettled.2]
      rfl

theorem Doomed.dispatched {s : Handshake} (hs : s.Doomed) (h : s.Settled) :
  2 ≤ s.dispatched
  := by
  rw [← h.pledged]
  apply hs

/-! ### Systems that go through the two sides' steps -/

/-- The stage of the finisher in a system where any of several parties can be it: the flag, how
many parties are between raising it and reading the continuation, and how many are about to
dispatch. -/
def Finisher.of (raised : Bool) (deciding dispatching : ℕ) : Finisher :=
  if raised = false then .pending
  else if 0 < deciding then .deciding
  else if 0 < dispatching then .dispatching
  else .finished

@[simp]
theorem Finisher.of_eq_pending {raised : Bool} {deciding dispatching : ℕ} :
  Finisher.of raised deciding dispatching = .pending ↔ raised = false
  := by
  unfold Finisher.of
  split
  · simp [*]
  · split
    · simp [*]
    · split <;> simp [*]

theorem Finisher.of_deciding {raised : Bool} {deciding dispatching : ℕ} :
  Finisher.of raised deciding dispatching = .deciding ↔ raised = true ∧ 0 < deciding
  := by
  unfold Finisher.of
  split
  · simp [*]
  · split
    · simp_all
    · split <;> simp_all

/-- Through `abs`, every step of a system from a valid state is a step of one of the two sides
or none, and `C` says that it keeps the sections apart. -/
structure Tracks {σ α : Type*} (step : σ → α → Option σ) (C : σ → α → Prop) (valid : σ → Prop)
    (abs : σ → Handshake) : Prop where
  preserved : ∀ s a t, valid s → step s a = some t → valid t
  follows : ∀ s a t, valid s → step s a = some t →
    (abs t = abs s ∧ C s a) ∨
      ∃ b, (abs s).step b = some (abs t) ∧ (C s a ↔ (abs s).Apart b)

namespace Tracks

variable {σ α : Type*} {step : σ → α → Option σ} {C : σ → α → Prop} {valid : σ → Prop}
  {abs : σ → Handshake} {s t : σ} {as : List α}

/-- A step that keeps the sections apart keeps what it should. -/
theorem kept_step (hT : Tracks step C valid abs) {a : α} (hs : valid s) (hk : (abs s).Kept)
    (hc : C s a) (e : step s a = some t) :
  (abs t).Kept
  := by
  obtain ⟨heq, -⟩ | ⟨b, hb, hiff⟩ := hT.follows _ _ _ hs e
  · rw [heq]
    apply hk
  · apply hk.step (hiff.mp hc) hb

/-- In a run that keeps the sections apart the continuation is dispatched once. -/
theorem once (hT : Tracks step C valid abs) (h : Run step (Meets C) s as t) (hs : valid s)
    (hk : (abs s).Kept) :
  (abs t).Once
  := by
  have hinv : valid t ∧ (abs t).Kept := by
    apply h.invariant (fun u => valid u ∧ (abs u).Kept) _ ⟨hs, hk⟩
    rintro u a v ⟨hu, hkept⟩ hc e
    use hT.preserved _ _ _ hu e
    apply hT.kept_step hu hkept hc e
  apply hinv.2.once

/-- A run keeps the sections apart, or is doomed. -/
theorem meets_or_doomed (hT : Tracks step C valid abs) (h : Run step Free s as t)
    (hs : valid s) (hk : (abs s).Kept) :
  Run step (Meets C) s as t ∨ (abs t).Doomed
  := by
  have hsplit : (Run step (Meets C) s as t ∧ valid t ∧ (abs t).Kept) ∨
      (valid t ∧ (abs t).Doomed) := by
    apply h.meets_or_spoiled (fun u => valid u ∧ (abs u).Kept)
      (fun u => valid u ∧ (abs u).Doomed) _ _ _ ⟨hs, hk⟩
    · rintro u a v ⟨hu, hkept⟩ hc e
      use hT.preserved _ _ _ hu e
      apply hT.kept_step hu hkept hc e
    · rintro u a v ⟨hu, -⟩ hc e
      use hT.preserved _ _ _ hu e
      obtain ⟨-, hmet⟩ | ⟨b, hb, hiff⟩ := hT.follows _ _ _ hu e
      · contradiction
      · apply Doomed.of_overlap _ hb
        rw [← hiff]
        apply hc
    · rintro u a v ⟨hu, hdoomed⟩ e
      use hT.preserved _ _ _ hu e
      obtain ⟨heq, -⟩ | ⟨b, hb, -⟩ := hT.follows _ _ _ hu e
      · rw [heq]
        apply hdoomed
      · apply hdoomed.step hb
  obtain ⟨hr, -⟩ | ⟨-, hdoomed⟩ := hsplit
  · left
    apply hr
  · right
    apply hdoomed

/-- In a run to a settled state the continuation is dispatched once exactly when the sections
were kept apart. -/
theorem settled_iff (hT : Tracks step C valid abs) (h : Run step Free s as t) (hs : valid s)
    (hk : (abs s).Kept) (hsettled : (abs t).Settled) :
  (abs t).dispatched = 1 ↔ Run step (Meets C) s as t
  := by
  constructor
  · intro hone
    obtain hr | hdoomed := hT.meets_or_doomed h hs hk
    · apply hr
    · have := hdoomed.dispatched hsettled
      omega
  · intro hr
    apply (hT.once hr hs hk).settled hsettled

end Tracks

end Handshake

end Transition
