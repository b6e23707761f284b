import Koroutine.Transition.Run
import Mathlib.Logic.Function.Basic

/-!
# Custody

Resources are taken into custody, passed from one holder to another, and released.  A holder has at
most one resource.  As long as a holder is empty when it is given one, every resource that has been
taken has one holder, or has been released once.
-/

universe u v

namespace Transition

/-- What the holders hold, which resources have been taken, and how often each has been released. -/
@[ext] structure Custody (κ : Type u) (ρ : Type v) where
  holds : κ → Option ρ
  taken : ρ → Bool
  released : ρ → ℕ

namespace Custody

variable {κ : Type u} {ρ : Type v}

/-- What can be done with resources. -/
inductive Label (κ : Type u) (ρ : Type v)
  | take (k : κ) (r : ρ)
  | pass (k k' : κ)
  | release (k : κ)

/-- No resource has been taken. -/
def initial (κ : Type u) (ρ : Type v) : Custody κ ρ where
  holds := fun _ => none
  taken := fun _ => false
  released := fun _ => 0

/-- Every resource that has been taken has one holder, or has been released once. -/
structure Exclusive (c : Custody κ ρ) : Prop where
  unique : ∀ k k' r, c.holds k = some r → c.holds k' = some r → k = k'
  alive : ∀ k r, c.holds k = some r → c.taken r = true ∧ c.released r = 0
  held : ∀ r, c.taken r = true → c.released r = 0 → ∃ k, c.holds k = some r
  once : ∀ r, c.released r ≤ 1
  fresh : ∀ r, c.taken r = false → c.released r = 0

theorem Exclusive.initial :
  Exclusive (initial κ ρ)
  := by
  constructor <;> simp [Custody.initial]

variable {c d : Custody κ ρ} {k k' j : κ} {r r' : ρ}

/-- A resource that has been taken has been released if and only if nobody holds it. -/
theorem Exclusive.released_iff (hc : c.Exclusive) (hr : c.taken r = true) :
  c.released r = 1 ↔ ∀ k, c.holds k ≠ some r
  := by
  constructor
  · intro hone k hk
    have hzero := (hc.alive k r hk).2
    omega
  · intro hnobody
    have hle := hc.once r
    by_contra hne
    obtain ⟨k, hk⟩ := hc.held r hr (by omega)
    apply hnobody k hk

/-! ### Passing -/

variable [DecidableEq κ]

/-- A holder is given something, or nothing. -/
def put (c : Custody κ ρ) (k : κ) (r : Option ρ) : Custody κ ρ :=
  { c with holds := Function.update c.holds k r }

@[simp] theorem put_taken {r : Option ρ} :
  (c.put k r).taken = c.taken
  := rfl

@[simp] theorem put_released {r : Option ρ} :
  (c.put k r).released = c.released
  := rfl

@[simp] theorem put_holds_self {r : Option ρ} :
  (c.put k r).holds k = r
  := by simp [put]

theorem put_holds_of_ne {r : Option ρ} (h : j ≠ k) :
  (c.put k r).holds j = c.holds j
  := by simp [put, h]

theorem put_put {r r' : Option ρ} :
  (c.put k r).put k r' = c.put k r'
  := by simp [put]

theorem put_comm {r r' : Option ρ} (h : k ≠ k') :
  (c.put k r).put k' r' = (c.put k' r').put k r
  := by simp [put, Function.update_comm h]

theorem put_self {r : Option ρ} (h : c.holds k = r) :
  c.put k r = c
  := by rw [put, ← h, Function.update_eq_self]

/-- A holder passes what it has. -/
def pass (c : Custody κ ρ) (k k' : κ) : Custody κ ρ := (c.put k none).put k' (c.holds k)

theorem holds_pass :
  (c.pass k k').holds j = some r ↔
    j = k' ∧ c.holds k = some r ∨ j ≠ k' ∧ j ≠ k ∧ c.holds j = some r
  := by
  by_cases hj : j = k'
  · simp [pass, put, hj]
  · by_cases hk : j = k
    · simp [pass, put, ← hk, hj]
    · simp [pass, put, hj, hk]

theorem Exclusive.pass (hc : c.Exclusive) (hk : c.holds k' = none) :
  (c.pass k k').Exclusive
  := by
  constructor
  · intro i j r hi hj
    obtain ⟨rfl, hgiven⟩ | ⟨-, hik, hkept⟩ := holds_pass.mp hi
    · obtain ⟨rfl, -⟩ | ⟨-, hjk, hkept⟩ := holds_pass.mp hj
      · rfl
      · have heq := hc.unique k j r hgiven hkept
        simp [heq] at hjk
    · obtain ⟨rfl, hgiven⟩ | ⟨-, -, hkept'⟩ := holds_pass.mp hj
      · have heq := hc.unique i k r hkept hgiven
        contradiction
      · apply hc.unique i j r hkept hkept'
  · intro j r hj
    obtain ⟨-, hgiven⟩ | ⟨-, -, hkept⟩ := holds_pass.mp hj
    · apply hc.alive k r hgiven
    · apply hc.alive j r hkept
  · intro r htaken hzero
    obtain ⟨j, hj⟩ := hc.held r htaken hzero
    by_cases hjk : j = k
    · exact ⟨k', holds_pass.mpr (.inl ⟨rfl, hjk ▸ hj⟩)⟩
    · have hjk' : j ≠ k' := by
        rintro rfl
        simp [hk] at hj
      exact ⟨j, holds_pass.mpr (.inr ⟨hjk', hjk, hj⟩)⟩
  · apply hc.once
  · apply hc.fresh

/-! ### Taking and releasing -/

variable [DecidableEq ρ]

/-- A new resource is taken. -/
def take (c : Custody κ ρ) (k : κ) (r : ρ) : Custody κ ρ :=
  { c.put k (some r) with taken := Function.update c.taken r true }

/-- A holder releases its resource. -/
def release (c : Custody κ ρ) (k : κ) (r : ρ) : Custody κ ρ :=
  { c.put k none with released := Function.update c.released r (c.released r + 1) }

theorem holds_take :
  (c.take k r).holds j = some r' ↔ j = k ∧ r = r' ∨ j ≠ k ∧ c.holds j = some r'
  := by
  by_cases hj : j = k
  · simp [take, put, hj]
  · simp [take, put, hj]

theorem holds_release :
  (c.release k r).holds j = some r' ↔ j ≠ k ∧ c.holds j = some r'
  := by
  by_cases hj : j = k
  · simp [release, put, hj]
  · simp [release, put, hj]

theorem Exclusive.take (hc : c.Exclusive) (hk : c.holds k = none) (hr : c.taken r = false) :
  (c.take k r).Exclusive
  := by
  have hfree : ∀ j, c.holds j ≠ some r := by
    intro j hj
    have htaken := (hc.alive j r hj).1
    simp [hr] at htaken
  constructor
  · intro i j r' hi hj
    obtain ⟨rfl, rfl⟩ | ⟨-, hkept⟩ := holds_take.mp hi
    · obtain ⟨rfl, -⟩ | ⟨-, hkept⟩ := holds_take.mp hj
      · rfl
      · have hnot := hfree j
        contradiction
    · obtain ⟨rfl, rfl⟩ | ⟨-, hkept'⟩ := holds_take.mp hj
      · have hnot := hfree i
        contradiction
      · apply hc.unique i j r' hkept hkept'
  · intro j r' hj
    obtain ⟨rfl, rfl⟩ | ⟨-, hkept⟩ := holds_take.mp hj
    · simp [Custody.take, hc.fresh r hr]
    · have hne : r' ≠ r := by
        rintro rfl
        apply hfree j hkept
      simpa [Custody.take, hne] using hc.alive j r' hkept
  · intro r' htaken hzero
    by_cases hne : r' = r
    · use k
      simp [Custody.take, hne]
    · obtain ⟨j, hj⟩ := hc.held r' (by simpa [Custody.take, hne] using htaken) hzero
      have hjk : j ≠ k := by
        rintro rfl
        simp [hk] at hj
      exact ⟨j, holds_take.mpr (.inr ⟨hjk, hj⟩)⟩
  · apply hc.once
  · intro r' hr'
    by_cases hne : r' = r
    · simp [Custody.take, hne] at hr'
    · apply hc.fresh
      simpa [Custody.take, hne] using hr'

theorem Exclusive.release (hc : c.Exclusive) (hk : c.holds k = some r) :
  (c.release k r).Exclusive
  := by
  have hzero := (hc.alive k r hk).2
  constructor
  · intro i j r' hi hj
    apply hc.unique i j r' (holds_release.mp hi).2 (holds_release.mp hj).2
  · intro j r' hj
    obtain ⟨hjk, hkept⟩ := holds_release.mp hj
    have hne : r' ≠ r := by
      rintro rfl
      apply hjk (hc.unique j k r' hkept hk)
    simpa [Custody.release, hne] using hc.alive j r' hkept
  · intro r' htaken hzero'
    have hne : r' ≠ r := by
      rintro rfl
      simp [Custody.release] at hzero'
    obtain ⟨j, hj⟩ := hc.held r' htaken (by simpa [Custody.release, hne] using hzero')
    have hjk : j ≠ k := by
      rintro rfl
      rw [hk] at hj
      apply hne (Option.some.inj hj).symm
    exact ⟨j, holds_release.mpr ⟨hjk, hj⟩⟩
  · intro r'
    by_cases hne : r' = r
    · simp [Custody.release, hne, hzero]
    · simpa [Custody.release, hne] using hc.once r'
  · intro r' hr'
    have hne : r' ≠ r := by
      rintro rfl
      have htaken := (hc.alive k r' hk).1
      simp [Custody.release, htaken] at hr'
    simpa [Custody.release, hne] using hc.fresh r' hr'

/-! ### Runs -/

/-- The step function of custody. -/
def step (c : Custody κ ρ) : Label κ ρ → Option (Custody κ ρ)
  | .take k r => if (c.holds k).isNone && !c.taken r then some (c.take k r) else none
  | .pass k k' => if (c.holds k').isNone then some (c.pass k k') else none
  | .release k => (c.holds k).map fun r => c.release k r

theorem run_take (hk : c.holds k = none) (hr : c.taken r = false) :
  Run step Free c [.take k r] (c.take k r)
  := by
  apply Run.single _ trivial
  simp [step, hk, hr]

theorem run_pass (hk : c.holds k' = none) :
  Run step Free c [.pass k k'] (c.pass k k')
  := by
  apply Run.single _ trivial
  simp [step, hk]

theorem run_release (hk : c.holds k = some r) :
  Run step Free c [.release k] (c.release k r)
  := by
  apply Run.single _ trivial
  simp [step, hk]

theorem Exclusive.step {a : Label κ ρ} (hc : c.Exclusive) (h : c.step a = some d) :
  d.Exclusive
  := by
  cases a with
  | take k r =>
      simp only [Custody.step, Bool.and_eq_true, Option.isNone_iff_eq_none, Bool.not_eq_true',
        Option.ite_none_right_eq_some, Option.some.injEq] at h
      obtain ⟨⟨hk, hr⟩, rfl⟩ := h
      apply hc.take hk hr
  | pass k k' =>
      simp only [Custody.step, Option.isNone_iff_eq_none, Option.ite_none_right_eq_some,
        Option.some.injEq] at h
      obtain ⟨hk, rfl⟩ := h
      apply hc.pass hk
  | release k =>
      obtain ⟨r, hk, rfl⟩ := Option.map_eq_some_iff.mp h
      apply hc.release hk

/-- Custody stays exclusive. -/
theorem Exclusive.run {P : Custody κ ρ → Label κ ρ → Custody κ ρ → Prop} {as : List (Label κ ρ)}
    (hc : c.Exclusive) (h : Run Custody.step P c as d) :
  d.Exclusive
  := by
  apply h.invariant Exclusive _ hc
  intro c a d hc _ e
  apply hc.step e

end Custody

end Transition
