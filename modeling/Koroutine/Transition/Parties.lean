import Mathlib.Algebra.BigOperators.Group.Finset.Basic
import Mathlib.Algebra.BigOperators.Fin
import Mathlib.Algebra.Order.BigOperators.Group.Finset

/-!
# Families of parties

The parties of a system are a family `f : ι → κ` of local states, and a step changes the local
state of one of them, to `Function.update f i x`.

A weight `w : κ → ℕ` assigns a number to every local state, and `∑ j ∈ J, w (f j)` is the
weight of the family over the parties `J`.  What a step adds to the weight of one party it
adds to the weight of the family.  With weights `0` and `1` this counts the parties in a given
set of local states.  A weight may also be what the parties hold, as a multiset.

`Countdown` is the invariant of a shared counter that every party decrements once, where the
party that takes it to zero has a signal to send.  `Owned` is the invariant of a mutex that
names the party in one of its locked local states.  `Begun` is the invariant of a loop that
creates the parties in order, followed by one that starts them in order.  `Elected` is the
invariant of a flag that one party raises by a compare-exchange, and that says whether a winner
exists.
-/

open Finset

namespace Transition

variable {ι κ : Type*}

/-- Changing the state of one party changes the weight of the family by the change of that
party's weight. -/
theorem sum_update_add {M : Type*} [AddCommMonoid M] [DecidableEq ι] (J : Finset ι) (w : κ → M)
    (f : ι → κ) {i : ι} (hi : i ∈ J) (x : κ) :
  ∑ j ∈ J, w (Function.update f i x j) + w (f i) = ∑ j ∈ J, w (f j) + w x
  := by
  have hrest : ∑ j ∈ J.erase i, w (Function.update f i x j) = ∑ j ∈ J.erase i, w (f j) := by
    apply sum_congr rfl
    intro j hj
    rw [Function.update_of_ne (ne_of_mem_erase hj)]
  have hnew := add_sum_erase J (fun j => w (Function.update f i x j)) hi
  have hold := add_sum_erase J (fun j => w (f j)) hi
  simp only [Function.update_self] at hnew
  rw [← hnew, ← hold, hrest, add_right_comm, add_comm (w x), add_right_comm]

/-- A party's weight is at most the weight of the family. -/
theorem le_sum (J : Finset ι) (w : κ → ℕ) (f : ι → κ) {i : ι} (hi : i ∈ J) :
  w (f i) ≤ ∑ j ∈ J, w (f j)
  := single_le_sum (f := fun j => w (f j)) (fun _ _ => Nat.zero_le _) hi

/-- Two parties' weights are together at most the weight of the family. -/
theorem add_le_sum [DecidableEq ι] (J : Finset ι) (w : κ → ℕ) (f : ι → κ) {i j : ι}
    (hi : i ∈ J) (hj : j ∈ J) (hij : i ≠ j) :
  w (f i) + w (f j) ≤ ∑ k ∈ J, w (f k)
  := by
  have hsplit := add_sum_erase J (fun k => w (f k)) hi
  have hrest := le_sum (J.erase i) w f (mem_erase.mpr ⟨hij.symm, hj⟩)
  omega

/-- A family of weight zero has parties of weight zero only. -/
theorem eq_zero_of_sum_eq_zero {J : Finset ι} {w : κ → ℕ} {f : ι → κ}
    (h : ∑ j ∈ J, w (f j) = 0) {i : ι} (hi : i ∈ J) :
  w (f i) = 0
  := Nat.le_zero.mp (h ▸ le_sum J w f hi)

/-- A family of positive weight has a party of positive weight. -/
theorem exists_pos_of_sum_pos {J : Finset ι} {w : κ → ℕ} {f : ι → κ}
    (h : 0 < ∑ j ∈ J, w (f j)) :
  ∃ i ∈ J, 0 < w (f i)
  := by
  by_contra hnone
  push Not at hnone
  have hzero : ∑ j ∈ J, w (f j) = 0 := sum_eq_zero fun j hj => Nat.le_zero.mp (hnone j hj)
  omega

/-! ### Counting down -/

/-- The counter `remaining` is the number of parties that have not decremented it, weighted
by `u`; at most one party, weighted by `g`, has a signal to send, and then the counter is `0`. -/
structure Countdown [Fintype ι] (u g : κ → ℕ) (f : ι → κ) (remaining : ℕ) : Prop where
  count : remaining = ∑ i, u (f i)
  signal : ∑ i, g (f i) ≤ 1
  zero : 0 < ∑ i, g (f i) → remaining = 0

namespace Countdown

variable [Fintype ι] [DecidableEq ι] {u g : κ → ℕ} {f : ι → κ} {remaining : ℕ} {i : ι} {x : κ}

/-- A step that neither decrements nor raises the signal. -/
theorem update (h : Countdown u g f remaining) (hu : u x = u (f i)) (hg : g x ≤ g (f i)) :
  Countdown u g (Function.update f i x) remaining
  := by
  have hsu := sum_update_add univ u f (mem_univ i) x
  have hsg := sum_update_add univ g f (mem_univ i) x
  obtain ⟨hrem, hsig, hzero⟩ := h
  constructor
  · omega
  · omega
  · intro hpos
    apply hzero
    omega

omit [DecidableEq ι] in
/-- A party that has not decremented the counter finds it positive, and nobody with a signal
to send. -/
theorem pending (h : Countdown u g f remaining) (hu : 0 < u (f i)) :
  0 < remaining ∧ ∑ j, g (f j) = 0
  := by
  have hle := le_sum univ u f (mem_univ i)
  obtain ⟨hrem, hsig, hzero⟩ := h
  constructor
  · omega
  · by_contra hpos
    have := hzero (by omega)
    omega

/-- The step that decrements the counter raises the signal when it takes it to `0`. -/
theorem decrement {k : ℕ} (h : Countdown u g f (k + 1)) (hu : u (f i) = 1) (hx : u x = 0)
    (hg : g x = if k = 0 then 1 else 0) :
  Countdown u g (Function.update f i x) k
  := by
  have hnone := (h.pending (i := i) (by omega)).2
  have hgi := eq_zero_of_sum_eq_zero hnone (mem_univ i)
  have hsu := sum_update_add univ u f (mem_univ i) x
  have hsg := sum_update_add univ g f (mem_univ i) x
  have hrem := h.count
  constructor
  · omega
  · split at hg <;> omega
  · intro hpos
    split at hg <;> omega

omit [DecidableEq ι] in
/-- Once the counter is `0`, every party has decremented it. -/
theorem all_counted (h : Countdown u g f 0) (i : ι) :
  u (f i) = 0
  := eq_zero_of_sum_eq_zero h.count.symm (mem_univ i)

omit [DecidableEq ι] in
/-- A party with a signal to send finds the counter at `0`. -/
theorem zero_of_signal (h : Countdown u g f remaining) (hi : 0 < g (f i)) :
  remaining = 0
  := h.zero (lt_of_lt_of_le hi (le_sum univ g f (mem_univ i)))

end Countdown

/-! ### Electing a winner -/

/-- The flag says whether there is a winner, by the weight `w`, and there is at most one. -/
def Elected [Fintype ι] (w : κ → ℕ) (f : ι → κ) (flag : Bool) : Prop :=
  ∑ i, w (f i) = flag.toNat

namespace Elected

variable [Fintype ι] [DecidableEq ι] {w : κ → ℕ} {f : ι → κ} {flag : Bool} {i : ι} {x : κ}

/-- A step by which nobody wins. -/
theorem update (h : Elected w f flag) (hw : w x = w (f i)) :
  Elected w (Function.update f i x) flag
  := by
  have hsum := sum_update_add univ w f (mem_univ i) x
  unfold Elected at h ⊢
  omega

/-- The step of the winner. -/
theorem elect (h : Elected w f false) (hx : w x = 1) :
  Elected w (Function.update f i x) true
  := by
  have hsum := sum_update_add univ w f (mem_univ i) x
  have hi := eq_zero_of_sum_eq_zero h (mem_univ i)
  unfold Elected at h ⊢
  simp only [Bool.toNat_false, Bool.toNat_true] at h ⊢
  omega

omit [DecidableEq ι] in
/-- Where the flag is raised there is a winner. -/
theorem exists_winner (h : Elected w f true) :
  ∃ i, 0 < w (f i)
  := by
  have hpos : 0 < ∑ j, w (f j) := by
    rw [h]
    decide
  obtain ⟨i, -, hi⟩ := exists_pos_of_sum_pos hpos
  use i

/-- There is one winner only. -/
theorem unique (h : Elected w f flag) {i j : ι} (hi : 0 < w (f i)) (hj : 0 < w (f j)) :
  i = j
  := by
  by_contra hij
  have hle := add_le_sum univ w f (mem_univ i) (mem_univ j) hij
  rw [h] at hle
  have := flag.toNat_le
  omega

end Elected

/-! ### Owning a mutex -/

/-- A party in a local state that holds the mutex is the owner the mutex names. -/
def Owned {ο : Type*} (holds : ι → κ → Bool) (name : ι → ο) (f : ι → κ) (owner : Option ο) :
    Prop :=
  ∀ i, holds i (f i) = true → owner = some (name i)

namespace Owned

variable [DecidableEq ι] {ο : Type*} {holds : ι → κ → Bool} {name : ι → ο} {f : ι → κ}
  {owner : Option ο} {i : ι} {x : κ}

/-- A step that does not start to hold the mutex. -/
theorem update (h : Owned holds name f owner) (hx : holds i x = true → holds i (f i) = true) :
  Owned holds name (Function.update f i x) owner
  := by
  intro j hj
  by_cases hji : j = i
  · subst hji
    apply h j
    apply hx
    simpa using hj
  · apply h j
    simpa [hji] using hj

/-- A step that takes the free mutex. -/
theorem acquire (h : Owned holds name f none) :
  Owned holds name (Function.update f i x) (some (name i))
  := by
  intro j hj
  by_cases hji : j = i
  · rw [hji]
  · rw [Function.update_of_ne hji] at hj
    apply absurd (h j hj)
    simp

/-- A step that releases the mutex. -/
theorem release (hname : Function.Injective name) (h : Owned holds name f owner)
    (hi : holds i (f i) = true) (hx : holds i x = false) :
  Owned holds name (Function.update f i x) none
  := by
  intro j hj
  by_cases hji : j = i
  · subst hji
    simp [hx] at hj
  · rw [Function.update_of_ne hji] at hj
    have heq := (h i hi).symm.trans (h j hj)
    apply absurd (hname (Option.some.inj heq)).symm hji

end Owned

/-! ### Creating and starting the parties -/

/-- The parties from `made` on do not exist yet, and those below `made`, from `started` on, are
as they were created. -/
structure Begun {n : ℕ} (unborn created : κ) (made started : ℕ) (f : Fin n → κ) : Prop where
  unmade : ∀ i : Fin n, made ≤ i.val → f i = unborn
  unstarted : ∀ i : Fin n, i.val < made → started ≤ i.val → f i = created

namespace Begun

variable {n : ℕ} {unborn created : κ} {made started : ℕ} {f : Fin n → κ} {i : Fin n} {x : κ}

/-- Creating the next party. -/
theorem make {k : ℕ} (h : Begun unborn created k started f) (hk : k < n) :
  Begun unborn created (k + 1) started (Function.update f ⟨k, hk⟩ created)
  := by
  constructor
  · intro j hj
    have hne : j ≠ ⟨k, hk⟩ := by
      rintro rfl
      simp at hj
    rw [Function.update_of_ne hne]
    apply h.unmade
    omega
  · intro j hj hs
    by_cases hjk : j = ⟨k, hk⟩
    · rw [hjk, Function.update_self]
    · have hne : j.val ≠ k := fun heq => hjk (Fin.ext heq)
      rw [Function.update_of_ne hjk]
      apply h.unstarted j (by omega) hs

/-- Every party has been created. -/
theorem made_all {k : ℕ} (h : Begun unborn created k started f) (hk : n ≤ k) :
  Begun unborn created n started f
  := by
  constructor
  · intro j hj
    omega
  · intro j _ hs
    apply h.unstarted j (by omega) hs

/-- Starting the next party. -/
theorem start {k : ℕ} (h : Begun unborn created n k f) (hk : k < n) :
  Begun unborn created n (k + 1) (Function.update f ⟨k, hk⟩ x)
  := by
  constructor
  · intro j hj
    omega
  · intro j hj hs
    have hne : j ≠ ⟨k, hk⟩ := by
      rintro rfl
      simp at hs
    rw [Function.update_of_ne hne]
    apply h.unstarted j hj
    omega

/-- A step of a party that has been started. -/
theorem update (h : Begun unborn created made started f) (hu : f i ≠ unborn)
    (hc : f i ≠ created) :
  Begun unborn created made started (Function.update f i x)
  := by
  have hmade : i.val < made := by
    by_contra hle
    apply hu (h.unmade i (by omega))
  have hstarted : i.val < started := by
    by_contra hle
    apply hc (h.unstarted i hmade (by omega))
  constructor
  · intro j hj
    rw [Function.update_of_ne (by rintro rfl; omega)]
    apply h.unmade j hj
  · intro j hj hs
    rw [Function.update_of_ne (by rintro rfl; omega)]
    apply h.unstarted j hj hs

/-- Once every party has been created and started nothing is left to say. -/
theorem done (f : Fin n → κ) :
  Begun unborn created n n f
  := by
  constructor <;> intros <;> omega

end Begun

end Transition
