import Koroutine.Sequence.Known

/-!
# `Generator`

A generator is a coroutine that is started when it is created, runs until its first `co_yield` or to
its end, and is resumed when its next value is asked for.  `promise_type` has a slot for one value,
and `is_ready` says whether the value in the slot has not been taken yet.

What a coroutine does between two values may go on for ever.  Its resumptions have a number of steps
they may take, and give nothing when that is not enough; with more steps they give the same.

A value that is known of a generator is one that a client obtains by calling `next`; `client` is a
client that calls `has_next` and `next` as it likes.
-/

universe u

open Sequence

namespace Koroutine

/-- What a resumption comes to: a `co_yield`, or the end of the coroutine.  The frame of a coroutine
that has ended is kept, so that one can look at what it has left. -/
inductive Resumption (F T : Type u)
  | yielded (value : T) (frame : F)
  | returned (frame : F)

/-- A coroutine that yields values of type `T`. -/
structure Coroutine (T : Type u) where
  Frame : Type u
  resume : ℕ → Frame → Option (Resumption Frame T)
  resume_mono : ∀ {m n : ℕ} {x : Frame} {r : Resumption Frame T}, m ≤ n →
    resume m x = some r → resume n x = some r

/-- What a resumption comes to does not depend on the number of steps. -/
theorem Coroutine.resume_unique {T : Type u} {M : Coroutine T} {m n : ℕ} {x : M.Frame}
    {r r' : Resumption M.Frame T} (h : M.resume m x = some r) (h' : M.resume n x = some r') :
  r = r'
  := by
  have hmax := M.resume_mono (Nat.le_max_left m n) h
  rw [M.resume_mono (Nat.le_max_right m n) h'] at hmax
  apply (Option.some.inj hmax).symm

/-- A generator: its coroutine is suspended at a `co_yield`, with a value in the slot, or it has
ended.  `resumes` is how often the coroutine has run. -/
inductive Generator {T : Type u} (M : Coroutine T)
  | suspended (frame : M.Frame) (value : T) (is_ready : Bool) (resumes : ℕ)
  | done (frame : M.Frame) (resumes : ℕ)

/-- `ExhaustedException` -/
structure ExhaustedException
  deriving DecidableEq

namespace Generator

variable {T : Type u} {M : Coroutine T}

/-- The coroutine is called, and runs at once, as `initial_suspend` does not suspend. -/
def start (n : ℕ) (x : M.Frame) : Option (Generator M) :=
  (M.resume n x).map fun
    | .yielded v x => .suspended x v true 1
    | .returned x => .done x 1

/-- `has_next` -/
def has_next (n : ℕ) : Generator M → Option (Bool × Generator M)
  | .done x resumes => some (false, .done x resumes)
  | .suspended x v true resumes => some (true, .suspended x v true resumes)
  | .suspended x _ false resumes =>
      (M.resume n x).map fun
        | .yielded v x => (true, .suspended x v true (resumes + 1))
        | .returned x => (false, .done x (resumes + 1))

/-- `next` -/
def next (n : ℕ) (g : Generator M) : Option (Except ExhaustedException T × Generator M) :=
  (g.has_next n).map fun
    | (true, .suspended x v _ resumes) => (.ok v, .suspended x v false resumes)
    | (_, g) => (.error ⟨⟩, g)

/-- A turn of `while (g.has_next())`, whose body begins with `g.next()`.  What is done with the
value, where `next` throws, and behind the loop is given. -/
def turn {γ : Type u} (n : ℕ) (g : Generator M) (body : T → Generator M → Option γ)
    (throws behind : Generator M → Option γ) : Option γ := do
  let (b, g) ← g.has_next n
  if b then
    let (r, g) ← g.next n
    match r with
    | .ok v => body v g
    | .error _ => throws g
  else behind g

/-- The coroutine of the generator. -/
def frame : Generator M → M.Frame
  | .suspended x _ _ _ | .done x _ => x

/-- How often the coroutine has run. -/
def resumes : Generator M → ℕ
  | .suspended _ _ _ n | .done _ n => n

/-- The next call of `has_next` need not resume the coroutine. -/
def settled : Generator M → Bool
  | .suspended _ _ is_ready _ => is_ready
  | .done _ _ => true

/-- `fold`: the function applied to the values in turn. -/
def fold {R : Type u} (f : R → T → R) :
    ℕ → R → Generator M → Option (Except ExhaustedException R × Generator M)
  | 0, _, _ => none
  | n + 1, initial, g =>
      g.turn n (fun v g => fold f n (f initial v) g) (fun g => some (.error ⟨⟩, g))
        (fun g => some (.ok initial, g))

/-- `sum` -/
def sum [Add T] [OfNat T 0] (n : ℕ) (g : Generator M) :
    Option (Except ExhaustedException T × Generator M) :=
  g.fold (fun sum v => sum + v) n 0

/-- `for_each`: the values that the function is called with. -/
def for_each (n : ℕ) (g : Generator M) :
    Option (Except ExhaustedException (List T) × Generator M) :=
  g.fold (fun calls v => calls ++ [v]) n []

/-- A call of a client. -/
inductive Call
  | has_next
  | next
  deriving DecidableEq

/-- What a call gives. -/
inductive Answer (T : Type u)
  | has_next (b : Bool)
  | next (r : Except ExhaustedException T)

/-- The values that the calls of `next` have given. -/
def obtained (answers : List (Answer T)) : List T :=
  answers.filterMap fun
    | .next (.ok v) => some v
    | _ => none

/-- A client that makes the calls in turn. -/
def client (n : ℕ) : List Call → Generator M → Option (List (Answer T) × Generator M)
  | [], g => some ([], g)
  | .has_next :: calls, g => do
      let (b, g) ← g.has_next n
      let (answers, g) ← client n calls g
      return (.has_next b :: answers, g)
  | .next :: calls, g => do
      let (r, g) ← g.next n
      let (answers, g) ← client n calls g
      return (.next r :: answers, g)

/-- What the calls should give, where `k` is known of the sequence of values. -/
def expected : Known T → List Call → Option (List (Answer T))
  | _, [] => some []
  | .unknown, _ :: _ => none
  | .ended, .has_next :: calls => (expected .ended calls).map (.has_next false :: ·)
  | .ended, .next :: calls => (expected .ended calls).map (.next (.error ⟨⟩) :: ·)
  | .cons v k, .has_next :: calls => (expected (.cons v k) calls).map (.has_next true :: ·)
  | .cons v k, .next :: calls => (expected k calls).map (.next (.ok v) :: ·)

end Generator

/-- What is known of the values of a coroutine from where it is: it yields them when it is
resumed. -/
inductive Reaches {T : Type u} (M : Coroutine T) : M.Frame → Known T → Prop
  | unknown (x : M.Frame) : Reaches M x .unknown
  | ended {n : ℕ} {x y : M.Frame} (h : M.resume n x = some (.returned y)) : Reaches M x .ended
  | cons {n : ℕ} {x y : M.Frame} {v : T} {k : Known T} (h : M.resume n x = some (.yielded v y))
      (rest : Reaches M y k) : Reaches M x (.cons v k)

/-- What is known of a coroutine that ends is all there is to know. -/
theorem Reaches.le_of_isEnded {T : Type u} {M : Coroutine T} {x : M.Frame} {j k : Known T}
    (hj : Reaches M x j) (hend : j.isEnded = true) (hk : Reaches M x k) :
  k.Le j
  := by
  induction hk generalizing j with
  | unknown => apply Known.Le.unknown
  | ended h =>
      cases hj with
      | unknown => contradiction
      | ended => apply Known.Le.ended
      | cons h' _ =>
          have := M.resume_unique h h'
          contradiction
  | cons h _ ih =>
      cases hj with
      | unknown => contradiction
      | ended h' =>
          have := M.resume_unique h h'
          contradiction
      | cons h' hrest =>
          obtain ⟨rfl, rfl⟩ := Resumption.yielded.inj (M.resume_unique h h')
          apply Known.Le.cons _ (ih hrest hend)

/-- `from_list` -/
def Coroutine.from_list (T : Type u) : Coroutine T where
  Frame := List T
  resume _ list :=
    match list with
    | [] => some (.returned [])
    | t :: list => some (.yielded t list)
  resume_mono := by
    intro m n x r _ h
    apply h

theorem reaches_from_list {T : Type u} : (l : List T) →
  Reaches (Coroutine.from_list T) l (.ofList l)
  | [] => .ended (n := 0) rfl
  | _ :: l => .cons (n := 0) rfl (reaches_from_list l)

namespace Generator

variable {T : Type u} {M : Coroutine T}

/-- What is known of the values of a generator: a client obtains them with `next`. -/
inductive Knows : Generator M → Known T → Prop
  | unknown (g : Generator M) : Knows g .unknown
  | ended {n : ℕ} {g g' : Generator M} (h : g.has_next n = some (false, g')) : Knows g .ended
  | cons {n : ℕ} {g g' : Generator M} {v : T} {k : Known T}
      (h : g.next n = some (.ok v, g')) (rest : Knows g' k) : Knows g (.cons v k)

/-! ### `has_next` and `next` -/

variable {g g' : Generator M} {m n : ℕ} {b : Bool} {v : T}

theorem start_mono {x : M.Frame} (hmn : m ≤ n) (h : start m x = some g) :
  start n x = some g
  := by
  obtain ⟨r, hr, rfl⟩ := Option.map_eq_some_iff.mp h
  rw [start, M.resume_mono hmn hr, Option.map_some]

theorem has_next_mono (hmn : m ≤ n) {r : Bool × Generator M} (h : g.has_next m = some r) :
  g.has_next n = some r
  := by
  cases g with
  | done x resumes => apply h
  | suspended x v is_ready resumes =>
      cases is_ready with
      | true => apply h
      | false =>
          obtain ⟨r, hr, rfl⟩ := Option.map_eq_some_iff.mp h
          rw [has_next, M.resume_mono hmn hr, Option.map_some]

theorem next_mono (hmn : m ≤ n) {r : Except ExhaustedException T × Generator M}
    (h : g.next m = some r) :
  g.next n = some r
  := by
  obtain ⟨r, hr, rfl⟩ := Option.map_eq_some_iff.mp h
  rw [next, has_next_mono hmn hr, Option.map_some]

/-- `has_next` gives `true` exactly when it leaves a value in the slot, and `false` when the
coroutine has ended. -/
theorem has_next_cases (h : g.has_next n = some (b, g')) :
  (∃ x v resumes, b = true ∧ g' = .suspended x v true resumes) ∨
    (∃ x resumes, b = false ∧ g' = .done x resumes)
  := by
  cases g with
  | done x resumes =>
      obtain ⟨rfl, rfl⟩ : false = b ∧ .done x resumes = g' := by simpa [has_next] using h
      right
      exact ⟨x, resumes, rfl, rfl⟩
  | suspended x v is_ready resumes =>
      cases is_ready with
      | true =>
          obtain ⟨rfl, rfl⟩ : true = b ∧ .suspended x v true resumes = g' := by
            simpa [has_next] using h
          left
          exact ⟨x, v, resumes, rfl, rfl⟩
      | false =>
          obtain ⟨r, -, hr⟩ := Option.map_eq_some_iff.mp h
          cases r with
          | yielded w y =>
              obtain ⟨rfl, rfl⟩ := Prod.mk.inj hr
              left
              exact ⟨y, w, resumes + 1, rfl, rfl⟩
          | returned y =>
              obtain ⟨rfl, rfl⟩ := Prod.mk.inj hr
              right
              exact ⟨y, resumes + 1, rfl, rfl⟩

/-- Calling `has_next` once more gives the same, and changes nothing. -/
theorem has_next_idempotent (h : g.has_next n = some (b, g')) (m : ℕ) :
  g'.has_next m = some (b, g')
  := by
  obtain ⟨x, v, resumes, rfl, rfl⟩ | ⟨x, resumes, rfl, rfl⟩ := has_next_cases h
  · rfl
  · rfl

/-- `next` throws `ExhaustedException` exactly when `has_next` gives `false`. -/
theorem next_throws_iff :
  g.next n = some (.error ⟨⟩, g') ↔ g.has_next n = some (false, g')
  := by
  constructor
  · intro h
    obtain ⟨⟨b, g''⟩, hb, hr⟩ := Option.map_eq_some_iff.mp h
    obtain ⟨x, v, resumes, rfl, rfl⟩ | ⟨x, resumes, rfl, rfl⟩ := has_next_cases hb
    · simp at hr
    · obtain ⟨-, rfl⟩ := Prod.mk.inj hr
      apply hb
  · intro h
    rw [next, h, Option.map_some]

/-- `next` gives the value that `has_next` finds. -/
theorem next_ok_iff :
  g.next n = some (.ok v, g') ↔
    ∃ x resumes, g.has_next n = some (true, .suspended x v true resumes) ∧
      g' = .suspended x v false resumes
  := by
  constructor
  · intro h
    obtain ⟨⟨b, g''⟩, hb, hr⟩ := Option.map_eq_some_iff.mp h
    obtain ⟨x, w, resumes, rfl, rfl⟩ | ⟨x, resumes, rfl, rfl⟩ := has_next_cases hb
    · obtain ⟨hv, rfl⟩ := Prod.mk.inj hr
      obtain rfl : w = v := Except.ok.inj hv
      exact ⟨x, resumes, hb, rfl⟩
    · simp at hr
  · rintro ⟨x, resumes, h, rfl⟩
    rw [next, h, Option.map_some]

/-- `has_next` resumes the coroutine where there is no value in the slot, and leaves one or the end.
-/
theorem resumes_of_has_next (h : g.has_next n = some (b, g')) :
  g'.resumes = g.resumes + (!g.settled).toNat ∧ g'.settled = true
  := by
  cases g with
  | done x resumes =>
      obtain ⟨-, rfl⟩ := Prod.mk.inj (Option.some.inj h)
      exact ⟨rfl, rfl⟩
  | suspended x v is_ready resumes =>
      cases is_ready with
      | true =>
          obtain ⟨-, rfl⟩ := Prod.mk.inj (Option.some.inj h)
          exact ⟨rfl, rfl⟩
      | false =>
          obtain ⟨r, -, hr⟩ := Option.map_eq_some_iff.mp h
          cases r with
          | yielded w y | returned y =>
              obtain ⟨-, rfl⟩ := Prod.mk.inj hr
              exact ⟨rfl, rfl⟩

theorem resumes_of_next {r : Except ExhaustedException T} (h : g.next n = some (r, g')) :
  g'.resumes = g.resumes + (!g.settled).toNat
  := by
  obtain ⟨⟨b, g₁⟩, hb, hr⟩ := Option.map_eq_some_iff.mp h
  rw [← (resumes_of_has_next hb).1]
  obtain ⟨x, v, resumes, rfl, rfl⟩ | ⟨x, resumes, rfl, rfl⟩ := has_next_cases hb
  · obtain ⟨-, rfl⟩ := Prod.mk.inj hr
    rfl
  · obtain ⟨-, rfl⟩ := Prod.mk.inj hr
    rfl

/-- What `has_next` gives does not depend on the number of steps. -/
theorem has_next_unique {r r' : Bool × Generator M} (h : g.has_next m = some r)
    (h' : g.has_next n = some r') :
  r = r'
  := by
  have hmax := has_next_mono (Nat.le_max_left m n) h
  rw [has_next_mono (Nat.le_max_right m n) h'] at hmax
  apply (Option.some.inj hmax).symm

theorem next_unique {r r' : Except ExhaustedException T × Generator M} (h : g.next m = some r)
    (h' : g.next n = some r') :
  r = r'
  := by
  have hmax := next_mono (Nat.le_max_left m n) h
  rw [next_mono (Nat.le_max_right m n) h'] at hmax
  apply (Option.some.inj hmax).symm

/-- `next` gives after `has_next` what it gives without. -/
theorem next_of_has_next (h : g.has_next n = some (b, g')) (m : ℕ) :
  g'.next m = g.next n
  := by
  rw [next, next, h, has_next_idempotent h m]

/-- The calls of `has_next` and `next` in a turn come to one call of `next`, which does not throw
where `has_next` gives `true`. -/
theorem turn_eq {γ : Type u} (n : ℕ) (g : Generator M) (body : T → Generator M → Option γ)
    (throws behind : Generator M → Option γ) :
  g.turn n body throws behind =
    match g.next n with
    | none => none
    | some (.ok v, g) => body v g
    | some (.error _, g) => behind g
  := by
  rw [turn]
  cases hb : g.has_next n with
  | none => simp [next, hb]
  | some r =>
      obtain ⟨b, g'⟩ := r
      obtain ⟨x, v, resumes, rfl, rfl⟩ | ⟨x, resumes, rfl, rfl⟩ := has_next_cases hb
      · have hready : (suspended x v true resumes).next n =
            some (.ok v, .suspended x v false resumes) := rfl
        have hnext : g.next n = some (.ok v, .suspended x v false resumes) := by
          rw [next, hb, Option.map_some]
        simp [hnext, hready]
      · simp [next, hb]

/-! ### What is known -/

variable {k : Known T} {x : M.Frame} {resumes : ℕ}

/-- `has_next` makes no difference to what is known. -/
theorem knows_of_has_next (h : g.has_next n = some (b, g')) :
  g'.Knows k ↔ g.Knows k
  := by
  constructor
  · intro hk
    cases hk with
    | unknown => apply Knows.unknown
    | ended hend =>
        obtain ⟨rfl, rfl⟩ := Prod.mk.inj (has_next_unique hend (has_next_idempotent h 0))
        apply Knows.ended h
    | cons hnext hrest =>
        rw [next_of_has_next h] at hnext
        apply Knows.cons hnext hrest
  · intro hk
    cases hk with
    | unknown => apply Knows.unknown
    | ended hend =>
        obtain ⟨rfl, rfl⟩ := Prod.mk.inj (has_next_unique hend h)
        apply Knows.ended (has_next_idempotent hend 0)
    | @cons m _ _ _ _ hnext hrest =>
        apply Knows.cons (n := m) _ hrest
        obtain ⟨x, resumes, htrue, rfl⟩ := next_ok_iff.mp hnext
        obtain ⟨rfl, rfl⟩ := Prod.mk.inj (has_next_unique htrue h)
        rfl

/-- Where `has_next` gives `false`, there are no values. -/
theorem Knows.of_exhausted (hk : g.Knows k) (h : g.has_next n = some (false, g')) :
  k = .unknown ∨ k = .ended
  := by
  cases hk with
  | unknown => exact .inl rfl
  | ended => exact .inr rfl
  | cons hnext _ =>
      obtain ⟨x, resumes, htrue, -⟩ := next_ok_iff.mp hnext
      have := Prod.mk.inj (has_next_unique htrue h)
      simp at this

/-- Where `next` gives a value, it is the first. -/
theorem Knows.of_next (hk : g.Knows k) (h : g.next n = some (.ok v, g')) :
  k = .unknown ∨ ∃ k', k = .cons v k' ∧ g'.Knows k'
  := by
  cases hk with
  | unknown => exact .inl rfl
  | ended hend =>
      obtain ⟨x, resumes, htrue, -⟩ := next_ok_iff.mp h
      have := Prod.mk.inj (has_next_unique htrue hend)
      simp at this
  | cons hnext hrest =>
      obtain ⟨hv, rfl⟩ := Prod.mk.inj (next_unique hnext h)
      obtain rfl := Except.ok.inj hv
      exact .inr ⟨_, rfl, hrest⟩

/-- What is known of a generator without a value in its slot is what its coroutine reaches. -/
theorem knows_suspended :
  (suspended x v false resumes : Generator M).Knows k ↔ Reaches M x k
  := by
  induction k generalizing x v resumes with
  | unknown => exact ⟨fun _ => .unknown _, fun _ => .unknown _⟩
  | ended =>
      constructor
      · rintro (_ | hend | _)
        obtain ⟨r, hr, heq⟩ := Option.map_eq_some_iff.mp hend
        cases r with
        | yielded w y => simp at heq
        | returned y => apply Reaches.ended hr
      · rintro (_ | hend | _)
        apply Knows.ended
        rw [has_next, hend, Option.map_some]
  | cons w k ih =>
      constructor
      · rintro (_ | _ | ⟨hnext, hrest⟩)
        obtain ⟨y, resumes', htrue, rfl⟩ := next_ok_iff.mp hnext
        obtain ⟨r, hr, heq⟩ := Option.map_eq_some_iff.mp htrue
        cases r with
        | yielded w' y' =>
            simp only [Prod.mk.injEq, suspended.injEq, true_and] at heq
            obtain ⟨rfl, rfl, -⟩ := heq
            apply Reaches.cons hr (ih.mp hrest)
        | returned y' => simp at heq
      · intro hreaches
        cases hreaches with
        | @cons n _ y _ _ hresume hrest =>
            have hnext : (suspended x v false resumes : Generator M).next n =
                some (.ok w, .suspended y w false (resumes + 1)) := by
              rw [next, has_next, hresume]
              rfl
            apply Knows.cons hnext (ih.mpr hrest)

/-- With a value in the slot, that is the first. -/
theorem knows_ready :
  (suspended x v true resumes : Generator M).Knows k ↔
    k = .unknown ∨ ∃ k', k = .cons v k' ∧ Reaches M x k'
  := by
  have hnext : (suspended x v true resumes : Generator M).next 0 =
      some (.ok v, .suspended x v false resumes) := rfl
  constructor
  · intro hk
    obtain rfl | ⟨k', rfl, hk'⟩ := hk.of_next hnext
    · exact .inl rfl
    · exact .inr ⟨k', rfl, knows_suspended.mp hk'⟩
  · rintro (rfl | ⟨k', rfl, hk'⟩)
    · apply Knows.unknown
    · apply Knows.cons hnext (knows_suspended.mpr hk')

theorem knows_done :
  (done x resumes : Generator M).Knows k ↔ k = .unknown ∨ k = .ended
  := by
  have hend : (done x resumes : Generator M).has_next 0 = some (false, .done x resumes) := rfl
  constructor
  · intro hk
    apply hk.of_exhausted hend
  · rintro (rfl | rfl)
    · apply Knows.unknown
    · apply Knows.ended hend

/-- What is known of a generator that has been started is what its coroutine reaches. -/
theorem knows_start (h : start n x = some g) :
  g.Knows k ↔ Reaches M x k
  := by
  obtain ⟨r, hr, rfl⟩ := Option.map_eq_some_iff.mp h
  cases r with
  | yielded v y =>
      rw [knows_ready]
      constructor
      · rintro (rfl | ⟨k', rfl, hk'⟩)
        · apply Reaches.unknown
        · apply Reaches.cons hr hk'
      · intro hreaches
        cases hreaches with
        | unknown => exact .inl rfl
        | ended hend =>
            have := M.resume_unique hr hend
            contradiction
        | cons hresume hrest =>
            obtain ⟨rfl, rfl⟩ := Resumption.yielded.inj (M.resume_unique hr hresume)
            exact .inr ⟨_, rfl, hrest⟩
  | returned y =>
      rw [knows_done]
      constructor
      · rintro (rfl | rfl)
        · apply Reaches.unknown
        · apply Reaches.ended hr
      · intro hreaches
        cases hreaches with
        | unknown => exact .inl rfl
        | ended => exact .inr rfl
        | cons hresume _ =>
            have := M.resume_unique hr hresume
            contradiction

/-- A coroutine that comes to its first value or to its end can be started. -/
theorem exists_start (h : Reaches M x k) (hk : k ≠ .unknown) :
  ∃ n g, start (M := M) n x = some g
  := by
  cases h with
  | unknown => contradiction
  | @ended n _ y hend =>
      use n, .done y 1
      rw [start, hend, Option.map_some]
  | @cons n _ y v _ hresume _ =>
      use n, .suspended y v true 1
      rw [start, hresume, Option.map_some]

/-! ### Clients -/

variable {calls : List Call} {answers : List (Answer T)}

theorem client_has_next_iff :
  client n (.has_next :: calls) g = some (answers, g') ↔
    ∃ b g₁ rest, g.has_next n = some (b, g₁) ∧ client n calls g₁ = some (rest, g') ∧
      answers = .has_next b :: rest
  := by
  constructor
  · intro h
    obtain ⟨⟨b, g₁⟩, hb, h⟩ := Option.bind_eq_some_iff.mp h
    obtain ⟨⟨rest, g₂⟩, hrest, h⟩ := Option.bind_eq_some_iff.mp h
    obtain ⟨rfl, rfl⟩ := Prod.mk.inj (Option.some.inj h)
    exact ⟨b, g₁, rest, hb, hrest, rfl⟩
  · rintro ⟨b, g₁, rest, hb, hrest, rfl⟩
    simp [client, hb, hrest]

theorem client_next_iff :
  client n (.next :: calls) g = some (answers, g') ↔
    ∃ r g₁ rest, g.next n = some (r, g₁) ∧ client n calls g₁ = some (rest, g') ∧
      answers = .next r :: rest
  := by
  constructor
  · intro h
    obtain ⟨⟨r, g₁⟩, hr, h⟩ := Option.bind_eq_some_iff.mp h
    obtain ⟨⟨rest, g₂⟩, hrest, h⟩ := Option.bind_eq_some_iff.mp h
    obtain ⟨rfl, rfl⟩ := Prod.mk.inj (Option.some.inj h)
    exact ⟨r, g₁, rest, hr, hrest, rfl⟩
  · rintro ⟨r, g₁, rest, hr, hrest, rfl⟩
    simp [client, hr, hrest]

theorem client_mono (hmn : m ≤ n) (h : client m calls g = some (answers, g')) :
  client n calls g = some (answers, g')
  := by
  induction calls generalizing g answers with
  | nil => apply h
  | cons call calls ih =>
      cases call with
      | has_next =>
          obtain ⟨b, g₁, rest, hb, hrest, rfl⟩ := client_has_next_iff.mp h
          exact client_has_next_iff.mpr ⟨b, g₁, rest, has_next_mono hmn hb, ih hrest, rfl⟩
      | next =>
          obtain ⟨r, g₁, rest, hr, hrest, rfl⟩ := client_next_iff.mp h
          exact client_next_iff.mpr ⟨r, g₁, rest, next_mono hmn hr, ih hrest, rfl⟩

/-- What the calls of `has_next` preserve, and those of `next` with one more value obtained, a client
preserves. -/
theorem client_invariant (I : ℕ → Generator M → Prop)
    (hhas_next : ∀ i {b : Bool} {g g' : Generator M}, I i g → g.has_next n = some (b, g') → I i g')
    (hnext : ∀ i {v : T} {g g' : Generator M}, I i g → g.next n = some (.ok v, g') → I (i + 1) g')
    {i : ℕ} (hg : I i g) (h : client n calls g = some (answers, g')) :
  I (i + (obtained answers).length) g'
  := by
  induction calls generalizing g i answers with
  | nil =>
      obtain ⟨rfl, rfl⟩ := Prod.mk.inj (Option.some.inj h)
      apply hg
  | cons call calls ih =>
      cases call with
      | has_next =>
          obtain ⟨b, g₁, rest, hb, hrest, rfl⟩ := client_has_next_iff.mp h
          apply ih (hhas_next i hg hb) hrest
      | next =>
          obtain ⟨r, g₁, rest, hr, hrest, rfl⟩ := client_next_iff.mp h
          cases r with
          | error => apply ih (hhas_next i hg (next_throws_iff.mp hr)) hrest
          | ok v =>
              have hclient := ih (hnext i hg hr) hrest
              rw [Nat.add_assoc, Nat.add_comm 1] at hclient
              apply hclient

/-- Where more is known, as much is expected. -/
theorem expected_mono {j : Known T} (h : j.Le k) (hj : expected j calls = some answers) :
  expected k calls = some answers
  := by
  induction calls generalizing j k answers with
  | nil => cases h <;> apply hj
  | cons call calls ih =>
      cases h with
      | unknown => contradiction
      | ended => apply hj
      | cons a hrest =>
          cases call with
          | has_next =>
              obtain ⟨answers, hanswers, rfl⟩ := Option.map_eq_some_iff.mp hj
              rw [expected, ih (.cons a hrest) hanswers, Option.map_some]
          | next =>
              obtain ⟨answers, hanswers, rfl⟩ := Option.map_eq_some_iff.mp hj
              rw [expected, ih hrest hanswers, Option.map_some]

/-- What a client obtains is expected from what is known. -/
theorem exists_known_of_client (h : client n calls g = some (answers, g')) :
  ∃ k, g.Knows k ∧ expected k calls = some answers
  := by
  induction calls generalizing g answers with
  | nil =>
      obtain ⟨rfl, rfl⟩ := Prod.mk.inj (Option.some.inj h)
      exact ⟨.unknown, .unknown g, rfl⟩
  | cons call calls ih =>
      cases call with
      | has_next =>
          obtain ⟨b, g₁, rest, hb, hrest, rfl⟩ := client_has_next_iff.mp h
          obtain ⟨k, hk, hexpected⟩ := ih hrest
          obtain ⟨x, v, resumes, rfl, rfl⟩ | ⟨x, resumes, rfl, rfl⟩ := has_next_cases hb
          · -- There is a value, whether or not the other calls look at it.
            obtain ⟨k', hle, hk'⟩ : ∃ k', k.Le (.cons v k') ∧
                (suspended x v true resumes : Generator M).Knows (.cons v k') := by
              obtain rfl | ⟨k', rfl, hreaches⟩ := knows_ready.mp hk
              · exact ⟨.unknown, .unknown _, knows_ready.mpr (.inr ⟨_, rfl, .unknown x⟩)⟩
              · exact ⟨k', .refl _, hk⟩
            use .cons v k', (knows_of_has_next hb).mp hk'
            rw [expected, expected_mono hle hexpected, Option.map_some]
          · have hle : k.Le .ended := by
              obtain rfl | rfl := knows_done.mp hk
              · apply Known.Le.unknown
              · apply Known.Le.ended
            use .ended, .ended hb
            rw [expected, expected_mono hle hexpected, Option.map_some]
      | next =>
          obtain ⟨r, g₁, rest, hr, hrest, rfl⟩ := client_next_iff.mp h
          obtain ⟨k, hk, hexpected⟩ := ih hrest
          cases r with
          | ok v =>
              use .cons v k, .cons hr hk
              rw [expected, hexpected, Option.map_some]
          | error =>
              have hend := next_throws_iff.mp hr
              have hle : k.Le .ended := by
                obtain rfl | rfl :=
                  ((knows_of_has_next hend).mp hk).of_exhausted hend
                · apply Known.Le.unknown
                · apply Known.Le.ended
              use .ended, .ended hend
              rw [expected, expected_mono hle hexpected, Option.map_some]

theorem exists_client_has_next (h : g.has_next m = some (b, g'))
    (hrest : ∃ n g'', client n calls g' = some (answers, g'')) :
  ∃ n g'', client n (.has_next :: calls) g = some (.has_next b :: answers, g'')
  := by
  obtain ⟨n, g'', hclient⟩ := hrest
  use max m n, g''
  rw [client_has_next_iff]
  exact ⟨b, g', answers, has_next_mono (Nat.le_max_left m n) h,
    client_mono (Nat.le_max_right m n) hclient, rfl⟩

theorem exists_client_next {r : Except ExhaustedException T} (h : g.next m = some (r, g'))
    (hrest : ∃ n g'', client n calls g' = some (answers, g'')) :
  ∃ n g'', client n (.next :: calls) g = some (.next r :: answers, g'')
  := by
  obtain ⟨n, g'', hclient⟩ := hrest
  use max m n, g''
  rw [client_next_iff]
  exact ⟨r, g', answers, next_mono (Nat.le_max_left m n) h,
    client_mono (Nat.le_max_right m n) hclient, rfl⟩

/-- What is expected from what is known a client obtains. -/
theorem exists_client_of_known (hk : g.Knows k) (hexpected : expected k calls = some answers) :
  ∃ n g', client n calls g = some (answers, g')
  := by
  induction calls generalizing g k answers with
  | nil =>
      obtain rfl : [] = answers := by
        cases k <;> exact Option.some.inj hexpected
      exact ⟨0, g, rfl⟩
  | cons call calls ih =>
      cases hk with
      | unknown => contradiction
      | ended hend =>
          have hk₁ : Knows _ .ended := .ended (has_next_idempotent hend 0)
          cases call with
          | has_next =>
              obtain ⟨rest, hrest, rfl⟩ := Option.map_eq_some_iff.mp hexpected
              apply exists_client_has_next hend (ih hk₁ hrest)
          | next =>
              obtain ⟨rest, hrest, rfl⟩ := Option.map_eq_some_iff.mp hexpected
              apply exists_client_next (next_throws_iff.mpr hend) (ih hk₁ hrest)
      | cons hnext hk₁ =>
          cases call with
          | has_next =>
              obtain ⟨x, resumes, htrue, -⟩ := next_ok_iff.mp hnext
              obtain ⟨rest, hrest, rfl⟩ := Option.map_eq_some_iff.mp hexpected
              apply exists_client_has_next htrue
              apply ih ((knows_of_has_next htrue).mpr (.cons hnext hk₁)) hrest
          | next =>
              obtain ⟨rest, hrest, rfl⟩ := Option.map_eq_some_iff.mp hexpected
              apply exists_client_next hnext (ih hk₁ hrest)

/-- What is obtained are the first of the values known. -/
theorem obtained_of_expected {k : Known T} (h : expected k calls = some answers) :
  obtained answers <+: k.values
  := by
  induction calls generalizing k answers with
  | nil =>
      obtain rfl : [] = answers := by
        cases k <;> exact Option.some.inj h
      apply List.nil_prefix
  | cons call calls ih =>
      cases k with
      | unknown => contradiction
      | ended =>
          cases call with
          | has_next | next =>
              obtain ⟨rest, hrest, rfl⟩ := Option.map_eq_some_iff.mp h
              apply ih hrest
      | cons v k =>
          cases call with
          | has_next =>
              obtain ⟨rest, hrest, rfl⟩ := Option.map_eq_some_iff.mp h
              apply ih hrest
          | next =>
              obtain ⟨rest, hrest, rfl⟩ := Option.map_eq_some_iff.mp h
              apply List.cons_prefix_cons.mpr ⟨rfl, ih hrest⟩

/-- A client that calls `next` for every value, and then `has_next`. -/
theorem expected_all {k : Known T} (h : k.isEnded = true) :
  expected k (List.replicate k.values.length .next ++ [.has_next]) =
    some (k.values.map (fun v => .next (.ok v)) ++ [.has_next false])
  := by
  induction k with
  | unknown => contradiction
  | ended => rfl
  | cons v k ih =>
      simp only [Known.values, List.length_cons, List.replicate_succ, List.cons_append,
        List.map_cons, expected]
      rw [ih h, Option.map_some]

theorem fold_mono {R : Type u} {f : R → T → R} {initial : R}
    {r : Except ExhaustedException R × Generator M} (hmn : m ≤ n)
    (h : g.fold f m initial = some r) :
  g.fold f n initial = some r
  := by
  induction m generalizing n g initial with
  | zero => contradiction
  | succ m ih =>
      obtain ⟨n, rfl⟩ : ∃ k, n = k + 1 := ⟨n - 1, by omega⟩
      have hle : m ≤ n := Nat.le_of_succ_le_succ hmn
      rw [fold, turn_eq] at h ⊢
      cases hnext : g.next m with
      | none =>
          rw [hnext] at h
          contradiction
      | some a =>
          rw [hnext] at h
          rw [next_mono hle hnext]
          obtain ⟨_ | v, g₁⟩ := a
          · apply h
          · apply ih hle h

/-- `fold` gives what it makes of the list of values, where the generator ends. -/
theorem fold_iff {R : Type u} {f : R → T → R} {initial r : R} :
  (∃ n g', g.fold f n initial = some (.ok r, g')) ↔
    ∃ l, g.Knows (.ofList l) ∧ l.foldl f initial = r
  := by
  constructor
  · rintro ⟨n, g', h⟩
    induction n generalizing g initial with
    | zero => contradiction
    | succ n ih =>
        rw [fold, turn_eq] at h
        cases hnext : g.next n with
        | none =>
            rw [hnext] at h
            contradiction
        | some a =>
            rw [hnext] at h
            obtain ⟨_ | v, g₁⟩ := a
            · obtain ⟨hr, -⟩ := Prod.mk.inj (Option.some.inj h)
              exact ⟨[], .ended (next_throws_iff.mp hnext), Except.ok.inj hr⟩
            · obtain ⟨l, hl, hfold⟩ := ih h
              exact ⟨v :: l, .cons hnext hl, hfold⟩
  · rintro ⟨l, hl, rfl⟩
    induction l generalizing g initial with
    | nil =>
        cases hl with
        | @ended n _ g' hend =>
            use n + 1, g'
            rw [fold, turn_eq, next_throws_iff.mpr hend]
            rfl
    | cons v l ih =>
        cases hl with
        | @cons m _ g₁ _ _ hnext hrest =>
            obtain ⟨n, g', hfold⟩ := ih hrest
            use max m n + 1, g'
            rw [fold, turn_eq, next_mono (Nat.le_max_left m n) hnext]
            apply fold_mono (Nat.le_max_right m n) hfold

end Generator

end Koroutine
