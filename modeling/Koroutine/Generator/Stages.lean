import Koroutine.Generator.Basic
import Mathlib.Data.Int.Notation

/-!
# The stages of a pipeline

`map`, `filter`, `take` and `take_while` are coroutines that own the generator they are called on,
`up_steam`, and pull its values in a loop.  The loop is `pulling`, which a transducer tells when to
go on and what to do with a value.  `flat_map` has an inner loop over the values of another
generator.

An exception that leaves the body of a generator is swallowed by `unhandled_exception`, and ends
it.
-/

open Sequence

namespace Koroutine

variable {T U : Type} {M : Coroutine T} {σ : Type}

/-- The loop of a stage, from where the coroutine is started or resumed. -/
def pulling (t : Transducer σ T U) :
    ℕ → Generator M × σ → Option (Resumption (Generator M × σ) U)
  | 0, _ => none
  | n + 1, (up_steam, s) =>
      match t.guard s with
      | (false, s) => some (.returned (up_steam, s))
      | (true, s) =>
          up_steam.turn n
            (fun v up_steam =>
              match t.body v s with
              | .yield u s => some (.yielded u (up_steam, s))
              | .skip s => pulling t n (up_steam, s)
              | .stop => some (.returned (up_steam, s)))
            (fun up_steam => some (.returned (up_steam, s)))
            (fun up_steam => some (.returned (up_steam, s)))

theorem pulling_of_guard {t : Transducer σ T U} {s : σ} (hguard : (t.guard s).1 = false) (n : ℕ)
    (up_steam : Generator M) :
  pulling t (n + 1) (up_steam, s) = some (.returned (up_steam, (t.guard s).2))
  := by
  rw [pulling]
  split
  · rename_i s' h
    rw [h]
  · rename_i s' h
    rw [h] at hguard
    contradiction

theorem pulling_succ {t : Transducer σ T U} {s : σ} (hguard : (t.guard s).1 = true) (n : ℕ)
    (up_steam : Generator M) :
  pulling t (n + 1) (up_steam, s) =
    match up_steam.next n with
    | none => none
    | some (.ok v, up_steam) =>
        match t.body v (t.guard s).2 with
        | .yield u s => some (.yielded u (up_steam, s))
        | .skip s => pulling t n (up_steam, s)
        | .stop => some (.returned (up_steam, (t.guard s).2))
    | some (.error _, up_steam) => some (.returned (up_steam, (t.guard s).2))
  := by
  rw [pulling]
  split
  · rename_i s' h
    rw [h] at hguard
    contradiction
  · rename_i s' h
    rw [Generator.turn_eq, h]
    rfl

theorem pulling_mono (t : Transducer σ T U) {m n : ℕ} {x : Generator M × σ}
    {r : Resumption (Generator M × σ) U} (hmn : m ≤ n) (h : pulling t m x = some r) :
  pulling t n x = some r
  := by
  induction m generalizing n x with
  | zero => contradiction
  | succ m ih =>
      obtain ⟨n, rfl⟩ : ∃ k, n = k + 1 := ⟨n - 1, by omega⟩
      obtain ⟨up_steam, s⟩ := x
      cases hguard : (t.guard s).1 with
      | false =>
          rw [pulling_of_guard hguard] at h ⊢
          apply h
      | true =>
          rw [pulling_succ hguard] at h ⊢
          cases hnext : up_steam.next m with
          | none =>
              rw [hnext] at h
              contradiction
          | some a =>
              rw [hnext] at h
              rw [Generator.next_mono (by omega) hnext]
              obtain ⟨_ | v, up_steam⟩ := a
              · apply h
              · simp only at h ⊢
                split at h
                · apply h
                · apply ih (by omega) h
                · apply h

/-- A stage that pulls the values of another coroutine. -/
def Coroutine.pull (M : Coroutine T) (t : Transducer σ T U) : Coroutine U where
  Frame := Generator M × σ
  resume := pulling t
  resume_mono := pulling_mono t

/-- `while (up_steam.has_next()) co_yield f(up_steam.next());` -/
def Stage.map (f : T → U) : Transducer Unit T U where
  guard s := (true, s)
  body v s := .yield (f v) s

/-- `while (up_steam.has_next())`, and a value is yielded if it satisfies `f`. -/
def Stage.filter (f : T → Bool) : Transducer Unit T T where
  guard s := (true, s)
  body v s := if f v then .yield v s else .skip s

/-- `while (i++ < n && up_steam.has_next()) co_yield up_steam.next();`.  The counter is an `int` in
the source; only its last increment, after which it is not read, can overflow there. -/
def Stage.take (n : ℤ) : Transducer ℤ T T where
  guard i := (i < n, i + 1)
  body v i := .yield v i

/-- `while (up_steam.has_next())`, and the loop is left at a value that does not satisfy `f`. -/
def Stage.take_while (f : T → Bool) : Transducer Unit T T where
  guard s := (true, s)
  body v s := if f v then .yield v s else .stop

/-- `map` -/
def Coroutine.map (M : Coroutine T) (f : T → U) : Coroutine U := M.pull (Stage.map f)

/-- `filter` -/
def Coroutine.filter (M : Coroutine T) (f : T → Bool) : Coroutine T := M.pull (Stage.filter f)

/-- `take` -/
def Coroutine.take (M : Coroutine T) (n : ℤ) : Coroutine T := M.pull (Stage.take n)

/-- `take_while` -/
def Coroutine.take_while (M : Coroutine T) (f : T → Bool) : Coroutine T :=
  M.pull (Stage.take_while f)

/-! ### The list functions -/

theorem runList_map (f : T → U) (l : List T) :
  (Stage.map f).runList () l = l.map f
  := by
  induction l with
  | nil => rfl
  | cons v l ih => simp [Transducer.runList, Stage.map, ← ih]

theorem runList_filter (f : T → Bool) (l : List T) :
  (Stage.filter f).runList () l = l.filter f
  := by
  induction l with
  | nil => rfl
  | cons v l ih =>
      cases hv : f v with
      | true => simp [Transducer.runList, Stage.filter, hv, ← ih]
      | false => simp [Transducer.runList, Stage.filter, hv, ← ih]

theorem runList_take (n i : ℤ) (l : List T) :
  (Stage.take n).runList i l = l.take (n - i).toNat
  := by
  induction l generalizing i with
  | nil => simp [Transducer.runList]
  | cons v l ih =>
      by_cases hi : i < n
      · have hsucc : (n - i).toNat = (n - (i + 1)).toNat + 1 := by omega
        rw [hsucc, List.take_succ_cons, ← ih]
        simp [Transducer.runList, Stage.take, hi]
      · have hzero : (n - i).toNat = 0 := by omega
        simp [Transducer.runList, Stage.take, hi, hzero]

theorem runList_take_while (f : T → Bool) (l : List T) :
  (Stage.take_while f).runList () l = l.takeWhile f
  := by
  induction l with
  | nil => rfl
  | cons v l ih =>
      cases hv : f v with
      | true => simp [Transducer.runList, Stage.take_while, hv, ← ih]
      | false => simp [Transducer.runList, Stage.take_while, hv]

/-! ### What is known of a stage -/

variable {t : Transducer σ T U} {up_steam : Generator M} {s : σ} {n : ℕ}

/-- What a resumption of a stage comes to, in what is known of the values it pulls. -/
def Explains (t : Transducer σ T U) (up_steam : Generator M) (s : σ) :
    Resumption (Generator M × σ) U → Prop
  | .returned _ => ∃ k, up_steam.Knows k ∧ t.run s k = .ended
  | .yielded u (up_steam', s') =>
      ∀ k', up_steam'.Knows k' → ∃ k, up_steam.Knows k ∧ t.run s k = .cons u (t.run s' k')

theorem explains_of_pulling {r : Resumption (Generator M × σ) U}
    (h : pulling t n (up_steam, s) = some r) :
  Explains t up_steam s r
  := by
  induction n generalizing up_steam s with
  | zero => contradiction
  | succ n ih =>
      cases hguard : (t.guard s).1 with
      | false =>
          rw [pulling_of_guard hguard] at h
          obtain rfl := Option.some.inj h
          exact ⟨.unknown, .unknown _, t.run_of_guard hguard _⟩
      | true =>
          rw [pulling_succ hguard] at h
          cases hnext : up_steam.next n with
          | none =>
              rw [hnext] at h
              contradiction
          | some a =>
              rw [hnext] at h
              obtain ⟨e | v, up_steam'⟩ := a
              · obtain rfl := Option.some.inj h
                exact ⟨.ended, .ended (Generator.next_throws_iff.mp hnext), rfl⟩
              · simp only at h
                split at h
                · rename_i u s' hbody
                  obtain rfl := Option.some.inj h
                  intro k' hk'
                  use .cons v k', .cons hnext hk'
                  simp [Transducer.run, hguard, hbody]
                · rename_i s' hbody
                  have hskip : ∀ k, up_steam'.Knows k → up_steam.Knows (.cons v k) ∧
                      t.run s (.cons v k) = t.run s' k := by
                    intro k hk
                    use .cons hnext hk
                    simp [Transducer.run, hguard, hbody]
                  have hrest := ih h
                  cases r with
                  | returned y =>
                      obtain ⟨k, hk, hrun⟩ := hrest
                      obtain ⟨hknows, heq⟩ := hskip k hk
                      exact ⟨.cons v k, hknows, heq.trans hrun⟩
                  | yielded u y =>
                      intro k' hk'
                      obtain ⟨k, hk, hrun⟩ := hrest k' hk'
                      obtain ⟨hknows, heq⟩ := hskip k hk
                      exact ⟨.cons v k, hknows, heq.trans hrun⟩
                · rename_i hbody
                  obtain rfl := Option.some.inj h
                  use .cons v .unknown, .cons hnext (.unknown _)
                  simp [Transducer.run, hguard, hbody]

/-- The coroutine reaches what another reaches where it takes steps to get there. -/
theorem Reaches.of_resume {N : Coroutine U} {x y : N.Frame} {k : Known U}
    (h : ∀ n r, N.resume n y = some r → ∃ m, N.resume m x = some r) (hk : Reaches N y k) :
  Reaches N x k
  := by
  cases hk with
  | unknown => apply Reaches.unknown
  | ended hend =>
      obtain ⟨m, hm⟩ := h _ _ hend
      apply Reaches.ended hm
  | cons hresume hrest =>
      obtain ⟨m, hm⟩ := h _ _ hresume
      apply Reaches.cons hm hrest

/-- A stage whose guard does not let it go on ends. -/
theorem reaches_of_guard {out : Known U} (hguard : (t.guard s).1 = false) (hle : out.Le .ended) :
  Reaches (M.pull t) (up_steam, s) out
  := by
  cases hle with
  | unknown => apply Reaches.unknown
  | ended =>
      have hresume : (M.pull t).resume 1 (up_steam, s) =
          some (.returned (up_steam, (t.guard s).2)) := pulling_of_guard hguard 0 up_steam
      apply Reaches.ended hresume

/-- A stage ends where there is nothing more to pull. -/
theorem resume_of_exhausted (hguard : (t.guard s).1 = true) {g' : Generator M}
    (hend : up_steam.has_next n = some (false, g')) :
  (M.pull t).resume (n + 1) (up_steam, s) = some (.returned (g', (t.guard s).2))
  := by
  change pulling t (n + 1) (up_steam, s) = _
  rw [pulling_succ hguard, Generator.next_throws_iff.mpr hend]
  rfl

/-- What a stage does with a value that it pulls. -/
theorem resume_of_next (hguard : (t.guard s).1 = true) {v : T} {g' : Generator M}
    (hnext : up_steam.next n = some (.ok v, g')) :
  (M.pull t).resume (n + 1) (up_steam, s) =
    match t.body v (t.guard s).2 with
    | .yield u s => some (.yielded u (g', s))
    | .skip s => (M.pull t).resume n (g', s)
    | .stop => some (.returned (g', (t.guard s).2))
  := by
  change pulling t (n + 1) (up_steam, s) = _
  rw [pulling_succ hguard, hnext]
  rfl

theorem exists_known_of_reaches {x : (M.pull t).Frame} {out : Known U}
    (h : Reaches (M.pull t) x out) :
  ∃ k, Generator.Knows x.1 k ∧ out.Le (t.run x.2 k)
  := by
  induction h with
  | unknown => exact ⟨.unknown, .unknown _, .unknown _⟩
  | ended hend =>
      obtain ⟨k, hk, hrun⟩ := explains_of_pulling hend
      use k, hk
      rw [hrun]
      apply Known.Le.ended
  | @cons n x y u k hresume _ ih =>
      obtain ⟨k', hk', hle⟩ := ih
      obtain ⟨k, hk, hrun⟩ := explains_of_pulling hresume k' hk'
      use k, hk
      rw [hrun]
      apply Known.Le.cons u hle

theorem reaches_of_known {k : Known T} {out : Known U} (hk : up_steam.Knows k)
    (hle : out.Le (t.run s k)) :
  Reaches (M.pull t) (up_steam, s) out
  := by
  induction hk generalizing s out with
  | unknown g =>
      cases hguard : (t.guard s).1 with
      | false =>
          rw [t.run_of_guard hguard] at hle
          apply reaches_of_guard hguard hle
      | true =>
          simp only [Transducer.run, hguard, if_true] at hle
          cases hle
          apply Reaches.unknown
  | @ended n g g' hend =>
      cases hguard : (t.guard s).1 with
      | false =>
          rw [t.run_of_guard hguard] at hle
          apply reaches_of_guard hguard hle
      | true =>
          cases hle with
          | unknown => apply Reaches.unknown
          | ended => apply Reaches.ended (resume_of_exhausted hguard hend)
  | @cons n g g' v k hnext hk ih =>
      cases hguard : (t.guard s).1 with
      | false =>
          rw [t.run_of_guard hguard] at hle
          apply reaches_of_guard hguard hle
      | true =>
          simp only [Transducer.run, hguard, if_true] at hle
          have hresume := resume_of_next hguard hnext
          cases hbody : t.body v (t.guard s).2 with
          | yield u s' =>
              rw [hbody] at hle hresume
              cases hle with
              | unknown => apply Reaches.unknown
              | cons _ hrest => apply Reaches.cons hresume (ih hrest)
          | skip s' =>
              rw [hbody] at hle
              apply (ih hle).of_resume
              intro m r hr
              use max m n + 1
              rw [resume_of_next hguard (Generator.next_mono (Nat.le_max_right m n) hnext), hbody]
              apply (M.pull t).resume_mono (Nat.le_max_left m n) hr
          | stop =>
              rw [hbody] at hle hresume
              cases hle with
              | unknown => apply Reaches.unknown
              | ended => apply Reaches.ended hresume

/-- What is known of a stage is what its transducer makes of what is known of the generator that it
pulls. -/
theorem reaches_pull_iff {out : Known U} :
  Reaches (M.pull t) (up_steam, s) out ↔ ∃ k, up_steam.Knows k ∧ out.Le (t.run s k)
  := by
  constructor
  · intro h
    apply exists_known_of_reaches h
  · rintro ⟨k, hk, hle⟩
    apply reaches_of_known hk hle

/-! ### `flat_map` -/

/-- A call of a coroutine whose generator yields finitely many values. -/
structure Inner (U : Type) where
  coroutine : Coroutine U
  frame : coroutine.Frame
  values : List U
  finite : Reaches coroutine frame (.ofList values)

/-- The frame of `flat_map`: `up_steam`, and in the inner loop `generator`, which `f` has returned
for the value `v`. -/
abbrev FlatMapFrame (M : Coroutine T) (f : T → Inner U) : Type :=
  Generator M × Option (Σ v : T, Generator (f v).coroutine)

/-- The loops of `flat_map`, from where the coroutine is started or resumed. -/
def flatMapping (f : T → Inner U) :
    ℕ → FlatMapFrame M f → Option (Resumption (FlatMapFrame M f) U)
  | 0, _ => none
  | n + 1, (up_steam, some ⟨v, generator⟩) =>
      generator.turn n
        (fun u generator => some (.yielded u (up_steam, some ⟨v, generator⟩)))
        (fun generator => some (.returned (up_steam, some ⟨v, generator⟩)))
        (fun _ => flatMapping f n (up_steam, none))
  | n + 1, (up_steam, none) =>
      up_steam.turn n
        (fun v up_steam =>
          (Generator.start n (f v).frame).bind fun generator =>
            flatMapping f n (up_steam, some ⟨v, generator⟩))
        (fun up_steam => some (.returned (up_steam, none)))
        (fun up_steam => some (.returned (up_steam, none)))

variable {f : T → Inner U}

theorem flatMapping_inner (n : ℕ) (up_steam : Generator M) (v : T)
    (generator : Generator (f v).coroutine) :
  flatMapping f (n + 1) (up_steam, some ⟨v, generator⟩) =
    match generator.next n with
    | none => none
    | some (.ok u, generator) => some (.yielded u (up_steam, some ⟨v, generator⟩))
    | some (.error _, _) => flatMapping f n (up_steam, none)
  := by
  rw [flatMapping, Generator.turn_eq]
  cases generator.next n with
  | none => rfl
  | some a => obtain ⟨_ | u, generator⟩ := a <;> rfl

theorem flatMapping_outer (n : ℕ) (up_steam : Generator M) :
  flatMapping f (n + 1) (up_steam, none) =
    match up_steam.next n with
    | none => none
    | some (.ok v, up_steam) =>
        (Generator.start n (f v).frame).bind fun generator =>
          flatMapping f n (up_steam, some ⟨v, generator⟩)
    | some (.error _, up_steam) => some (.returned (up_steam, none))
  := by
  rw [flatMapping, Generator.turn_eq]
  rfl

theorem flatMapping_mono (f : T → Inner U) {m n : ℕ} {x : FlatMapFrame M f}
    {r : Resumption (FlatMapFrame M f) U} (hmn : m ≤ n) (h : flatMapping f m x = some r) :
  flatMapping f n x = some r
  := by
  induction m generalizing n x with
  | zero => contradiction
  | succ m ih =>
      obtain ⟨n, rfl⟩ : ∃ k, n = k + 1 := ⟨n - 1, by omega⟩
      have hle : m ≤ n := by omega
      obtain ⟨up_steam, _ | ⟨v, generator⟩⟩ := x
      · rw [flatMapping_outer] at h ⊢
        cases hnext : up_steam.next m with
        | none =>
            rw [hnext] at h
            contradiction
        | some a =>
            rw [hnext] at h
            rw [Generator.next_mono hle hnext]
            obtain ⟨_ | v, up_steam⟩ := a
            · apply h
            · obtain ⟨generator, hstart, hrest⟩ := Option.bind_eq_some_iff.mp h
              exact Option.bind_eq_some_iff.mpr
                ⟨generator, Generator.start_mono hle hstart, ih hle hrest⟩
      · rw [flatMapping_inner] at h ⊢
        cases hnext : generator.next m with
        | none =>
            rw [hnext] at h
            contradiction
        | some a =>
            rw [hnext] at h
            rw [Generator.next_mono hle hnext]
            obtain ⟨_ | u, generator⟩ := a
            · apply ih hle h
            · apply h

/-- `flat_map` -/
def Coroutine.flat_map (M : Coroutine T) (f : T → Inner U) : Coroutine U where
  Frame := FlatMapFrame M f
  resume := flatMapping f
  resume_mono := flatMapping_mono f

/-- The inner generator has the values `us` left. -/
def Drains : Option (Σ v : T, Generator (f v).coroutine) → List U → Prop
  | none, us => us = []
  | some ⟨_, generator⟩, us => generator.Knows (.ofList us)

/-- What `flat_map` makes of what is known, while the inner generator has the values `us` left. -/
def flattened (f : T → Inner U) (us : List U) (k : Known T) : Known U :=
  (k.flatMap fun v => (f v).values).append us

/-- What a resumption of `flat_map` comes to, in what is known of the values it pulls. -/
def FlatExplains (us : List U) (up_steam : Generator M) : Resumption (FlatMapFrame M f) U → Prop
  | .returned _ => ∃ k, up_steam.Knows k ∧ flattened f us k = .ended
  | .yielded u (up_steam', inner) => ∃ us', Drains inner us' ∧ ∀ k', up_steam'.Knows k' →
      ∃ k, up_steam.Knows k ∧ flattened f us k = .cons u (flattened f us' k')

theorem flatExplains_of_flatMapping {inner : Option (Σ v : T, Generator (f v).coroutine)}
    {us : List U} {r : Resumption (FlatMapFrame M f) U} (hinner : Drains inner us)
    (h : flatMapping f n (up_steam, inner) = some r) :
  FlatExplains us up_steam r
  := by
  induction n generalizing up_steam inner us with
  | zero => contradiction
  | succ n ih =>
      obtain _ | ⟨v, generator⟩ := inner
      · obtain rfl : us = [] := hinner
        rw [flatMapping_outer] at h
        cases hnext : up_steam.next n with
        | none =>
            rw [hnext] at h
            contradiction
        | some a =>
            rw [hnext] at h
            obtain ⟨e | v, up_steam'⟩ := a
            · obtain rfl := Option.some.inj h
              exact ⟨.ended, .ended (Generator.next_throws_iff.mp hnext), rfl⟩
            · obtain ⟨generator, hstart, hrest⟩ := Option.bind_eq_some_iff.mp h
              have hdrains : Drains (some ⟨v, generator⟩) (f v).values :=
                (Generator.knows_start hstart).mpr (f v).finite
              have hrest := ih hdrains hrest
              cases r with
              | returned y =>
                  obtain ⟨k, hk, hend⟩ := hrest
                  exact ⟨.cons v k, .cons hnext hk, hend⟩
              | yielded u y =>
                  obtain ⟨us', hus', hyields⟩ := hrest
                  use us', hus'
                  intro k' hk'
                  obtain ⟨k, hk, hcons⟩ := hyields k' hk'
                  exact ⟨.cons v k, .cons hnext hk, hcons⟩
      · rw [flatMapping_inner] at h
        cases hnext : generator.next n with
        | none =>
            rw [hnext] at h
            contradiction
        | some a =>
            rw [hnext] at h
            obtain ⟨e | u, generator'⟩ := a
            · obtain rfl : us = [] := by
                have hend := Generator.next_throws_iff.mp hnext
                cases us with
                | nil => rfl
                | cons u us => simpa [Known.ofList] using hinner.of_exhausted hend
              have hdrains : Drains (f := f) none [] := rfl
              apply ih hdrains h
            · obtain rfl := Option.some.inj h
              cases us with
              | nil => simpa [Known.ofList] using hinner.of_next hnext
              | cons u' us =>
                  obtain ⟨rfl, hrest⟩ : u' = u ∧ generator'.Knows (.ofList us) := by
                    simpa [Known.ofList] using hinner.of_next hnext
                  use us, hrest
                  intro k' hk'
                  exact ⟨k', hk', rfl⟩

theorem exists_known_of_reaches_flat_map {x : (M.flat_map f).Frame} {us : List U} {out : Known U}
    (h : Reaches (M.flat_map f) x out) (hinner : Drains x.2 us) :
  ∃ k, Generator.Knows x.1 k ∧ out.Le (flattened f us k)
  := by
  induction h generalizing us with
  | unknown => exact ⟨.unknown, .unknown _, .unknown _⟩
  | ended hend =>
      obtain ⟨k, hk, hrun⟩ := flatExplains_of_flatMapping hinner hend
      use k, hk
      rw [hrun]
      apply Known.Le.ended
  | @cons n x y u k hresume _ ih =>
      obtain ⟨us', hus', hyields⟩ := flatExplains_of_flatMapping hinner hresume
      obtain ⟨k', hk', hle⟩ := ih hus'
      obtain ⟨k, hk, hrun⟩ := hyields k' hk'
      use k, hk
      rw [hrun]
      apply Known.Le.cons u hle

/-- The inner loop yields the values that the inner generator has left, and goes on behind them. -/
theorem reaches_of_drains {v : T} {generator : Generator (f v).coroutine} {us : List U}
    {k out : Known U} (hinner : generator.Knows (.ofList us))
    (hbehind : ∀ out : Known U, out.Le k → Reaches (M.flat_map f) (up_steam, none) out)
    (hle : out.Le (k.append us)) :
  Reaches (M.flat_map f) (up_steam, some ⟨v, generator⟩) out
  := by
  induction us generalizing generator out with
  | nil =>
      obtain ⟨m, generator', hend⟩ : ∃ m generator',
          generator.has_next m = some (false, generator') := by
        cases hinner with
        | ended hend => exact ⟨_, _, hend⟩
      apply (hbehind out hle).of_resume
      intro n r hr
      use max n m + 1
      change flatMapping f (max n m + 1) (up_steam, some ⟨v, generator⟩) = _
      rw [flatMapping_inner, Generator.next_mono (Nat.le_max_right n m)
        (Generator.next_throws_iff.mpr hend)]
      apply flatMapping_mono f (Nat.le_max_left n m) hr
  | cons u us ih =>
      cases hle with
      | unknown => apply Reaches.unknown
      | cons _ hrest =>
          obtain ⟨m, generator', hnext, hknows⟩ : ∃ m generator',
              generator.next m = some (.ok u, generator') ∧ generator'.Knows (.ofList us) := by
            cases hinner with
            | cons hnext hknows => exact ⟨_, _, hnext, hknows⟩
          have hresume : (M.flat_map f).resume (m + 1) (up_steam, some ⟨v, generator⟩) =
              some (.yielded u (up_steam, some ⟨v, generator'⟩)) := by
            change flatMapping f (m + 1) (up_steam, some ⟨v, generator⟩) = _
            rw [flatMapping_inner, hnext]
            rfl
          apply Reaches.cons hresume (ih hknows hrest)

theorem reaches_flat_map_of_known {k : Known T} {out : Known U} (hk : up_steam.Knows k)
    (hle : out.Le (k.flatMap fun v => (f v).values)) :
  Reaches (M.flat_map f) (up_steam, none) out
  := by
  induction hk generalizing out with
  | unknown g =>
      cases hle
      apply Reaches.unknown
  | @ended n g g' hend =>
      cases hle with
      | unknown => apply Reaches.unknown
      | ended =>
          have hresume : (M.flat_map f).resume (n + 1) (g, none) =
              some (.returned (g', none)) := by
            change flatMapping f (n + 1) (g, none) = _
            rw [flatMapping_outer, Generator.next_throws_iff.mpr hend]
            rfl
          apply Reaches.ended hresume
  | @cons n g g' v k hnext _ ih =>
      obtain ⟨m, generator, hstart⟩ := Generator.exists_start (f v).finite Known.ofList_ne_unknown
      have hknows := (Generator.knows_start hstart).mpr (f v).finite
      apply (reaches_of_drains hknows (fun _ => ih) hle).of_resume
      intro i r hr
      use max i (max m n) + 1
      change flatMapping f (max i (max m n) + 1) (g, none) = _
      rw [flatMapping_outer, Generator.next_mono (by omega) hnext]
      simp only [Generator.start_mono (show m ≤ max i (max m n) by omega) hstart,
        Option.bind_some]
      apply flatMapping_mono f (by omega) hr

/-- What is known of `flat_map` are the values of the inner generators, one after the other. -/
theorem reaches_flat_map_iff {out : Known U} :
  Reaches (M.flat_map f) (up_steam, none) out ↔
    ∃ k, up_steam.Knows k ∧ out.Le (k.flatMap fun v => (f v).values)
  := by
  constructor
  · intro h
    apply exists_known_of_reaches_flat_map h rfl
  · rintro ⟨k, hk, hle⟩
    apply reaches_flat_map_of_known hk hle

end Koroutine
