import Mathlib.Algebra.Ring.Nat
import Mathlib.Data.Set.Defs
import Mathlib.Data.List.Basic
import Mathlib.Tactic.Use
import Mathlib.Tactic.Common

/-!
# Runs of a step function

A system is given by a step function `step : σ → α → Option σ`: the label `a` resolves every
choice the system and its environment have, and `step s a = none` when `a` is not enabled in
`s`. `Run step P s as t` is a run from `s` along the labels `as` to `t` whose every step
satisfies `P`, a predicate of the state before, the label, and the state after.

A run of the system as it is has `P = Free`; a run whose steps meet a condition `C` on the
label and the state before has `P = Meets C`; a run whose every state after a step satisfies
`Q` has `P = Visits Q`.
-/

universe u v w x

namespace Transition

variable {σ : Type u} {α : Type v}

/-- A run from `s` along `as` to `t`, each of whose steps satisfies `P`. -/
inductive Run (step : σ → α → Option σ) (P : σ → α → σ → Prop) : σ → List α → σ → Prop
  | nil (s : σ) : Run step P s [] s
  | snoc {s t u : σ} {as : List α} {a : α} (run : Run step P s as t)
      (enabled : step t a = some u) (meets : P t a u) : Run step P s (as ++ [a]) u

/-- No condition on steps. -/
def Free : σ → α → σ → Prop := fun _ _ _ => True

/-- The condition `C` on the state before a step and its label. -/
def Meets (C : σ → α → Prop) : σ → α → σ → Prop := fun s a _ => C s a

/-- The condition `Q` on the state after a step. -/
def Visits (Q : σ → Prop) : σ → α → σ → Prop := fun _ _ t => Q t

namespace Run

variable {step : σ → α → Option σ} {P P' : σ → α → σ → Prop} {s t u : σ} {as bs : List α}

/-- A run of one step. -/
theorem single {a : α} (h : step s a = some t) (hP : P s a t) :
  Run step P s [a] t
  := .snoc (.nil s) h hP

/-- Runs compose. -/
theorem trans (h : Run step P s as t) (h' : Run step P t bs u) :
  Run step P s (as ++ bs) u
  := by
  induction h' with
  | nil =>
      rw [List.append_nil]
      apply h
  | snoc _ e m ih =>
      rw [← List.append_assoc]
      apply snoc ih e m

theorem eq_of_nil (h : Run step P s [] t) :
  t = s
  := by
  generalize hbs : ([] : List α) = bs at h
  cases h with
  | nil => rfl
  | snoc => simp at hbs

/-- A run takes its first step, and goes on from there. -/
theorem of_cons {a : α} (h : Run step P s (a :: as) u) :
  ∃ t, step s a = some t ∧ P s a t ∧ Run step P t as u
  := by
  generalize hbs : a :: as = bs at h
  induction h generalizing as with
  | nil => contradiction
  | @snoc t u bs b r e m ih =>
      cases bs with
      | nil =>
          obtain ⟨rfl, rfl⟩ : a = b ∧ as = [] := by simpa using hbs
          obtain rfl := r.eq_of_nil
          exact ⟨u, e, m, .nil u⟩
      | cons c bs =>
          obtain ⟨rfl, rfl⟩ : a = c ∧ as = bs ++ [b] := by simpa using hbs
          obtain ⟨t', e', m', r'⟩ := ih rfl
          exact ⟨t', e', m', .snoc r' e m⟩

/-- A run whose steps satisfy `P` satisfies what `P` implies. -/
theorem mono (hP : ∀ t a u, P t a u → P' t a u) (h : Run step P s as t) :
  Run step P' s as t
  := by
  induction h with
  | nil => apply nil
  | snoc _ e m ih => apply snoc ih e (hP _ _ _ m)

/-- Every run is a run without conditions. -/
theorem free (h : Run step P s as t) :
  Run step Free s as t
  := h.mono fun _ _ _ _ => trivial

/-- A predicate that every step of the run preserves holds at its end. -/
theorem invariant (I : σ → Prop)
    (hI : ∀ t a u, I t → P t a u → step t a = some u → I u)
    (h : Run step P s as t) (hs : I s) :
  I t
  := by
  induction h with
  | nil => apply hs
  | snoc _ e m ih => apply hI _ _ _ ih m e

/-- A predicate of the labels so far and the state that every step preserves holds at its end. -/
theorem invariant_along (I : List α → σ → Prop)
    (hI : ∀ as t a u, I as t → P t a u → step t a = some u → I (as ++ [a]) u)
    (h : Run step P s as t) (hs : I [] s) :
  I as t
  := by
  induction h with
  | nil => apply hs
  | snoc _ e m ih => apply hI _ _ _ _ ih m e

/-- A run whose labels satisfy `C` wherever they are taken. -/
theorem meets_of_labels {C : σ → α → Prop} (h : Run step P s as t) (hC : ∀ a ∈ as, ∀ t, C t a) :
  Run step (Meets C) s as t
  := by
  induction h with
  | nil => apply nil
  | @snoc t u as a _ e _ ih =>
      have hbefore : ∀ b ∈ as, ∀ t, C t b := by
        intro b hb
        apply hC b (List.mem_append_left _ hb)
      apply snoc (ih hbefore) e
      apply hC a (by simp)

/-- What a function of the state is at the end of a run, it has been since the beginning, or has
become in a step of the run. -/
theorem last_change {γ : Type w} (f : σ → γ) (h : Run step P s as t) :
  f t = f s ∨ ∃ bs a cs u v, as = bs ++ a :: cs ∧ Run step P s bs u ∧ step u a = some v ∧
    f v ≠ f u ∧ f t = f v
  := by
  induction h with
  | nil => exact .inl rfl
  | @snoc t u as a r e _ ih =>
      by_cases hsame : f u = f t
      · rw [hsame]
        obtain hstart | ⟨bs, b, cs, v, w, rfl, hbefore, hstep, hne, heq⟩ := ih
        · exact .inl hstart
        · right
          refine ⟨bs, b, cs ++ [a], v, w, ?_, hbefore, hstep, hne, heq⟩
          simp
      · right
        exact ⟨as, a, [], t, u, rfl, r, e, hsame, rfl⟩

/-- In a run that preserves `I`, every step may be assumed to start in `I`. -/
theorem strengthen (I : σ → Prop)
    (hI : ∀ t a u, I t → P t a u → step t a = some u → I u)
    (hP : ∀ t a u, I t → P t a u → step t a = some u → P' t a u)
    (h : Run step P s as t) (hs : I s) :
  Run step P' s as t
  := by
  induction h with
  | nil => apply nil
  | snoc r e m ih => apply snoc ih e (hP _ _ _ (r.invariant I hI hs) m e)

/-- A rank that every step lowers by at least one, up to a credit the label brings, bounds the
length of a run by the rank at its start and the credits along it. -/
theorem length_le_of_rank {I : σ → ℕ → Prop} (credit : α → ℕ)
    (hI : ∀ t a u n, I t n → P t a u → step t a = some u → ∃ m, I u m ∧ m + 1 ≤ n + credit a)
    (h : Run step P s as t) {n : ℕ} (hs : I s n) :
  ∃ m, I t m ∧ as.length + m ≤ n + (as.map credit).sum
  := by
  induction h with
  | nil =>
      use n
      simpa using hs
  | snoc r e m ih =>
      obtain ⟨k, hk, hlength⟩ := ih
      obtain ⟨l, hl, hlower⟩ := hI _ _ _ _ hk m e
      use l, hl
      simp only [List.length_append, List.length_singleton, List.map_append, List.map_singleton,
        List.sum_append, List.sum_singleton]
      omega

/-- Two conditions on steps that come to the same in every state of an invariant have the same
runs. -/
theorem congr (I : σ → Prop) (hI : ∀ t a u, I t → P t a u → step t a = some u → I u)
    (hP : ∀ t a u, I t → step t a = some u → (P t a u ↔ P' t a u)) (hs : I s) :
  Run step P s as t ↔ Run step P' s as t
  := by
  constructor
  · intro h
    apply h.strengthen I hI _ hs
    intro t a u hi hp e
    apply (hP t a u hi e).mp hp
  · intro h
    apply h.strengthen I _ _ hs
    · intro t a u hi hp e
      apply hI t a u hi ((hP t a u hi e).mpr hp) e
    · intro t a u hi hp e
      apply (hP t a u hi e).mpr hp

/-- Where breaking the condition `C` is noticed in the very next state, and keeping it
preserves an invariant that implies `Q`, a run visits only states satisfying `Q` exactly when
each of its steps meets `C`. -/
theorem visits_iff_meets {C : σ → α → Prop} {Q : σ → Prop} (I : σ → Prop)
    (hI : ∀ t a u, I t → C t a → step t a = some u → I u)
    (good : ∀ t, I t → Q t)
    (bad : ∀ t a u, I t → ¬ C t a → step t a = some u → ¬ Q u) (hs : I s) :
  Run step (Visits Q) s as t ↔ Run step (Meets C) s as t
  := by
  symm
  apply congr I hI _ hs
  intro t a u hi e
  constructor
  · intro hc
    apply good u (hI t a u hi hc e)
  · intro hq
    by_contra hc
    apply bad t a u hi hc e hq

/-- A run either meets `C` throughout and keeps the invariant `I`, or has broken `C` and has got
into `J`, which no step leaves. -/
theorem meets_or_spoiled {C : σ → α → Prop} (I J : σ → Prop)
    (hI : ∀ t a u, I t → C t a → step t a = some u → I u)
    (spoil : ∀ t a u, I t → ¬ C t a → step t a = some u → J u)
    (hJ : ∀ t a u, J t → step t a = some u → J u)
    (h : Run step Free s as t) (hs : I s) :
  (Run step (Meets C) s as t ∧ I t) ∨ J t
  := by
  induction h with
  | nil =>
      left
      constructor
      · apply nil
      · apply hs
  | @snoc t u as a r e m ih =>
      obtain ⟨hr, hi⟩ | hj := ih
      · by_cases hc : C t a
        · left
          constructor
          · apply snoc hr e hc
          · apply hI _ _ _ hi hc e
        · right
          apply spoil _ _ _ hi hc e
      · right
        apply hJ _ _ _ hj e

/-- A run that takes a step into `J`, which no step leaves, ends in it. -/
theorem of_mem {I J : σ → Prop} {a : α}
    (hI : ∀ t b u, I t → P t b u → step t b = some u → I u)
    (enter : ∀ t u, I t → step t a = some u → J u)
    (hJ : ∀ t b u, J t → step t b = some u → J u)
    (h : Run step P s as t) (hs : I s) (ha : a ∈ as) :
  J t
  := by
  induction h with
  | nil => contradiction
  | snoc r e m ih =>
      obtain hbefore | rfl : a ∈ _ ∨ a = _ := by simpa using ha
      · apply hJ _ _ _ (ih hbefore) e
      · apply enter _ _ (r.invariant I hI hs) e

end Run

/-! ### Keeping the labels -/

/-- The system that remembers the labels of its run. -/
def logged (step : σ → α → Option σ) (x : List α × σ) (a : α) : Option (List α × σ) :=
  (step x.2 a).map fun t => (x.1 ++ [a], t)

theorem logged_eq_some {step : σ → α → Option σ} {x y : List α × σ} {a : α} :
  logged step x a = some y ↔ y.1 = x.1 ++ [a] ∧ step x.2 a = some y.2
  := by
  unfold logged
  constructor
  · intro h
    obtain ⟨t, ht, rfl⟩ := Option.map_eq_some_iff.mp h
    exact ⟨rfl, ht⟩
  · intro ⟨hlabels, hstep⟩
    rw [hstep, Option.map_some, ← hlabels]

/-- The system that keeps notes of its run. -/
def noted {η : Type*} (step : σ → α → Option σ) (note : σ → α → η → η) (x : η × σ) (a : α) :
    Option (η × σ) :=
  (step x.2 a).map fun t => (note x.2 a x.1, t)

theorem noted_eq_some {η : Type*} {step : σ → α → Option σ} {note : σ → α → η → η} {x y : η × σ}
    {a : α} :
  noted step note x a = some y ↔ y.1 = note x.2 a x.1 ∧ step x.2 a = some y.2
  := by
  unfold noted
  constructor
  · intro h
    obtain ⟨t, ht, rfl⟩ := Option.map_eq_some_iff.mp h
    exact ⟨rfl, ht⟩
  · intro ⟨hnotes, hstep⟩
    rw [hstep, Option.map_some, ← hnotes]

/-! ### Executing labels -/

/-- The state reached from `s` along `as`, if every label is enabled in its turn. -/
def exec (step : σ → α → Option σ) : σ → List α → Option σ
  | s, [] => some s
  | s, a :: as => (step s a).bind fun t => exec step t as

/-- The step function that is enabled only where `C` holds. -/
def guarded (step : σ → α → Option σ) (C : σ → α → Prop) [∀ s a, Decidable (C s a)] :
    σ → α → Option σ :=
  fun s a => if C s a then step s a else none

theorem run_of_exec_guarded {step : σ → α → Option σ} {C : σ → α → Prop}
    [∀ s a, Decidable (C s a)] :
  ∀ {as : List α} {s t : σ}, exec (guarded step C) s as = some t →
    Run step (Meets C) s as t
  | [], s, t, h => by
      obtain rfl : s = t := by simpa [exec] using h
      apply Run.nil
  | a :: as, s, t, h => by
      obtain ⟨u, hu, ht⟩ := Option.bind_eq_some_iff.mp h
      have hC : C s a := by
        by_contra hC
        simp [guarded, hC] at hu
      simp only [guarded, hC, if_true] at hu
      apply Run.trans (Run.single hu hC) (run_of_exec_guarded ht)

theorem run_of_exec {step : σ → α → Option σ} {s t : σ} {as : List α}
    (h : exec step s as = some t) :
  Run step Free s as t
  := by
  have hg : guarded step (fun _ _ => True) = step := by
    funext s a
    simp [guarded]
  apply Run.free (P := Meets fun _ _ => True)
  apply run_of_exec_guarded
  rw [hg]
  apply h

/-- Labels whose execution ends in a state satisfying `Q` are those of a run to such a state. -/
theorem exists_run_of_exec {step : σ → α → Option σ} {s : σ} {as : List α} {Q : σ → Prop}
    [DecidablePred Q] (h : (exec step s as).any (fun t => Q t) = true) :
  ∃ t, Run step Free s as t ∧ Q t
  := by
  obtain ⟨t, ht, hq⟩ := (Option.any_eq_true _ _).mp h
  use t
  constructor
  · apply run_of_exec ht
  · simpa using hq

/-- Labels that meet `C` in their turn, and whose execution ends in a state satisfying `Q`, are
those of a run meeting `C` to such a state. -/
theorem exists_run_of_exec_guarded {step : σ → α → Option σ} {C : σ → α → Prop}
    [∀ s a, Decidable (C s a)] {s : σ} {as : List α} {Q : σ → Prop} [DecidablePred Q]
    (h : (exec (guarded step C) s as).any (fun t => Q t) = true) :
  ∃ t, Run step (Meets C) s as t ∧ Q t
  := by
  obtain ⟨t, ht, hq⟩ := (Option.any_eq_true _ _).mp h
  use t
  constructor
  · apply run_of_exec_guarded ht
  · simpa using hq

/-! ### Simulation -/

/-- When every step of one system that satisfies `P` is, through `abs`, a run of another whose
steps satisfy `P'`, runs of the first become runs of the second. -/
theorem Run.simulate {τ : Type w} {β : Type x}
    {step : σ → α → Option σ} {step' : τ → β → Option τ}
    {P : σ → α → σ → Prop} {P' : τ → β → τ → Prop} (abs : σ → τ) (I : σ → Prop)
    (hI : ∀ t a u, I t → P t a u → step t a = some u → I u)
    (sim : ∀ t a u, I t → P t a u → step t a = some u →
      ∃ bs, Run step' P' (abs t) bs (abs u))
    {s t : σ} {as : List α} (h : Run step P s as t) (hs : I s) :
  ∃ bs, Run step' P' (abs s) bs (abs t)
  := by
  induction h with
  | nil =>
      use []
      apply Run.nil
  | snoc r e m ih =>
      obtain ⟨bs, hb⟩ := ih
      obtain ⟨bs', hb'⟩ := sim _ _ _ (r.invariant I hI hs) m e
      use bs ++ bs'
      apply hb.trans hb'

/-- When every step of one system is, through `abs`, the step of another with the same label, the
runs of the first are runs of the second. -/
theorem Run.refine {τ : Type w} {step : σ → α → Option σ} {step' : τ → α → Option τ}
    {P : σ → α → σ → Prop} (abs : σ → τ) (I : σ → Prop)
    (hI : ∀ t a u, I t → P t a u → step t a = some u → I u)
    (sim : ∀ t a u, I t → P t a u → step t a = some u → step' (abs t) a = some (abs u))
    {s t : σ} {as : List α} (h : Run step P s as t) (hs : I s) :
  Run step' Free (abs s) as (abs t)
  := by
  induction h with
  | nil => apply nil
  | snoc r e m ih => exact snoc ih (sim _ _ _ (r.invariant I hI hs) m e) trivial

/-- A step that leaves the state of the other system as it is. -/
theorem Run.stutter {τ : Type w} {β : Type x} {step' : τ → β → Option τ}
    {P' : τ → β → τ → Prop} {x y : τ} (h : y = x) :
  ∃ bs, Run step' P' x bs y
  := by
  use []
  rw [h]
  apply Run.nil

end Transition
