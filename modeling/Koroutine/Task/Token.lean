import Koroutine.Transition.Run
import Mathlib.Data.List.Range
import Mathlib.Data.Nat.Notation
import Mathlib.Logic.Function.Basic

/-!
# `CancellationToken`

Copies of a token share a flag, a mutex and a list of callbacks.  `on_cancel` runs its callback at
once where the flag is set, and adds it to the list otherwise.  `cancel` sets the flag, and if it
was not set runs the callbacks of the list in their order, whatever they throw, and clears it.
`reset` takes the flag back and clears the list.  All three hold the mutex; `is_cancelled` only
reads the flag.

Registrations are numbered, and `reset` begins a new period.  For every period the model records
which callbacks have been registered, which have run, and whether `cancel` has been called.
-/

open Transition

namespace Koroutine

namespace Token

/-- The calls that lock the mutex. -/
inductive Call
  | on_cancel
  | cancel
  | reset
  deriving DecidableEq

/-- Where a thread is. -/
inductive Pc
  | idle
  /-- About to lock the mutex. -/
  | locking (call : Call)
  /-- Holding it, as in the following ones. -/
  | locked (call : Call)
  /-- In `on_cancel`, which has found the flag not set. -/
  | pushing (n : ℕ)
  /-- In `on_cancel`, which has found the flag set. -/
  | invoking (n : ℕ)
  /-- In the loop of `cancel`, with these callbacks still to call. -/
  | notifying (todo : List ℕ)
  /-- In `reset`, which has taken back the flag. -/
  | resetting
  /-- At the end of the call, which a callback has left by an exception or not. -/
  | unlocking (threw : Bool)
  | returned (threw : Bool)
  deriving DecidableEq

/-- The callbacks registered and run in a period, and whether the token has been cancelled in it. -/
structure Period where
  registered : List ℕ
  ran : List ℕ
  cancelled : Bool
  deriving DecidableEq

/-- The token, the threads, the number of registrations, and the periods. -/
structure State where
  cancelled : Bool
  mtx : Option ℕ
  callbacks : List ℕ
  pc : ℕ → Pc
  issued : ℕ
  now : Period
  past : List Period

/-- The steps: a thread makes a call, or goes on; a callback that it calls then throws or not. -/
inductive Label
  | call (c : ℕ) (call : Call)
  | go (c : ℕ) (threw : Bool)
  deriving DecidableEq

/-- A new token. -/
def initial : State where
  cancelled := false
  mtx := none
  callbacks := []
  pc := fun _ => .idle
  issued := 0
  now := ⟨[], [], false⟩
  past := []

namespace State

/-- `is_cancelled` -/
def isCancelled (s : State) : Bool := s.cancelled

/-- A thread goes on. -/
def goTo (s : State) (c : ℕ) (pc : Pc) : State :=
  { s with pc := Function.update s.pc c pc }

/-- A callback is registered. -/
def register (s : State) : State :=
  { s with issued := s.issued + 1, now := { s.now with registered := s.now.registered ++ [s.issued] } }

/-- A callback is called. -/
def invoke (s : State) (n : ℕ) : State :=
  { s with now := { s.now with ran := s.now.ran ++ [n] } }

end State

/-- `on_cancel`, holding the mutex. -/
def onCancel (s : State) (c : ℕ) : State :=
  s.register.goTo c (if s.cancelled then .invoking s.issued else .pushing s.issued)

/-- `cancel`, holding the mutex. -/
def cancel (s : State) (c : ℕ) : State :=
  { s.goTo c (if s.cancelled then .unlocking false else .notifying s.callbacks) with
    cancelled := true, now := { s.now with cancelled := true } }

/-- `reset`, holding the mutex. -/
def reset (s : State) (c : ℕ) : State :=
  { s.goTo c .resetting with
    cancelled := false, past := s.past ++ [s.now], now := ⟨[], [], false⟩ }

/-- The next step of a thread in a call. -/
def goStep (s : State) (c : ℕ) (threw : Bool) : Option State :=
  match s.pc c with
  | .idle | .returned _ => none
  | .locking call =>
      if s.mtx = none then some { s.goTo c (.locked call) with mtx := some c } else none
  | .locked .on_cancel => some (onCancel s c)
  | .locked .cancel => some (cancel s c)
  | .locked .reset => some (reset s c)
  | .pushing n => some { s.goTo c (.unlocking false) with callbacks := s.callbacks ++ [n] }
  | .invoking n => some ((s.invoke n).goTo c (.unlocking threw))
  -- what the callback throws is caught
  | .notifying (n :: todo) => some ((s.invoke n).goTo c (.notifying todo))
  | .notifying [] | .resetting => some { s.goTo c (.unlocking false) with callbacks := [] }
  | .unlocking threw' => some { s.goTo c (.returned threw') with mtx := none }

/-- The step function. -/
def step (s : State) : Label → Option State
  | .call c call =>
      match s.pc c with
      | .idle | .returned _ => some (s.goTo c (.locking call))
      | _ => none
  | .go c threw => goStep s c threw

/-! ### The holder of the mutex -/

/-- The thread holds the mutex. -/
def Pc.holds : Pc → Bool
  | .idle | .locking _ | .returned _ => false
  | _ => true

/-- What the flag, the list and the current period are, by where the holder of the mutex is. -/
def Pc.Fits (cancelled : Bool) (callbacks : List ℕ) (now : Period) : Pc → Prop
  | .idle | .locking _ | .locked _ | .unlocking _ | .returned _ =>
      now.cancelled = cancelled ∧ now.ran = (if cancelled then now.registered else []) ∧
        callbacks = if cancelled then [] else now.registered
  | .pushing n =>
      cancelled = false ∧ now.cancelled = false ∧ now.ran = [] ∧ now.registered = callbacks ++ [n]
  | .invoking n =>
      cancelled = true ∧ now.cancelled = true ∧ callbacks = [] ∧ now.registered = now.ran ++ [n]
  | .notifying todo =>
      cancelled = true ∧ now.cancelled = true ∧ now.registered = now.ran ++ todo
  | .resetting => cancelled = false ∧ now = ⟨[], [], false⟩

/-- Where the holder of the mutex is. -/
def State.holder (s : State) : Pc := s.mtx.elim .idle s.pc

/-- At most the thread that has locked the mutex is in the part of a call that holds it; the
callbacks of the periods that are over have all run, or none of them; and every number has been
given once. -/
structure Orderly (s : State) : Prop where
  holds : ∀ c, (s.pc c).holds = true ↔ s.mtx = some c
  fits : s.holder.Fits s.cancelled s.callbacks s.now
  past : ∀ p ∈ s.past, p.ran = if p.cancelled then p.registered else []
  numbers : s.past.flatMap Period.registered ++ s.now.registered = List.range s.issued

theorem Orderly.initial :
  Orderly initial
  where
  holds c := by simp [Token.initial, Pc.holds]
  fits := by simp [Token.initial, State.holder, Pc.Fits]
  past _ h := by contradiction
  numbers := rfl

variable {s t : State} {c : ℕ}

/-- A thread goes on; the mutex is held by another thread exactly if it was before. -/
theorem Orderly.holds_goTo {pc : Pc} (hs : Orderly s) (ht : t.pc = Function.update s.pc c pc)
    (hown : pc.holds = true ↔ t.mtx = some c)
    (hothers : ∀ c', c' ≠ c → (t.mtx = some c' ↔ s.mtx = some c')) (c' : ℕ) :
  (t.pc c').holds = true ↔ t.mtx = some c'
  := by
  rw [ht]
  by_cases hc : c' = c
  · rw [hc, Function.update_self]
    apply hown
  · rw [Function.update_of_ne hc, hothers c' hc]
    apply hs.holds

/-- The holder of the mutex goes on. -/
theorem Orderly.keep {pc : Pc} (hs : Orderly s) (hmtx : s.mtx = some c) (hpc : pc.holds = true)
    (hfits : pc.Fits t.cancelled t.callbacks t.now) (ht : t.pc = Function.update s.pc c pc)
    (htmtx : t.mtx = s.mtx) (hpast : ∀ p ∈ t.past, p.ran = if p.cancelled then p.registered else [])
    (hnumbers : t.past.flatMap Period.registered ++ t.now.registered = List.range t.issued) :
  Orderly t
  where
  holds := by
    apply hs.holds_goTo ht
    · simp [hpc, htmtx, hmtx]
    · intro c' _
      rw [htmtx]
  fits := by
    rw [State.holder, htmtx, hmtx, ht]
    simpa using hfits
  past := hpast
  numbers := hnumbers

/-- A thread that does not hold the mutex makes a call. -/
theorem Orderly.call {call : Call} (hs : Orderly s) (hnot : (s.pc c).holds = false) :
  Orderly (s.goTo c (.locking call))
  where
  holds := by
    apply hs.holds_goTo (c := c) rfl
    · change _ ↔ s.mtx = some c
      rw [← hs.holds, hnot]
      simp [Pc.holds]
    · exact fun _ _ => Iff.rfl
  fits := by
    have hfits := hs.fits
    cases hmtx : s.mtx with
    | none => simpa [State.holder, State.goTo, hmtx] using hfits
    | some c' =>
        have hne : c' ≠ c := by
          rintro rfl
          rw [← hs.holds, hnot] at hmtx
          contradiction
        simpa [State.holder, State.goTo, hmtx, hne] using hfits
  past := hs.past
  numbers := hs.numbers

/-- A thread locks the mutex, and leaves the token as it is. -/
theorem Orderly.lock {call : Call} (hs : Orderly s) (hfree : s.mtx = none) :
  Orderly { s.goTo c (.locked call) with mtx := some c }
  where
  holds := by
    apply hs.holds_goTo (c := c) rfl
    · simp [Pc.holds]
    · intro c' hc
      simp [hfree, Ne.symm hc]
  fits := by
    have hfits := hs.fits
    rw [State.holder, hfree] at hfits
    simp only [State.holder, State.goTo, Option.elim_some, Function.update_self]
    apply hfits
  past := hs.past
  numbers := hs.numbers

/-- The holder unlocks the mutex. -/
theorem Orderly.unlock {threw threw' : Bool} (hs : Orderly s) (hmtx : s.mtx = some c)
    (hpc : s.pc c = .unlocking threw) :
  Orderly { s.goTo c (.returned threw') with mtx := none }
  where
  holds := by
    apply hs.holds_goTo (c := c) rfl
    · simp [Pc.holds]
    · intro c' hc
      simp [hmtx, Ne.symm hc]
  fits := by
    have hfits := hs.fits
    simp only [State.holder, hmtx, Option.elim_some, hpc] at hfits
    apply hfits
  past := hs.past
  numbers := hs.numbers

/-- The flag, the list and the current period where a thread that holds the mutex is. -/
theorem Orderly.fits_of_holds (hs : Orderly s) (hpc : (s.pc c).holds = true) :
  s.mtx = some c ∧ (s.pc c).Fits s.cancelled s.callbacks s.now
  := by
  have hmtx := (hs.holds c).mp hpc
  have hfits := hs.fits
  rw [State.holder, hmtx] at hfits
  exact ⟨hmtx, hfits⟩

/-- A call begins, holding the mutex. -/
theorem Orderly.enter {call : Call} {threw : Bool} (hs : Orderly s) (hpc : s.pc c = .locked call)
    (h : goStep s c threw = some t) :
  Orderly t
  := by
  obtain ⟨hmtx, hfits⟩ := hs.fits_of_holds (c := c) (by rw [hpc]; rfl)
  rw [hpc] at hfits
  obtain ⟨hflag, hran, hcallbacks⟩ := hfits
  cases call with
  | on_cancel =>
      simp only [goStep, hpc, Option.some.injEq] at h
      subst h
      refine hs.keep hmtx ?_ ?_ rfl rfl hs.past ?_
      · split <;> rfl
      · cases hcancelled : s.cancelled <;>
          simp_all [onCancel, State.register, State.goTo, Pc.Fits]
      · simp only [onCancel, State.register, State.goTo]
        rw [← List.append_assoc, hs.numbers, List.range_succ]
  | cancel =>
      simp only [goStep, hpc, Option.some.injEq] at h
      subst h
      refine hs.keep hmtx ?_ ?_ rfl rfl hs.past hs.numbers
      · split <;> rfl
      · cases hcancelled : s.cancelled <;> simp_all [cancel, State.goTo, Pc.Fits]
  | reset =>
      simp only [goStep, hpc, Option.some.injEq] at h
      subst h
      refine hs.keep hmtx rfl ?_ rfl rfl ?_ ?_
      · simp [reset, State.goTo, Pc.Fits]
      · intro p hp
        obtain hbefore | hnow := List.mem_append.mp hp
        · apply hs.past p hbefore
        · rw [List.mem_singleton.mp hnow, hflag]
          apply hran
      · simpa [reset, State.goTo] using hs.numbers

theorem Orderly.goStep {threw : Bool} (hs : Orderly s) (h : goStep s c threw = some t) :
  Orderly t
  := by
  have hfits := hs.fits_of_holds (c := c)
  cases hpc : s.pc c with
  | idle | returned _ => simp [Token.goStep, hpc] at h
  | locking call =>
      simp only [Token.goStep, hpc, Option.ite_none_right_eq_some, Option.some.injEq] at h
      obtain ⟨hfree, rfl⟩ := h
      apply hs.lock hfree
  | locked call => apply hs.enter hpc h
  | pushing n =>
      rw [hpc] at hfits
      obtain ⟨hmtx, hflag, hnow, hran, hregistered⟩ := hfits rfl
      simp only [Token.goStep, hpc, Option.some.injEq] at h
      subst h
      refine hs.keep hmtx rfl ?_ rfl rfl hs.past hs.numbers
      simp [State.goTo, Pc.Fits, hflag, hnow, hran, hregistered]
  | invoking n =>
      rw [hpc] at hfits
      obtain ⟨hmtx, hflag, hnow, hcallbacks, hregistered⟩ := hfits rfl
      simp only [Token.goStep, hpc, Option.some.injEq] at h
      subst h
      refine hs.keep hmtx rfl ?_ rfl rfl hs.past hs.numbers
      simp [State.goTo, State.invoke, Pc.Fits, hflag, hnow, hcallbacks, hregistered]
  | notifying todo =>
      rw [hpc] at hfits
      obtain ⟨hmtx, hflag, hnow, hregistered⟩ := hfits rfl
      cases todo with
      | nil =>
          simp only [Token.goStep, hpc, Option.some.injEq] at h
          subst h
          refine hs.keep hmtx rfl ?_ rfl rfl hs.past hs.numbers
          simp [State.goTo, Pc.Fits, hflag, hnow, hregistered]
      | cons n todo =>
          simp only [Token.goStep, hpc, Option.some.injEq] at h
          subst h
          refine hs.keep hmtx rfl ?_ rfl rfl hs.past hs.numbers
          simp [State.goTo, State.invoke, Pc.Fits, hflag, hnow, hregistered]
  | resetting =>
      rw [hpc] at hfits
      obtain ⟨hmtx, hflag, hnow⟩ := hfits rfl
      simp only [Token.goStep, hpc, Option.some.injEq] at h
      subst h
      refine hs.keep hmtx rfl ?_ rfl rfl hs.past hs.numbers
      simp [State.goTo, Pc.Fits, hflag, hnow]
  | unlocking threw' =>
      rw [hpc] at hfits
      simp only [Token.goStep, hpc, Option.some.injEq] at h
      subst h
      apply hs.unlock (hfits rfl).1 hpc

theorem Orderly.step {a : Label} (hs : Orderly s) (h : step s a = some t) :
  Orderly t
  := by
  cases a with
  | call c call =>
      cases hpc : s.pc c with
      | idle | returned _ =>
          simp only [Token.step, hpc, Option.some.injEq] at h
          subst h
          apply hs.call
          rw [hpc]
          rfl
      | locking _ | locked _ | pushing _ | invoking _ | notifying _ | resetting | unlocking _ =>
          simp [Token.step, hpc] at h
  | go c threw => apply hs.goStep h

theorem orderly_of_run {as : List Label} (h : Run step Free initial as s) :
  Orderly s
  := by
  apply h.invariant Orderly
  · intro s a t hs _ e
    apply hs.step e
  · apply Orderly.initial

/-! ### What runs -/

/-- What holds of the callbacks at any time. -/
structure Sound (s : State) : Prop where
  /-- In a period that is over all callbacks have run in their order, or none has. -/
  past : ∀ p ∈ s.past, p.ran = if p.cancelled then p.registered else []
  /-- In the current one none has if the token has not been cancelled in it. -/
  never : s.now.cancelled = false → s.now.ran = []
  order : s.now.ran <+: s.now.registered
  /-- If it has, all have run whenever the mutex is free, -/
  all : s.now.cancelled = true → s.mtx = none → s.now.ran = s.now.registered
  /-- and otherwise one that has not is about to be run by the call that registers it, or by the first
  call of `cancel`. -/
  late : s.now.cancelled = true → ∀ n ∈ s.now.registered, n ∉ s.now.ran →
    ∃ c, s.mtx = some c ∧ (s.pc c = .invoking n ∨ ∃ todo, s.pc c = .notifying todo ∧ n ∈ todo)
  /-- A callback is registered in one period. -/
  distinct : (s.past.flatMap Period.registered ++ s.now.registered).Nodup
  flag : s.isCancelled = s.now.cancelled

theorem Orderly.sound (hs : Orderly s) :
  Sound s
  := by
  have hfits := hs.fits
  constructor
  case past => apply hs.past
  case distinct =>
    rw [hs.numbers]
    apply List.nodup_range
  case flag =>
    cases hpc : s.holder <;> rw [hpc] at hfits <;> simp_all [Pc.Fits, State.isCancelled]
  case never =>
    intro hcancelled
    cases hpc : s.holder <;> rw [hpc] at hfits <;> simp_all [Pc.Fits]
  case order =>
    cases hpc : s.holder with
    | idle | locking _ | locked _ | unlocking _ | returned _ =>
        rw [hpc] at hfits
        rw [hfits.2.1]
        split
        · apply List.prefix_refl
        · apply List.nil_prefix
    | pushing n =>
        rw [hpc] at hfits
        rw [hfits.2.2.1]
        apply List.nil_prefix
    | invoking n =>
        rw [hpc] at hfits
        rw [hfits.2.2.2]
        apply List.prefix_append
    | notifying todo =>
        rw [hpc] at hfits
        rw [hfits.2.2]
        apply List.prefix_append
    | resetting =>
        rw [hpc] at hfits
        rewrite [hfits.2]
        apply List.prefix_refl
  case all =>
    intro hcancelled hfree
    rw [State.holder, hfree] at hfits
    rw [hfits.2.1, if_pos]
    rw [← hfits.1, hcancelled]
  case late =>
    intro hcancelled n hregistered hran
    have hnot : ¬ Pc.idle.Fits s.cancelled s.callbacks s.now := by
      intro hsettled
      apply hran
      rw [hsettled.2.1, if_pos]
      · apply hregistered
      · rw [← hsettled.1, hcancelled]
    cases hmtx : s.mtx with
    | none =>
        rw [State.holder, hmtx] at hfits
        apply absurd hfits hnot
    | some c =>
        rw [State.holder, hmtx, Option.elim_some] at hfits
        refine ⟨c, rfl, ?_⟩
        cases hpc : s.pc c with
        | idle | locking _ | locked _ | unlocking _ | returned _ =>
            rw [hpc] at hfits
            apply absurd hfits hnot
        | pushing m =>
            rw [hpc] at hfits
            rw [hfits.2.1] at hcancelled
            contradiction
        | invoking m =>
            rw [hpc] at hfits
            rw [hfits.2.2.2] at hregistered
            obtain rfl : n = m := by simpa [hran] using hregistered
            exact .inl rfl
        | notifying todo =>
            rw [hpc] at hfits
            rw [hfits.2.2] at hregistered
            refine .inr ⟨todo, rfl, ?_⟩
            simpa [hran] using hregistered
        | resetting =>
            rw [hpc] at hfits
            rw [hfits.2] at hcancelled
            contradiction

/-! ### The flag -/

/-- Only `reset` takes back the flag. -/
theorem flag_step {a : Label} (h : step s a = some t) :
  (t.past = s.past ∧ (s.cancelled = true → t.cancelled = true)) ∨ t.past = s.past ++ [s.now]
  := by
  cases a with
  | call c call =>
      simp only [step] at h
      split at h
      · obtain rfl := Option.some.inj h
        exact .inl ⟨rfl, id⟩
      · obtain rfl := Option.some.inj h
        exact .inl ⟨rfl, id⟩
      · contradiction
  | go c threw =>
      simp only [step, goStep] at h
      split at h
      case h_5 =>
        obtain rfl := Option.some.inj h
        exact .inl ⟨rfl, fun _ => rfl⟩
      case h_6 =>
        obtain rfl := Option.some.inj h
        exact .inr rfl
      case h_3 =>
        simp only [Option.ite_none_right_eq_some, Option.some.injEq] at h
        obtain ⟨-, rfl⟩ := h
        exact .inl ⟨rfl, id⟩
      case h_1 | h_2 => contradiction
      all_goals
        obtain rfl := Option.some.inj h
        exact .inl ⟨rfl, id⟩

/-- Within a period the flag is not taken back. -/
theorem flag_of_run {as : List Label} (h : Run step Free s as t) (hpast : t.past = s.past)
    (hflag : s.isCancelled = true) :
  t.isCancelled = true
  := by
  have hkept : s.past <+: t.past ∧ (t.past = s.past → t.cancelled = true) := by
    apply h.invariant fun t => s.past <+: t.past ∧ (t.past = s.past → t.cancelled = true)
    · intro u a v ⟨hextends, hu⟩ _ e
      obtain ⟨hsame, hmono⟩ | hnext := flag_step e
      · rw [hsame]
        exact ⟨hextends, fun hpast => hmono (hu hpast)⟩
      · rw [hnext]
        refine ⟨hextends.trans (List.prefix_append ..), ?_⟩
        intro hpast
        have hlength := hextends.length_le
        rw [← hpast, List.length_append, List.length_singleton] at hlength
        omega
    · exact ⟨List.prefix_refl _, fun _ => hflag⟩
  apply hkept.2 hpast

/-! ### The holder leaves -/

/-- How many steps the thread takes at most before it has unlocked the mutex. -/
def State.rank (s : State) (c : ℕ) : ℕ :=
  match s.pc c with
  | .locked .cancel => s.callbacks.length + 3
  | .locked .on_cancel | .locked .reset => 3
  | .notifying todo => todo.length + 2
  | .pushing _ | .invoking _ | .resetting => 2
  | .unlocking _ => 1
  | .idle | .locking _ | .returned _ => 0

/-- The holder of the mutex goes on, whatever a callback throws. -/
theorem exists_goStep (hpc : (s.pc c).holds = true) (threw : Bool) :
  ∃ t, goStep s c threw = some t ∧
    (t.mtx = none ∨ (t.pc c).holds = true ∧ t.rank c < s.rank c)
  := by
  cases hat : s.pc c with
  | idle | locking _ | returned _ =>
      rw [hat] at hpc
      contradiction
  | locked call =>
      cases call with
      | on_cancel | cancel =>
          cases hcancelled : s.cancelled <;>
            simp [goStep, onCancel, cancel, State.register, State.goTo, State.rank, Pc.holds, hat,
              hcancelled]
      | reset => simp [goStep, reset, State.goTo, State.rank, Pc.holds, hat]
  | notifying todo =>
      cases todo <;> simp [goStep, State.invoke, State.goTo, State.rank, Pc.holds, hat]
  | pushing n | invoking n | resetting =>
      simp [goStep, State.invoke, State.goTo, State.rank, Pc.holds, hat]
  | unlocking threw' => simp [goStep, State.goTo, hat]

/-- The holder of the mutex unlocks it, whatever the callbacks throw. -/
theorem exists_unlock (hpc : (s.pc c).holds = true) (threw : ℕ → Bool) :
  ∃ n t, exec step s ((List.range n).map fun k => .go c (threw k)) = some t ∧ t.mtx = none
  := by
  induction hrank : s.rank c using Nat.strong_induction_on generalizing s threw with
  | _ rank ih =>
      obtain ⟨u, hu, hfree | ⟨hholds, hless⟩⟩ := exists_goStep hpc (threw 0)
      · refine ⟨1, u, ?_, hfree⟩
        simpa [exec, step] using hu
      · rw [hrank] at hless
        obtain ⟨n, t, ht, hfree⟩ := ih _ hless hholds (fun k => threw (k + 1)) rfl
        refine ⟨n + 1, t, ?_, hfree⟩
        rw [List.range_succ_eq_map, List.map_cons, List.map_map]
        simp only [exec, step, hu, Option.bind_some]
        apply ht

/-! ### Result -/

/-- Every callback registered in a period runs once if the token is cancelled in it, in the order of
the registrations, and not otherwise, nor in another period; the flag is not taken back within a
period; and no exception of a callback keeps the mutex locked. -/
theorem runs_once {as : List Label} (h : Run step Free initial as s) :
  Sound s ∧
  (∀ bs t, Run step Free s bs t → t.past = s.past → s.isCancelled = true → t.isCancelled = true) ∧
  ∀ c (threw : ℕ → Bool), s.mtx = some c →
    ∃ n t, exec step s ((List.range n).map fun k => .go c (threw k)) = some t ∧ t.mtx = none
  := by
  have hs := orderly_of_run h
  refine ⟨hs.sound, ?_, ?_⟩
  · intro bs t hrun hpast hflag
    apply flag_of_run hrun hpast hflag
  · intro c threw hmtx
    apply exists_unlock ((hs.holds c).mpr hmtx)

/-- `OnCancelCallback` and `OnCancelAlreadyCancelled`, with a callback that throws and a reset. -/
theorem runs_once_three :
  ∃ as s, Run step Free initial as s ∧ s.past = [⟨[0, 1, 2], [0, 1, 2], true⟩] ∧
    s.now.registered = [3] ∧ s.now.ran = []
  := by
  obtain ⟨s, hs, hpast, hregistered, hcancelled⟩ : ∃ s,
      Run step Free initial
        (List.flatten [[.call 0 .on_cancel], List.replicate 4 (.go 0 false), [.call 1 .on_cancel],
          List.replicate 4 (.go 1 false), [.call 2 .cancel], List.replicate 6 (.go 2 true),
          [.call 0 .on_cancel], List.replicate 4 (.go 0 true), [.call 2 .reset],
          List.replicate 4 (.go 2 false), [.call 1 .on_cancel], List.replicate 4 (.go 1 false)]) s ∧
      s.past = [⟨[0, 1, 2], [0, 1, 2], true⟩] ∧ s.now.registered = [3] ∧
      s.now.cancelled = false := by
    apply exists_run_of_exec
    decide
  exact ⟨_, s, hs, hpast, hregistered, (runs_once hs).1.never hcancelled⟩

end Token

end Koroutine
