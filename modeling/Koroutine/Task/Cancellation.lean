import Mathlib.Data.List.Nodup
import Mathlib.Data.List.Perm.Basic
import Koroutine.Task.Ledger
import Koroutine.Transition.Run

/-!
# Cancellation

The cancellation callback of a task and the end of its body both write the result and schedule the
continuation.  The callback looks whether there is a result, the end of the body does not; neither
looks whether the continuation has been scheduled, or whether the task still exists.

`Uncontested` is the condition under which that does no harm: of the two only one happens, while
the task exists and is awaited, and when the awaiter drops the task nothing is going on in it.
-/

open Transition

namespace Koroutine.Tasks

variable {τ ω V E : Type}

/-! ### The condition -/

/-- No thread runs the coroutine, it is not on the scheduler, and no call for it is to be made. -/
def State.quiet (s : State τ ω V E) (f : Frame τ ω V E) : Bool :=
  !f.phase.busy && !s.queue.contains f.id &&
    s.threads.flatten.all fun c => !c.starts f.id && !c.notifies f.id

/-- A body ends only while its task has no result; a callback runs only while the task exists and
has no result, and finds a continuation; a token that is given to a task has not been cancelled;
tasks are dropped only while they are quiet; and no event comes too late. -/
def uncontested (s : State τ ω V E) : Label τ V E → Bool
  | .go d =>
      match s.split d with
      | none => true
      | some (_, f, below) =>
          match f.phase with
          | .running (.coReturn _) | .running (.throw _) => (s.promise f.id).result.isNone
          | .running (.coAwait (some token) _ _) => !s.cancelled token
          | .obtained _ _ => below.all s.quiet
          | _ => true
  | .call m =>
      match s.threads[m]? with
      | some (.callback i :: _) =>
          (s.frames.any fun f => f.id == i) && (s.promise i).result.isNone
      | some (.cancelNotify i :: _) => (s.promise i).continuation.isSome
      | _ => true
  | .late _ _ => false
  | .execute _ _ | .cancel _ | .fire _ _ => true

def Uncontested (s : State τ ω V E) (a : Label τ V E) : Prop := uncontested s a = true

instance (s : State τ ω V E) (a : Label τ V E) : Decidable (Uncontested s a) :=
  inferInstanceAs (Decidable (_ = _))

variable {s t : State τ ω V E} {pre below : List (Frame τ ω V E)} {f : Frame τ ω V E} {i : ℕ}
  {e : E}

/-! ### How the accounts change -/

theorem State.account_setPromise (s : State τ ω V E) (i : ℕ) (p : Promise V E) :
  (s.setPromise i p).account =
    Function.update s.account i { s.account i with promise := p }
  := by
  funext j
  by_cases hj : j = i
  · subst hj
    simp [State.account, setPromise]
  · simp [State.account, setPromise, hj]

theorem State.account_schedule (s : State τ ω V E) (i : ℕ) :
  (s.schedule i).account =
    Function.update s.account i { s.account i with requests := (s.account i).requests + 1 }
  := by
  funext j
  by_cases hj : j = i
  · subst hj
    simp [State.account, schedule]
  · simp [State.account, schedule, hj, Ne.symm hj]

/-- A worker takes a request. -/
theorem State.account_take {k : ℕ} (h : s.queue[k]? = some i) :
  { s with queue := s.queue.eraseIdx k }.account =
    Function.update s.account i { s.account i with requests := (s.account i).requests - 1 }
  := by
  obtain ⟨hk, rfl⟩ := List.getElem?_eq_some_iff.mp h
  have hcount : ∀ j, (s.queue.eraseIdx k).count j =
      s.queue.count j - if s.queue[k] = j then 1 else 0 := by
    intro j
    rw [← (List.getElem_cons_eraseIdx_perm hk).count_eq j, List.count_cons]
    by_cases hj : s.queue[k] = j <;> simp [hj]
  funext j
  by_cases hj : j = s.queue[k]
  · subst hj
    simp [State.account, hcount]
  · simp [State.account, hcount, hj, Ne.symm hj]

/-- A thread has calls to make. -/
theorem State.account_spawn (s : State τ ω V E) (calls : List Call) (i : ℕ) :
  (s.spawn calls).account i =
    { s.account i with
      starting := (s.account i).starting + calls.countP (Call.starts i)
      notifying := (s.account i).notifying + calls.countP (Call.notifies i) }
  := by
  simp [State.account, spawn]

/-- A thread has made a call. -/
theorem State.account_made {m : ℕ} {c : Call} {calls : List Call} (new : List Call)
    (hm : s.threads[m]? = some (c :: calls)) (i : ℕ) :
  { s with threads := s.threads.set m (new ++ calls) }.account i =
    { s.account i with
      starting := (s.account i).starting + new.countP (Call.starts i) - [c].countP (Call.starts i)
      notifying :=
        (s.account i).notifying + new.countP (Call.notifies i) - [c].countP (Call.notifies i) }
  := by
  obtain ⟨before, after, hflatten, hset⟩ := flatten_set new hm
  have hcount : ∀ p : Call → Bool, (s.threads.set m (new ++ calls)).flatten.countP p =
      s.threads.flatten.countP p + new.countP p - [c].countP p := by
    intro p
    have hsplit : before ++ c :: calls ++ after = before ++ ([c] ++ calls) ++ after := rfl
    rw [hset, hflatten, hsplit]
    simp only [List.countP_append]
    omega
  simp [State.account, hcount]

/-- A thread has made a call to start a task. -/
theorem State.account_made_start {m : ℕ} {calls : List Call}
    (hm : s.threads[m]? = some (.start i :: calls)) :
  { s with threads := s.threads.set m ([] ++ calls) }.account =
    Function.update s.account i { s.account i with starting := (s.account i).starting - 1 }
  := by
  funext j
  rw [State.account_made [] hm]
  by_cases hj : j = i
  · subst hj
    simp [Call.starts, Call.notifies]
  · simp [Call.starts, Call.notifies, hj, Ne.symm hj]

/-- A thread has made a call that schedules the continuation of a task. -/
theorem State.account_made_notify {m : ℕ} {c : Call} {calls : List Call}
    (hm : s.threads[m]? = some (c :: calls)) (hstarts : ∀ j, c.starts j = false)
    (hnotifies : ∀ j, c.notifies j = (i == j)) :
  { s with threads := s.threads.set m ([] ++ calls) }.account =
    Function.update s.account i { s.account i with notifying := (s.account i).notifying - 1 }
  := by
  funext j
  rw [State.account_made [] hm]
  by_cases hj : j = i
  · subst hj
    simp [hstarts, hnotifies]
  · simp [hstarts, hnotifies, hj, Ne.symm hj]

/-- A thread has made the first half of a cancellation callback. -/
theorem State.account_made_callback {m : ℕ} {calls : List Call}
    (hm : s.threads[m]? = some (.callback i :: calls)) :
  { s with threads := s.threads.set m ([Call.cancelNotify i] ++ calls) }.account =
    Function.update s.account i { s.account i with notifying := (s.account i).notifying + 1 }
  := by
  funext j
  rw [State.account_made [.cancelNotify i] hm]
  by_cases hj : j = i
  · subst hj
    simp [Call.starts, Call.notifies]
  · simp [Call.starts, Call.notifies, hj, Ne.symm hj]

/-! ### What holds along a run -/

/-- The frames agree with the accounts, and a call that schedules the continuation of a task has
the one in its promise. -/
structure Settling (s : State τ ω V E) : Prop where
  consistent : Consistent s.frames s.created s.account
  noted : ∀ i h, .notify i h ∈ s.threads.flatten → (s.promise i).continuation = some h

theorem Settling.initial (body : Body τ ω V E) :
  Settling (initial τ body)
  := by
  have hother : ∀ i, i ≠ 0 → (Tasks.initial τ body).account i = ⟨.new, 0, 0, 0⟩ := by
    intro i hi
    simp [State.account, Tasks.initial, hi, Ne.symm hi]
  constructor
  · constructor
    · rfl
    · simp [Tasks.initial]
    · simp [Tasks.initial]
    · rfl
    · intro f hf
      obtain rfl := List.mem_singleton.mp hf
      constructor
      · right
        exact ⟨rfl, rfl, rfl⟩
      · exact ⟨rfl, Nat.le_refl 0, fun _ => rfl⟩
    · intro i hi
      rw [hother i (by simpa [Tasks.initial] using hi)]
      exact ⟨rfl, rfl, rfl, rfl, Nat.le_refl 0, fun _ => rfl⟩
    · intro i hi
      rw [hother i (Nat.one_le_iff_ne_zero.mp hi)]
    · rfl
  · simp [Tasks.initial]

theorem continuation_setPromise {p : Promise V E}
    (hp : p.continuation = (s.promise i).continuation) (j : ℕ) :
  ((s.setPromise i p).promise j).continuation = (s.promise j).continuation
  := by
  by_cases hj : j = i
  · subst hj
    simpa [State.setPromise] using hp
  · simp [State.setPromise, hj]

/-- A step that makes no call that schedules a continuation. -/
theorem Settling.noted_of (hs : Settling s)
    (hcalls : ∀ i h, .notify i h ∈ t.threads.flatten → .notify i h ∈ s.threads.flatten)
    (hcont : ∀ i, (t.promise i).continuation = (s.promise i).continuation) (i h : ℕ)
    (hcall : .notify i h ∈ t.threads.flatten) :
  (t.promise i).continuation = some h
  := by
  rw [hcont]
  apply hs.noted i h (hcalls i h hcall)

/-! ### The steps of the thread that runs a coroutine -/

/-- The body ends. -/
theorem Settling.write {body : Body τ ω V E} {r : Except E V} (hs : Settling s)
    (hframes : s.frames = pre ++ ⟨i, .running body⟩ :: below)
    (hresult : (s.promise i).result = none) :
  Settling ((s.setPromise i ((s.promise i).write r)).put pre ⟨i, .returned⟩ below)
  := by
  have hc := hs.consistent
  rw [hframes] at hc
  obtain ⟨hfits, hbalanced⟩ := hc.sits ⟨i, .running body⟩ (by simp)
  have hsits : Sits (⟨i, .returned⟩ : Frame τ ω V E)
      { s.account i with promise := (s.promise i).write r } :=
    ⟨hfits, hbalanced.write hresult rfl rfl⟩
  constructor
  · have hupdate := hc.update hsits rfl rfl (fun _ _ hlink => hlink.write hresult rfl rfl)
      (fun _ => rfl) (fun _ _ hlink => hlink.elim)
    rw [← State.account_setPromise] at hupdate
    apply hupdate
  · refine hs.noted_of (fun _ _ hcall => hcall) ?_
    have hcont : ((s.promise i).write r).continuation = (s.promise i).continuation := rfl
    exact continuation_setPromise hcont

/-- A coroutine goes on without a change of its account. -/
theorem Settling.move {phase phase' : Phase τ ω V E} (hs : Settling s)
    (hframes : s.frames = pre ++ ⟨i, phase⟩ :: below)
    (hfits : phase.Fits (s.account i) → phase'.Fits (s.account i))
    (hreturning : phase'.returning = phase.returning)
    (hlast : phase.awaits = false → phase'.awaits = false)
    (hdown : ∀ g ∈ below.head?, Link ⟨i, phase⟩ (s.account i).requests (s.account g.id) →
      Link ⟨i, phase'⟩ (s.account i).requests (s.account g.id)) :
  Settling (s.put pre ⟨i, phase'⟩ below)
  := by
  have hc := hs.consistent
  rw [hframes] at hc
  obtain ⟨hfits', hbalanced⟩ := hc.sits ⟨i, phase⟩ (by simp)
  have hsits : Sits ⟨i, phase'⟩ (s.account i) := by
    constructor
    · apply hfits hfits'
    · simp only [hreturning]
      apply hbalanced
  constructor
  · apply hc.move hsits rfl hlast hdown
  · apply hs.noted

/-- A coroutine awaits a new task. -/
theorem Settling.create [DecidableEq τ] {token : Option τ} {task : Body τ ω V E}
    {rest : Except E V → Body τ ω V E} (hs : Settling s)
    (hframes : s.frames = pre ++ ⟨i, .running (.coAwait token task rest)⟩ :: below)
    (htoken : ∀ c ∈ token, s.cancelled c = false) :
  Settling ((s.create e token).put pre ⟨i, .created rest⟩ [⟨s.created, .initial task⟩])
  := by
  have hc := hs.consistent
  rw [hframes] at hc
  obtain rfl := hc.chained.tail.eq_nil rfl
  obtain ⟨hfits, hbalanced⟩ := hc.sits ⟨i, .running (.coAwait token task rest)⟩ (by simp)
  -- the promise of the new task is as it was before
  have hsame : ∀ j, (s.create e token).promise j = s.promise j := by
    intro j
    have hnew : Function.update s.promise s.created .new = s.promise := by
      have hfresh : s.promise s.created = .new := hc.fresh s.created (Nat.le_refl _)
      rw [← hfresh, Function.update_eq_self]
    cases token with
    | none => exact congrFun hnew j
    | some c =>
        simp only [State.create, htoken c rfl]
        exact congrFun hnew j
  have hqueue : (s.create e token).queue = s.queue ∧ (s.create e token).threads = s.threads ∧
      (s.create e token).created = s.created + 1 := by
    cases token with
    | none => exact ⟨rfl, rfl, rfl⟩
    | some c =>
        simp only [State.create, htoken c rfl]
        exact ⟨rfl, rfl, rfl⟩
  obtain ⟨hqueue, hthreads, hcreated⟩ := hqueue
  have haccount : (s.create e token).account = s.account := by
    funext j
    simp [State.account, hsame, hqueue, hthreads]
  constructor
  · have hcreate : Consistent (pre ++ [⟨i, .created rest⟩, ⟨s.created, .initial task⟩])
        (s.created + 1) s.account := hc.create ⟨hfits, hbalanced⟩
    rw [← haccount, ← hcreated] at hcreate
    apply hcreate
  · refine hs.noted_of ?_ ?_
    · intro j h hcall
      rw [← hthreads]
      apply hcall
    · intro j
      simp only [State.put, hsame]

/-- A coroutine is suspended in a `co_await`. -/
theorem Settling.suspend {rest : Except E V → Body τ ω V E} (hs : Settling s)
    (hframes : s.frames = pre ++ ⟨i, .created rest⟩ :: below)
    (h : awaitReady s pre i rest below = some t) :
  Settling t
  := by
  have hc := hs.consistent
  rw [hframes] at hc
  obtain ⟨g, ys, rfl, hlink⟩ := hc.chained.tail.exists_cons rfl
  have hstarted : (s.account g.id).promise.started = false := hlink.1
  have hcont : (s.promise g.id).continuation = none := hlink.2.2.1
  have hdone : g.phase.done = false := by
    have hfits := (hc.sits g (by simp)).fits
    cases hg : g.phase <;> simp_all [Phase.Fits, Phase.done]
  simp only [awaitReady, hdone, Bool.false_eq_true, if_false, Option.some.injEq] at h
  subst h
  constructor
  · have hsuspend := hc.suspend
    have haccount : ((s.setPromise g.id { s.promise g.id with continuation := some i }).spawn
        [.start g.id]).account = Function.update s.account g.id
          { s.account g.id with
            promise := { (s.account g.id).promise with continuation := some i }
            starting := (s.account g.id).starting + 1 } := by
      funext j
      rw [State.account_spawn, State.account_setPromise]
      by_cases hj : j = g.id
      · subst hj
        simp [Call.starts, Call.notifies, State.account]
      · simp [Call.starts, Call.notifies, hj, Ne.symm hj]
    rw [← haccount] at hsuspend
    apply hsuspend
  · intro j h hcall
    have hold : .notify j h ∈ s.threads.flatten := by
      simpa [State.put, State.spawn, State.setPromise] using hcall
    have hnoted := hs.noted j h hold
    have hne : j ≠ g.id := by
      rintro rfl
      rw [hcont] at hnoted
      contradiction
    simpa [State.put, State.spawn, State.setPromise, hne] using hnoted

/-- The awaiter obtains the result. -/
theorem Settling.obtain {rest : Except E V → Body τ ω V E} (hs : Settling s)
    (hframes : s.frames = pre ++ ⟨i, .resuming rest⟩ :: below)
    (h : getResult s pre i rest below = some t) :
  Settling t
  := by
  cases below with
  | nil => contradiction
  | cons g ys =>
      simp only [getResult] at h
      split at h
      · contradiction
      · rename_i r hresult
        obtain rfl := Option.some.inj h
        refine hs.move hframes (fun hfits => hfits) ?_ (fun hlast => hlast) ?_
        · rfl
        intro g' hg' hlink
        obtain rfl := Option.some.inj hg'
        exact ⟨hlink.1, hlink.2, hresult⟩

theorem State.account_of_quiet (h : s.quiet f = true) :
  (s.account f.id).requests = 0 ∧ (s.account f.id).starting = 0 ∧
    (s.account f.id).notifying = 0 ∧ f.phase.returning = 0
  := by
  simp only [quiet, Bool.and_eq_true, Bool.not_eq_true', List.contains_eq_mem,
    decide_eq_false_iff_not, List.all_eq_true] at h
  obtain ⟨⟨hbusy, hqueue⟩, hcalls⟩ := h
  refine ⟨List.count_eq_zero.mpr hqueue, ?_, ?_, ?_⟩
  · apply List.countP_eq_zero.mpr
    intro c hc
    simp [(hcalls c hc).1]
  · apply List.countP_eq_zero.mpr
    intro c hc
    simp [(hcalls c hc).2]
  · cases hphase : f.phase <;> simp_all [Phase.busy, Phase.returning]

/-- The awaiter drops the task. -/
theorem Settling.drop {r : Except E V} {rest : Except E V → Body τ ω V E} (hs : Settling s)
    (hframes : s.frames = pre ++ ⟨i, .obtained r rest⟩ :: below)
    (hquiet : below.all s.quiet = true) :
  Settling ((s.destroy below).put pre ⟨i, .running (rest r)⟩ [])
  := by
  have hc := hs.consistent
  rw [hframes] at hc
  obtain ⟨hfits, hbalanced⟩ := hc.sits ⟨i, .obtained r rest⟩ (by simp)
  have hsits : Sits ⟨i, .running (rest r)⟩ (s.account i) := ⟨hfits, hbalanced⟩
  constructor
  · apply hc.drop hsits rfl rfl
    intro g hg
    apply State.account_of_quiet
    apply List.all_eq_true.mp hquiet g hg
  · apply hs.noted

/-- The coroutine is suspended at its end. -/
theorem Settling.finalSuspend (hs : Settling s)
    (hframes : s.frames = pre ++ ⟨i, .returned⟩ :: below) :
  Settling (finalSuspend s pre i below)
  := by
  have hc := hs.consistent
  rw [hframes] at hc
  obtain ⟨hfits, hwrites, hle, heq⟩ := hc.sits ⟨i, .returned⟩ (by simp)
  unfold Tasks.finalSuspend
  split
  · rename_i hcont
    have h0 : i = 0 := hc.eq_zero hfits.1 hcont
    have hsits : Sits (⟨i, .final⟩ : Frame τ ω V E) (s.account i) :=
      ⟨hfits, hwrites, Nat.le_of_succ_le hle, fun hne => absurd h0 hne⟩
    constructor
    · exact hc.move hsits rfl (fun _ => rfl) (fun _ _ hlink => hlink.elim)
    · apply hs.noted
  · rename_i h hcont
    have hsits : Sits (⟨i, .final⟩ : Frame τ ω V E)
        { s.account i with notifying := (s.account i).notifying + 1 } :=
      ⟨hfits, hwrites, hle, heq⟩
    have haccount : (s.spawn [.notify i h]).account = Function.update s.account i
        { s.account i with notifying := (s.account i).notifying + 1 } := by
      funext j
      rw [State.account_spawn]
      by_cases hj : j = i
      · subst hj
        simp [Call.starts, Call.notifies]
      · simp [Call.starts, Call.notifies, hj, Ne.symm hj]
    constructor
    · have hupdate := hc.update hsits rfl rfl
        (fun _ _ hlink => hlink.congr rfl rfl)
        (fun _ => rfl) (fun _ _ hlink => hlink.elim)
      rw [← haccount] at hupdate
      apply hupdate
    · intro j h' hcall
      have hcases : .notify j h' ∈ s.threads.flatten ∨ (j = i ∧ h' = h) := by
        simpa [State.put, State.spawn] using hcall
      obtain hold | ⟨rfl, rfl⟩ := hcases
      · apply hs.noted j h' hold
      · apply hcont

/-! ### The steps of a worker and of an event -/

theorem State.requests_pos {k : ℕ} (hk : s.queue[k]? = some i) :
  0 < (s.account i).requests
  := List.count_pos_iff.mpr (List.mem_of_getElem? hk)

/-- A coroutine begins, or goes on after an event. -/
theorem Settling.begin {k : ℕ} {phase : Phase τ ω V E} {body : Body τ ω V E} (hs : Settling s)
    (hframes : s.frames = pre ++ ⟨i, phase⟩ :: below) (hk : s.queue[k]? = some i)
    (hphase : phase = .initial body ∨ phase = .fired body) :
  Settling ({ s with queue := s.queue.eraseIdx k }.put pre ⟨i, .running body⟩ below)
  := by
  have hc := hs.consistent
  rw [hframes] at hc
  obtain ⟨hfits, hbalanced⟩ := hc.sits ⟨i, phase⟩ (by simp)
  have hpos := State.requests_pos hk
  have hone : (s.account i).promise.started = true ∧ (s.account i).requests = 1 ∧
      (s.account i).starting = 0 := by
    obtain rfl | rfl := hphase
    · obtain ⟨-, hzero, -⟩ | hone := hfits
      · simp only at hzero
        omega
      · apply hone
    · apply hfits
  have hsits : Sits ⟨i, .running body⟩
      { s.account i with requests := (s.account i).requests - 1 } := by
    constructor
    · exact ⟨hone.1, by simp [hone.2.1], hone.2.2⟩
    · obtain rfl | rfl := hphase <;>
        exact ⟨hbalanced.writes, hbalanced.le, hbalanced.eq⟩
  constructor
  · have hupdate := hc.update hsits rfl rfl
      (fun _ _ hlink => hlink.congr rfl rfl)
      (fun _ => rfl) (by obtain rfl | rfl := hphase <;> exact fun _ _ hlink => hlink.elim)
    rw [← State.account_take hk] at hupdate
    apply hupdate
  · apply hs.noted

/-- An awaiter is resumed. -/
theorem Settling.resume {k : ℕ} {rest : Except E V → Body τ ω V E} (hs : Settling s)
    (hframes : s.frames = pre ++ ⟨i, .awaiting rest⟩ :: below) (hk : s.queue[k]? = some i) :
  Settling ({ s with queue := s.queue.eraseIdx k }.put pre ⟨i, .resuming rest⟩ below)
  := by
  have hc := hs.consistent
  rw [hframes] at hc
  obtain ⟨hfits, hbalanced⟩ := hc.sits ⟨i, .awaiting rest⟩ (by simp)
  have hpos := State.requests_pos hk
  obtain ⟨g, ys, rfl, hcont, hrequests⟩ := hc.chained.tail.exists_cons rfl
  have hle := (hc.sits g (by simp)).balanced.notified_le
  simp only at hrequests
  have hsits : Sits ⟨i, .resuming rest⟩
      { s.account i with requests := (s.account i).requests - 1 } := by
    refine ⟨⟨hfits.1, ?_, hfits.2⟩, hbalanced.writes, hbalanced.le, hbalanced.eq⟩
    simp only
    omega
  constructor
  · have hupdate := hc.update hsits rfl rfl
      (fun _ _ hlink => hlink.congr rfl rfl)
      (fun hlast => hlast)
      (by
        intro g' hg' _
        obtain rfl := Option.some.inj hg'
        refine ⟨hcont, ?_⟩
        omega)
    rw [← State.account_take hk] at hupdate
    apply hupdate
  · apply hs.noted

/-- An event puts a coroutine on the scheduler. -/
theorem Settling.fire {event : ω} {rest : Except E V → Body τ ω V E} {r : Except E V}
    (hs : Settling s) (hframes : s.frames = pre ++ ⟨i, .suspended event rest⟩ :: below) :
  Settling ((s.schedule i).put pre ⟨i, .fired (rest r)⟩ below)
  := by
  have hc := hs.consistent
  rw [hframes] at hc
  obtain ⟨⟨hstarted, hrequests, hstarting⟩, hbalanced⟩ :=
    hc.sits ⟨i, .suspended event rest⟩ (by simp)
  have hsits : Sits ⟨i, .fired (rest r)⟩
      { s.account i with requests := (s.account i).requests + 1 } := by
    refine ⟨⟨hstarted, ?_, hstarting⟩, hbalanced.writes, hbalanced.le, hbalanced.eq⟩
    rw [hrequests]
  constructor
  · have hupdate := hc.update hsits rfl rfl
      (fun _ _ hlink => hlink.congr rfl rfl)
      (fun _ => rfl) (fun _ _ hlink => hlink.elim)
    rw [← State.account_schedule] at hupdate
    apply hupdate
  · apply hs.noted

/-! ### The calls of threads -/

theorem State.mem_calls {m : ℕ} {c : Call} {calls : List Call}
    (hm : s.threads[m]? = some (c :: calls)) :
  c ∈ s.threads.flatten
  := List.mem_flatten.mpr ⟨_, List.mem_of_getElem? hm, List.mem_cons_self⟩

/-- A call that has been made is replaced by calls that schedule no continuation. -/
theorem State.notify_of_made {m : ℕ} {c : Call} {calls new : List Call}
    (hm : s.threads[m]? = some (c :: calls)) (hnew : ∀ j h, .notify j h ∉ new) (j h : ℕ)
    (hcall : .notify j h ∈ (s.threads.set m (new ++ calls)).flatten) :
  .notify j h ∈ s.threads.flatten
  := by
  obtain ⟨before, after, hflatten, hset⟩ := flatten_set new hm
  rw [hset] at hcall
  rw [hflatten]
  simp only [List.mem_append, List.mem_cons] at hcall ⊢
  obtain (hbefore | hin | hcalls) | hafter := hcall
  · exact Or.inl (Or.inl hbefore)
  · exact absurd hin (hnew j h)
  · exact Or.inl (Or.inr (Or.inr hcalls))
  · exact Or.inr hafter

/-- A thread starts a task. -/
theorem Settling.start {m : ℕ} {calls : List Call} (hs : Settling s)
    (hm : s.threads[m]? = some (.start i :: calls)) :
  Settling { s.start i with threads := s.threads.set m ([] ++ calls) }
  := by
  have hpos : 0 < (s.account i).starting :=
    List.countP_pos_iff.mpr ⟨_, State.mem_calls hm, by simp [Call.starts]⟩
  have hc := hs.consistent
  obtain ⟨pre, f, below, hframes, rfl⟩ := hc.exists_frame (i := i) fun hgone => by
    have := hgone.starting
    omega
  rw [hframes] at hc
  have hsits := hc.sits f (by simp)
  obtain ⟨⟨body, hphase⟩, hstarted, hrequests, hstarting⟩ := hsits.unstarted hpos
  have hstart : s.start f.id =
      (s.setPromise f.id { s.promise f.id with started := true }).schedule f.id := by
    have hnot : (s.promise f.id).started = false := hstarted
    simp [State.start, hnot]
  have hsits' : Sits f { s.account f.id with
      promise := { s.promise f.id with started := true }
      requests := (s.account f.id).requests + 1
      starting := (s.account f.id).starting - 1 } := by
    constructor
    · simp only [hphase, Phase.Fits]
      right
      exact ⟨trivial, by omega, by omega⟩
    · exact ⟨hsits.balanced.writes, hsits.balanced.le, hsits.balanced.eq⟩
  have haccount := State.account_made_start (s := (s.setPromise f.id
    { s.promise f.id with started := true }).schedule f.id) hm
  simp only [State.account_schedule, State.account_setPromise, Function.update_self,
    Function.update_idem] at haccount
  rw [hstart]
  constructor
  · have hupdate := hc.update hsits' rfl rfl
      (fun x n hlink => hlink.keep rfl rfl (fun _ hr => hr) fun _ hz => by omega)
      (fun hlast => hlast)
      (by
        intro g _ hlink
        have hawaits := hlink.awaits
        simp [hphase, Phase.awaits] at hawaits)
    rw [← haccount, ← hframes] at hupdate
    apply hupdate
  · refine hs.noted_of (State.notify_of_made hm (by simp)) ?_
    have hcont : ({ s.promise f.id with started := true } : Promise V E).continuation =
        (s.promise f.id).continuation := rfl
    exact continuation_setPromise hcont

/-- A thread schedules the continuation of a task. -/
theorem Settling.notify {m h : ℕ} {c : Call} {calls : List Call} (hs : Settling s)
    (hm : s.threads[m]? = some (c :: calls)) (hstarts : ∀ j, c.starts j = false)
    (hnotifies : ∀ j, c.notifies j = (i == j)) (hcont : (s.promise i).continuation = some h) :
  Settling { s.notify i h with threads := s.threads.set m ([] ++ calls) }
  := by
  have hpos : 0 < (s.account i).notifying :=
    List.countP_pos_iff.mpr ⟨_, State.mem_calls hm, by simp [hnotifies]⟩
  have hne : i ≠ h := by
    rintro rfl
    obtain ⟨pre, rest, g, below, hframes, hid, -⟩ := hs.consistent.exists_awaiter hpos hcont
    have hc := hs.consistent
    rw [hframes] at hc
    exact hc.ne_below (f := ⟨i, .awaiting rest⟩) List.mem_cons_self hid
  have haccount := State.account_made_notify (s := s.notify i h) hm hstarts hnotifies
  rw [State.notify, State.account_schedule, State.account_setPromise,
    Function.update_of_ne hne, Function.update_of_ne (Ne.symm hne), Function.update_comm hne,
    Function.update_self, Function.update_idem] at haccount
  constructor
  · have hnotify := hs.consistent.notify hpos hcont
    rw [Function.update_comm hne] at hnotify
    exact haccount.symm ▸ hnotify
  · refine hs.noted_of (State.notify_of_made hm (by simp)) ?_
    exact continuation_setPromise rfl

/-- The first half of a cancellation callback. -/
theorem Settling.callback {m : ℕ} {calls : List Call} {r : Except E V} (hs : Settling s)
    (hm : s.threads[m]? = some (.callback i :: calls))
    (hexists : ∃ f ∈ s.frames, f.id = i) (hresult : (s.promise i).result = none) :
  Settling { s.setPromise i ((s.promise i).write r) with
    threads := s.threads.set m ([.cancelNotify i] ++ calls) }
  := by
  have hc := hs.consistent
  obtain ⟨f, hf, rfl⟩ := hexists
  obtain ⟨pre, below, hframes⟩ := List.append_of_mem hf
  rw [hframes] at hc
  obtain ⟨hfits, hbalanced⟩ := hc.sits f (by simp)
  have hsits : Sits f { s.account f.id with
      promise := (s.promise f.id).write r
      notifying := (s.account f.id).notifying + 1 } := by
    constructor
    · apply hfits.congr <;> rfl
    · apply hbalanced.write hresult rfl
      simp only
      omega
  have haccount := State.account_made_callback
    (s := s.setPromise f.id ((s.promise f.id).write r)) hm
  rw [State.account_setPromise, Function.update_self, Function.update_idem] at haccount
  constructor
  · have hupdate := hc.update hsits rfl rfl (fun _ _ hlink => hlink.write hresult rfl rfl)
      (fun hlast => hlast) (fun _ _ hlink => hlink)
    rw [← haccount, ← hframes] at hupdate
    apply hupdate
  · refine hs.noted_of (State.notify_of_made hm (by simp)) ?_
    have hcont : ((s.promise f.id).write r).continuation = (s.promise f.id).continuation := rfl
    exact continuation_setPromise hcont

/-- A token is cancelled. -/
theorem Settling.cancel {u : State τ ω V E} {is : List ℕ} (hs : Settling s)
    (hframes : u.frames = s.frames) (hcreated : u.created = s.created)
    (hpromise : u.promise = s.promise) (hqueue : u.queue = s.queue)
    (hthreads : u.threads = s.threads) :
  Settling (u.spawn (is.map .callback))
  := by
  have hnone : ∀ p : Call → Bool, (∀ i, p (.callback i) = false) →
      (is.map Call.callback).countP p = 0 := by
    intro p hp
    simp [List.countP_eq_zero, hp]
  have haccount : (u.spawn (is.map .callback)).account = s.account := by
    funext i
    rw [State.account_spawn, hnone _ fun _ => rfl, hnone _ fun _ => rfl]
    simp [State.account, hpromise, hqueue, hthreads]
  constructor
  · have hc := hs.consistent
    rw [← haccount, ← hframes, ← hcreated] at hc
    apply hc
  · refine hs.noted_of ?_ ?_
    · intro i h hcall
      simpa [State.spawn, hthreads] using hcall
    · intro i
      simp [State.spawn, hpromise]

/-! ### Settling once -/

/-- Every task settles once. -/
structure Settles (s : State τ ω V E) : Prop where
  /-- The result of a task is written at most once. -/
  written_once : ∀ i, (s.promise i).writes ≤ 1
  /-- Its continuation is scheduled at most once. -/
  scheduled_once : ∀ i, (s.promise i).notified ≤ 1
  /-- When the result is written, and only then, the continuation has been scheduled, or a thread
  is about to schedule it. -/
  settled : ∀ i, i ≠ 0 → ((s.promise i).writes = 1 ↔ (s.promise i).notified = 1 ∨
    (∃ c ∈ s.threads.flatten, c.notifies i = true) ∨
    ∃ f ∈ s.frames, f.id = i ∧ f.phase.returning = 1)
  /-- The awaiter obtains the result that has been written. -/
  obtained : ∀ pre i r rest g below, s.frames = pre ++ ⟨i, .obtained r rest⟩ :: g :: below →
    (s.promise g.id).result = some r
  queued_once : s.queue.Nodup
  /-- A coroutine on the scheduler exists and is suspended. -/
  queued_suspended : ∀ i ∈ s.queue, ∃ f ∈ s.frames, f.id = i ∧ f.phase.resumable = true
  /-- An awaiter is on the scheduler because the task it awaits has scheduled it. -/
  due : ∀ pre i rest g below, s.frames = pre ++ ⟨i, .awaiting rest⟩ :: g :: below → i ∈ s.queue →
    (s.promise g.id).continuation = some i ∧ (s.promise g.id).notified = 1

theorem Settling.le_one (hs : Settling s) (i : ℕ) :
  (s.promise i).writes ≤ 1 ∧ (s.promise i).notified ≤ 1
  := by
  obtain ⟨n, hbalanced, -⟩ := hs.consistent.exists_balanced i
  have hwrites := hbalanced.writes
  have hnotified := hbalanced.notified_le
  have htoNat := Bool.toNat_le (s.account i).promise.result.isSome
  simp only [State.account] at hwrites hnotified htoNat
  omega

/-- A task with a result has scheduled its continuation, or a thread is about to. -/
theorem Settling.scheduled (hs : Settling s) (hi : i ≠ 0) (hwrites : (s.promise i).writes = 1) :
  (s.promise i).notified = 1 ∨ (∃ c ∈ s.threads.flatten, c.notifies i = true) ∨
    ∃ f ∈ s.frames, f.id = i ∧ f.phase.returning = 1
  := by
  obtain ⟨n, hbalanced, hreturning⟩ := hs.consistent.exists_balanced i
  have heq : (s.promise i).notified + (s.account i).notifying + n = (s.promise i).writes :=
    hbalanced.eq hi
  by_cases hnotified : (s.promise i).notified = 1
  · exact Or.inl hnotified
  · by_cases hnotifying : 0 < (s.account i).notifying
    · exact Or.inr (Or.inl (List.countP_pos_iff.mp hnotifying))
    · have hone : n = 1 := by omega
      obtain rfl | ⟨f, hf, hid, rfl⟩ := hreturning
      · contradiction
      · exact Or.inr (Or.inr ⟨f, hf, hid, hone⟩)

/-- A task that has scheduled its continuation, or for which a thread is about to, has a result. -/
theorem Settling.written (hs : Settling s)
    (h : (s.promise i).notified = 1 ∨ (∃ c ∈ s.threads.flatten, c.notifies i = true) ∨
      ∃ f ∈ s.frames, f.id = i ∧ f.phase.returning = 1) :
  (s.promise i).writes = 1
  := by
  have hle := (hs.le_one i).1
  have hpos : 0 < (s.promise i).writes := by
    obtain ⟨n, hbalanced, -⟩ := hs.consistent.exists_balanced i
    have hbooks : (s.promise i).notified + (s.account i).notifying + n ≤ (s.promise i).writes :=
      hbalanced.le
    obtain hnotified | hcall | ⟨f, hf, rfl, hreturning⟩ := h
    · omega
    · have hnotifying : 0 < (s.account i).notifying := List.countP_pos_iff.mpr hcall
      omega
    · have hown : (s.promise f.id).notified + (s.account f.id).notifying + f.phase.returning ≤
          (s.promise f.id).writes := (hs.consistent.sits f hf).balanced.le
      omega
  omega

theorem Settling.settles (hs : Settling s) :
  Settles s
  := by
  have hc := hs.consistent
  have hrequested : ∀ i ∈ s.queue, (s.account i).requests = 1 ∧
      ∃ f ∈ s.frames, f.id = i ∧ f.phase.resumable = true := by
    intro i hi
    apply hc.requested
    apply List.count_pos_iff.mpr hi
  constructor
  · intro i
    apply (hs.le_one i).1
  · intro i
    apply (hs.le_one i).2
  · intro i hi
    constructor
    · apply hs.scheduled hi
    · apply hs.written
  · intro pre i r rest g below hframes
    rw [hframes] at hc
    obtain ⟨-, -, hresult⟩ := hc.chained.tail.1
    apply hresult
  · apply List.nodup_iff_count_le_one.mpr
    intro i
    by_cases hi : i ∈ s.queue
    · apply Nat.le_of_eq (hrequested i hi).1
    · rw [List.count_eq_zero.mpr hi]
      exact Nat.zero_le 1
  · intro i hi
    apply (hrequested i hi).2
  · intro pre i rest g below hframes hi
    have hone := (hrequested i hi).1
    rw [hframes] at hc
    obtain ⟨hcont, hnotified⟩ := hc.chained.tail.1
    exact ⟨hcont, hnotified.symm.trans hone⟩

/-! ### Runs -/

variable [DecidableEq τ]

/-- The thread that runs a coroutine goes on. -/
theorem Settling.go {d : ℕ} (hs : Settling s) (ha : Uncontested s (.go d))
    (h : step e s (.go d) = some t) :
  Settling t
  := by
  simp only [Tasks.step] at h
  split at h
  · rename_i pre f below hsplit
    have hframes := State.split_eq hsplit
    simp only [Uncontested, uncontested, hsplit] at ha
    obtain ⟨i, phase⟩ := f
    cases phase with
    | running body =>
        cases body with
        | coReturn v | throw e' =>
            obtain rfl := Option.some.inj h
            apply hs.write hframes (Option.isNone_iff_eq_none.mp ha)
        | coAwait token task rest =>
            obtain rfl := Option.some.inj h
            apply hs.create hframes
            cases token with
            | none => simp
            | some c => simpa using ha
        | coSuspend event checks rest =>
            simp only [Tasks.go] at h
            split at h <;> obtain rfl := Option.some.inj h <;>
              exact hs.move hframes (fun hfits => hfits) rfl (fun hlast => hlast)
                (fun _ _ hlink => hlink)
    | created rest => exact hs.suspend hframes h
    | resuming rest => exact hs.obtain hframes h
    | obtained r rest =>
        obtain rfl := Option.some.inj h
        exact hs.drop hframes ha
    | returned =>
        obtain rfl := Option.some.inj h
        exact hs.finalSuspend hframes
    | initial _ | awaiting _ | suspended _ _ | fired _ | final => contradiction
  · contradiction

/-- A worker resumes a coroutine. -/
theorem Settling.execute {k d : ℕ} (hs : Settling s) (h : step e s (.execute k d) = some t) :
  Settling t
  := by
  simp only [Tasks.step] at h
  split at h
  · rename_i i pre f below hk hsplit
    have hframes := State.split_eq hsplit
    split at h
    · rename_i hid
      obtain ⟨j, phase⟩ := f
      obtain rfl : j = i := hid
      cases phase with
      | initial body | fired body =>
          obtain rfl := Option.some.inj h
          exact hs.begin hframes hk (by simp)
      | awaiting rest =>
          obtain rfl := Option.some.inj h
          exact hs.resume hframes hk
      | running _ | created _ | resuming _ | obtained _ _ | suspended _ _ | returned | final =>
          contradiction
    · contradiction
  · contradiction

/-- A thread makes a call. -/
theorem Settling.call {m : ℕ} (hs : Settling s) (ha : Uncontested s (.call m))
    (h : step e s (.call m) = some t) :
  Settling t
  := by
  simp only [Tasks.step] at h
  split at h
  · rename_i c calls hm
    simp only [Uncontested, uncontested, hm] at ha
    obtain rfl := Option.some.inj h
    cases c with
    | start i => exact hs.start hm
    | notify i j =>
        apply hs.notify hm (fun _ => rfl) (fun _ => rfl)
        apply hs.noted i j (State.mem_calls hm)
    | callback i =>
        simp only [Bool.and_eq_true, List.any_eq_true, beq_iff_eq, Option.isNone_iff_eq_none] at ha
        obtain ⟨hexists, hresult⟩ := ha
        simp only [Call.perform, hresult, Option.isSome_none, Bool.false_eq_true, if_false]
        exact hs.callback hm hexists hresult
    | cancelNotify i =>
        obtain ⟨j, hcont⟩ := Option.isSome_iff_exists.mp ha
        simp only [Call.perform, hcont]
        exact hs.notify hm (fun _ => rfl) (fun _ => rfl) hcont
  · contradiction

theorem Settling.step {a : Label τ V E} (hs : Settling s) (ha : Uncontested s a)
    (h : Tasks.step e s a = some t) :
  Settling t
  := by
  cases a with
  | execute k d => exact hs.execute h
  | go d => exact hs.go ha h
  | call m => exact hs.call ha h
  | cancel token =>
      simp only [Tasks.step] at h
      split at h
      · obtain rfl := Option.some.inj h
        apply hs
      · obtain rfl := Option.some.inj h
        exact hs.cancel rfl rfl rfl rfl rfl
  | fire d r =>
      simp only [Tasks.step] at h
      split at h
      · rename_i pre f below hsplit
        obtain ⟨i, phase⟩ := f
        cases phase with
        | suspended event rest =>
            obtain rfl := Option.some.inj h
            exact hs.fire (State.split_eq hsplit)
        | _ => contradiction
      · contradiction
  | late k r => contradiction

/-- In a run whose steps are uncontested every task settles once. -/
theorem settles_of_uncontested {body : Body τ ω V E} {as : List (Label τ V E)}
    (h : Run (step e) (Meets Uncontested) (initial τ body) as t) :
  Settles t
  := by
  have ht : Settling t := by
    apply h.invariant Settling _ (Settling.initial body)
    intro s a u hs ha hstep
    apply hs.step ha hstep
  apply ht.settles

/-- A coroutine that awaits one task, which has a cancellation token. -/
def awaitCancellable (task : Body Unit Unit ℕ ℕ) : Body Unit Unit ℕ ℕ :=
  .coAwait (some ()) task .ofOutcome

/-- The task is cancelled while it is suspended: the awaiter obtains the exception, and drops the
task. -/
theorem settles_cancelled :
  ∃ as t, Run (step 0) (Meets Uncontested)
      (initial Unit (awaitCancellable (.coSuspend () true .ofOutcome))) as t ∧
    ((t.promise 1).writes = 1 ∧ (t.promise 0).result = some (.error 0) ∧ t.frames.length = 1) ∧
    Settles t
  := by
  let as : List (Label Unit ℕ ℕ) :=
    [.execute 0 0, .go 0, .go 0, .call 0, .execute 0 1, .go 1, .cancel (), .call 1, .call 1,
      .execute 0 0, .go 0, .go 0, .go 0, .go 0]
  obtain ⟨t, hrun, ht⟩ : ∃ t, Run (step 0) (Meets Uncontested)
      (initial Unit (awaitCancellable (.coSuspend () true .ofOutcome))) as t ∧
      ((t.promise 1).writes = 1 ∧ (t.promise 0).result = some (.error 0) ∧
        t.frames.length = 1) := by
    apply exists_run_of_exec_guarded
    decide
  exact ⟨as, t, hrun, ht, settles_of_uncontested hrun⟩

/-- The task is cancelled while a thread runs it: the result is written twice, and the awaiter is
on the scheduler twice. -/
theorem settled_twice :
  ∃ as t, Run (step 0) Free (initial Unit (awaitCancellable (.coReturn 5))) as t ∧ ¬ Settles t ∧
    (t.promise 1).writes = 2 ∧ (t.promise 1).notified = 2 ∧ t.queue = [0, 0]
  := by
  let as : List (Label Unit ℕ ℕ) :=
    [.execute 0 0, .go 0, .go 0, .call 0, .execute 0 1, .cancel (), .call 1, .call 1, .go 1, .go 1,
      .call 2]
  obtain ⟨t, hrun, hwrites, ht⟩ : ∃ t, Run (step 0) Free
      (initial Unit (awaitCancellable (.coReturn 5))) as t ∧
      ((t.promise 1).writes = 2 ∧ (t.promise 1).notified = 2 ∧ t.queue = [0, 0]) := by
    apply exists_run_of_exec
    decide
  refine ⟨as, t, hrun, ?_, hwrites, ht⟩
  intro hsettles
  have hle := hsettles.written_once 1
  omega

end Koroutine.Tasks
