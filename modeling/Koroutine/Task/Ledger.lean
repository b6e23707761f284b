import Mathlib.Data.List.Basic
import Koroutine.Task.Frames

/-!
# The account of a coroutine

What the scheduler and the threads still hold for a coroutine is counted in its account: the
requests to resume it, the calls that start it, and the calls that schedule its continuation.
`Consistent` relates the frames to the accounts.

* A coroutine has as many requests as its phase calls for, and one suspended in a `co_await` has
  as many as the task it awaits has scheduled its continuation.
* The continuation of a task has been scheduled, or a call that schedules it is still to be made,
  exactly as often as the result has been written.
-/

namespace Koroutine.Tasks

variable {τ ω V E : Type}

/-- The call starts the task. -/
def Call.starts (i : ℕ) : Call → Bool
  | .start j => j == i
  | _ => false

/-- The call schedules the continuation of the task. -/
def Call.notifies (i : ℕ) : Call → Bool
  | .notify j _ | .cancelNotify j => j == i
  | _ => false

/-- The promise of a coroutine, the requests for it, and the calls that start it and that schedule
its continuation. -/
structure Account (V E : Type) where
  promise : Promise V E
  requests : ℕ
  starting : ℕ
  notifying : ℕ

def State.account (s : State τ ω V E) (i : ℕ) : Account V E where
  promise := s.promise i
  requests := s.queue.count i
  starting := s.threads.flatten.countP (Call.starts i)
  notifying := s.threads.flatten.countP (Call.notifies i)

/-- The coroutine awaits a task. -/
def Phase.awaits : Phase τ ω V E → Bool
  | .created _ | .awaiting _ | .resuming _ | .obtained _ _ => true
  | _ => false

/-- A worker can resume the coroutine. -/
def Phase.resumable : Phase τ ω V E → Bool
  | .initial _ | .awaiting _ | .fired _ => true
  | _ => false

/-- The number of calls the coroutine is about to make that schedule its continuation. -/
def Phase.returning : Phase τ ω V E → ℕ
  | .returned => 1
  | _ => 0

/-- The requests for a coroutine and the calls that start it are those its phase calls for. -/
def Phase.Fits (a : Account V E) : Phase τ ω V E → Prop
  | .initial _ =>
      (a.promise.started = false ∧ a.requests = 0 ∧ a.starting ≤ 1) ∨
      (a.promise.started = true ∧ a.requests = 1 ∧ a.starting = 0)
  | .fired _ => a.promise.started = true ∧ a.requests = 1 ∧ a.starting = 0
  | .awaiting _ => a.promise.started = true ∧ a.starting = 0
  | .running _ | .created _ | .resuming _ | .obtained _ _ | .suspended _ _ | .returned | .final =>
      a.promise.started = true ∧ a.requests = 0 ∧ a.starting = 0

/-- The result has been written once if there is one, and the continuation has been scheduled, or
will be, as often as the result has been written; the first coroutine has none. -/
structure Account.Balanced (a : Account V E) (i returning : ℕ) : Prop where
  writes : a.promise.writes = a.promise.result.isSome.toNat
  le : a.promise.notified + a.notifying + returning ≤ a.promise.writes
  eq : i ≠ 0 → a.promise.notified + a.notifying + returning = a.promise.writes

/-- A frame and its account agree. -/
structure Sits (f : Frame τ ω V E) (a : Account V E) : Prop where
  fits : f.phase.Fits a
  balanced : a.Balanced f.id f.phase.returning

/-- Nothing is left to do for a coroutine. -/
structure Account.Gone (a : Account V E) (i : ℕ) : Prop where
  requests : a.requests = 0
  starting : a.starting = 0
  notifying : a.notifying = 0
  balanced : a.Balanced i 0

/-- The coroutine `x`, for which there are `requests`, awaits a task with account `a`. -/
def Link (x : Frame τ ω V E) (requests : ℕ) (a : Account V E) : Prop :=
  match x.phase with
  | .created _ =>
      a.promise.started = false ∧ a.starting = 0 ∧ a.promise.continuation = none ∧
        a.promise.notified = 0
  | .awaiting _ => a.promise.continuation = some x.id ∧ requests = a.promise.notified
  | .resuming _ => a.promise.continuation = some x.id ∧ a.promise.notified = 1
  | .obtained r _ =>
      a.promise.continuation = some x.id ∧ a.promise.notified = 1 ∧ a.promise.result = some r
  | _ => False

/-- Each coroutine awaits the next, and the last awaits none. -/
def Chained (account : ℕ → Account V E) : List (Frame τ ω V E) → Prop
  | [] => False
  | [f] => f.phase.awaits = false
  | f :: g :: fs => Link f (account f.id).requests (account g.id) ∧ Chained account (g :: fs)

/-- The frames agree with the accounts. -/
structure Consistent (frames : List (Frame τ ω V E)) (created : ℕ) (account : ℕ → Account V E) :
    Prop where
  first : (frames.map Frame.id).head? = some 0
  increasing : (frames.map Frame.id).Pairwise (· < ·)
  lt_created : ∀ i ∈ frames.map Frame.id, i < created
  chained : Chained account frames
  sits : ∀ f ∈ frames, Sits f (account f.id)
  gone : ∀ i, i ∉ frames.map Frame.id → (account i).Gone i
  fresh : ∀ i, created ≤ i → (account i).promise = .new
  root : (account 0).promise.continuation = none

variable {frames pre below : List (Frame τ ω V E)} {f f' g x : Frame τ ω V E} {created i : ℕ}
  {account account' : ℕ → Account V E} {a a' : Account V E}

/-! ### One account -/

/-- What fits a phase depends on how often the coroutine has been and will be put on the
scheduler. -/
theorem Phase.Fits.congr {phase : Phase τ ω V E} (h : phase.Fits a)
    (hstarted : a'.promise.started = a.promise.started) (hrequests : a'.requests = a.requests)
    (hstarting : a'.starting = a.starting) :
  phase.Fits a'
  := by
  cases phase <;> simp only [Phase.Fits, hstarted, hrequests, hstarting] at h ⊢ <;> apply h

theorem Account.Balanced.notified_le {n : ℕ} (h : a.Balanced i n) :
  a.promise.notified + a.notifying + n ≤ 1
  := by
  have hle := h.le
  have hwrites := h.writes
  have htoNat := Bool.toNat_le a.promise.result.isSome
  omega

theorem Account.Balanced.result_eq_none {n : ℕ} (h : a.Balanced i n)
    (hresult : a.promise.result = none) :
  a.promise.notified = 0 ∧ a.notifying = 0 ∧ n = 0
  := by
  have hle := h.le
  rw [h.writes, hresult] at hle
  simp only [Option.isSome_none, Bool.toNat_false] at hle
  omega

/-- The result of a task is written for the first time, and a call will schedule its
continuation. -/
theorem Account.Balanced.write {n m : ℕ} {r : Except E V} (h : a.Balanced i n)
    (hresult : a.promise.result = none) (hpromise : a'.promise = a.promise.write r)
    (hm : a'.notifying + m = a.notifying + n + 1) :
  a'.Balanced i m
  := by
  obtain ⟨hnotified, hnotifying, hzero⟩ := h.result_eq_none hresult
  have hwrites : a.promise.writes = 0 := by
    rw [h.writes, hresult]
    rfl
  have hone : a'.promise.notified + a'.notifying + m = a'.promise.writes := by
    rw [hpromise]
    simp only [Promise.write]
    omega
  refine ⟨?_, Nat.le_of_eq hone, fun _ => hone⟩
  rw [hpromise]
  simp [Promise.write, hwrites]

/-- An account to which what a coroutine awaits does not change. -/
theorem Link.keep {n : ℕ} (h : Link x n a) (hcont : a'.promise.continuation = a.promise.continuation)
    (hnotified : a'.promise.notified = a.promise.notified)
    (hresult : ∀ r, a.promise.result = some r → a'.promise.result = some r)
    (hstarted : a.promise.started = false → a.starting = 0 →
      a'.promise.started = false ∧ a'.starting = 0) :
  Link x n a'
  := by
  unfold Link at h ⊢
  split at h
  · rw [hcont, hnotified]
    obtain ⟨hs, hn, hrest⟩ := h
    obtain ⟨hs', hn'⟩ := hstarted hs hn
    exact ⟨hs', hn', hrest⟩
  · rw [hcont, hnotified]
    apply h
  · rw [hcont, hnotified]
    apply h
  · rw [hcont, hnotified]
    exact ⟨h.1, h.2.1, hresult _ h.2.2⟩
  · apply h

/-- An account with the same promise and the same calls that start the task. -/
theorem Link.congr {n : ℕ} (h : Link x n a) (hpromise : a'.promise = a.promise)
    (hstarting : a'.starting = a.starting) :
  Link x n a'
  := by
  unfold Link at h ⊢
  rw [hpromise, hstarting]
  apply h

/-- The result of a task is written for the first time. -/
theorem Link.write {n : ℕ} {r : Except E V} (h : Link x n a) (hresult : a.promise.result = none)
    (hpromise : a'.promise = a.promise.write r) (hstarting : a'.starting = a.starting) :
  Link x n a'
  := by
  apply h.keep
  · rw [hpromise]
    rfl
  · rw [hpromise]
    rfl
  · intro r' hr'
    rw [hresult] at hr'
    contradiction
  · intro hs hz
    rw [hpromise, hstarting]
    exact ⟨hs, hz⟩

theorem Link.awaits {n : ℕ} (h : Link x n a) :
  x.phase.awaits = true
  := by
  unfold Link at h
  split at h <;> simp_all [Phase.awaits]

/-! ### Chains -/

theorem Chained.tail :
  ∀ {pre : List (Frame τ ω V E)}, Chained account (pre ++ f :: below) → Chained account (f :: below)
  | [], h => h
  | [_], h => h.2
  | _ :: y :: pre, h => by
      have htail : Chained account ((y :: pre) ++ f :: below) := h.2
      apply htail.tail

/-- Accounts that do not change leave a chain as it is. -/
theorem Chained.congr :
  ∀ {fs : List (Frame τ ω V E)}, Chained account fs → (∀ x ∈ fs, account' x.id = account x.id) →
    Chained account' fs
  | [], h, _ => h
  | [_], h, _ => h
  | x :: y :: fs, h, hsame => by
      constructor
      · rw [hsame x (by simp), hsame y (by simp)]
        apply h.1
      · apply h.2.congr
        intro z hz
        apply hsame z (List.mem_cons_of_mem x hz)

/-- The last part of a chain is replaced. -/
theorem Chained.replace {below' : List (Frame τ ω V E)} (hid : f'.id = f.id)
    (hup : ∀ (x : Frame τ ω V E) n, Link x n (account f.id) → Link x n (account' f.id))
    (htail : Chained account' (f' :: below')) :
  ∀ {pre : List (Frame τ ω V E)}, Chained account (pre ++ f :: below) →
    (∀ x ∈ pre, account' x.id = account x.id) → Chained account' (pre ++ f' :: below')
  | [], _, _ => htail
  | [x], h, hpre => by
      constructor
      · rw [hpre x (by simp), hid]
        apply hup x _ h.1
      · apply htail
  | x :: y :: pre, h, hpre => by
      constructor
      · rw [hpre x (by simp), hpre y (by simp)]
        apply h.1
      · have hrest : Chained account ((y :: pre) ++ f :: below) := h.2
        apply Chained.replace hid hup htail hrest
        intro z hz
        apply hpre z (List.mem_cons_of_mem x hz)

/-- The first frame of a chain is replaced. -/
theorem Chained.replace_head (h : Chained account (f :: below))
    (hbelow : ∀ y ∈ below, account' y.id = account y.id)
    (hlast : f.phase.awaits = false → f'.phase.awaits = false)
    (hdown : ∀ g ∈ below.head?, Link f (account f.id).requests (account g.id) →
      Link f' (account' f'.id).requests (account g.id)) :
  Chained account' (f' :: below)
  := by
  cases below with
  | nil => exact hlast h
  | cons y ys =>
      constructor
      · rw [hbelow y (by simp)]
        apply hdown y rfl h.1
      · apply h.2.congr hbelow

/-- A coroutine that awaits none is the last. -/
theorem Chained.eq_nil (h : Chained account (f :: below)) (hf : f.phase.awaits = false) :
  below = []
  := by
  cases below with
  | nil => rfl
  | cons y ys =>
      have hlink := h.1.awaits
      rw [hf] at hlink
      contradiction

/-- A coroutine that awaits one is followed by it. -/
theorem Chained.exists_cons (h : Chained account (f :: below)) (hf : f.phase.awaits = true) :
  ∃ g ys, below = g :: ys ∧ Link f (account f.id).requests (account g.id)
  := by
  cases below with
  | nil =>
      have hlast : f.phase.awaits = false := h
      rw [hf] at hlast
      contradiction
  | cons g ys => exact ⟨g, ys, rfl, h.1⟩

/-! ### Identities -/

theorem Consistent.ne_below (h : Consistent (pre ++ f :: below) created account)
    (hg : g ∈ below) :
  g.id ≠ f.id
  := by
  have hlt := h.increasing
  rw [List.map_append, List.map_cons, List.pairwise_append, List.pairwise_cons] at hlt
  apply Nat.ne_of_gt
  apply hlt.2.1.1 _ (List.mem_map_of_mem hg)

/-- A coroutine for which something is left to do has a frame. -/
theorem Consistent.exists_frame (h : Consistent frames created account)
    (hi : ¬ (account i).Gone i) :
  ∃ pre f below, frames = pre ++ f :: below ∧ f.id = i
  := by
  have hmem : i ∈ frames.map Frame.id := by
    by_contra hmem
    apply hi (h.gone i hmem)
  obtain ⟨f, hf, rfl⟩ := List.mem_map.mp hmem
  obtain ⟨pre, below, rfl⟩ := List.append_of_mem hf
  exact ⟨pre, f, below, rfl, rfl⟩

/-! ### Steps -/

/-- The last frames and their accounts change, to those of the same coroutines. -/
theorem Consistent.replace {fs fs' : List (Frame τ ω V E)}
    (h : Consistent (pre ++ f :: fs) created account)
    (hids : (f' :: fs').map Frame.id = (f :: fs).map Frame.id)
    (hsame : ∀ i, i ∉ (f :: fs).map Frame.id → account' i = account i)
    (hcont : (account' f.id).promise.continuation = (account f.id).promise.continuation)
    (hup : ∀ (x : Frame τ ω V E) n, Link x n (account f.id) → Link x n (account' f.id))
    (htail : Chained account' (f' :: fs')) (hsits : ∀ g ∈ f' :: fs', Sits g (account' g.id)) :
  Consistent (pre ++ f' :: fs') created account'
  := by
  have hall : (pre ++ f' :: fs').map Frame.id = (pre ++ f :: fs).map Frame.id := by
    rw [List.map_append, List.map_append, hids]
  have hincreasing := h.increasing
  rw [List.map_append, List.pairwise_append] at hincreasing
  obtain ⟨-, hlast, hbefore⟩ := hincreasing
  have hpre : ∀ x ∈ pre, account' x.id = account x.id := by
    intro x hx
    apply hsame
    intro hmem
    apply Nat.lt_irrefl _ (hbefore x.id (List.mem_map_of_mem hx) x.id hmem)
  have hother : ∀ i, i ∉ (pre ++ f :: fs).map Frame.id → account' i = account i := by
    intro i hi
    apply hsame
    intro hmem
    apply hi
    rw [List.map_append]
    apply List.mem_append_right _ hmem
  constructor
  · rw [hall]
    apply h.first
  · rw [hall]
    apply h.increasing
  · rw [hall]
    apply h.lt_created
  · have hid : f'.id = f.id := (List.cons.inj hids).1
    apply Chained.replace hid hup htail h.chained hpre
  · intro g hg
    obtain hg | hg := List.mem_append.mp hg
    · rw [hpre g hg]
      apply h.sits g (List.mem_append_left _ hg)
    · apply hsits g hg
  · rw [hall]
    intro i hi
    rw [hother i hi]
    apply h.gone i hi
  · intro i hi
    have hmem : i ∉ (pre ++ f :: fs).map Frame.id := by
      intro hmem
      have hlt := h.lt_created i hmem
      omega
    rw [hother i hmem]
    apply h.fresh i hi
  · by_cases h0 : f.id = 0
    · rw [← h0, hcont, h0]
      apply h.root
    · have hmem : 0 ∉ (f :: fs).map Frame.id := by
        intro hmem
        obtain hzero | hmem := List.mem_cons.mp hmem
        · exact h0 hzero.symm
        · exact Nat.not_lt_zero _ ((List.pairwise_cons.mp hlast).1 0 hmem)
      rw [hsame 0 hmem]
      apply h.root

/-- A step of one coroutine. -/
theorem Consistent.update (h : Consistent (pre ++ f :: below) created account)
    (hsits : Sits f' a) (hid : f'.id = f.id)
    (hcont : a.promise.continuation = (account f.id).promise.continuation)
    (hup : ∀ (x : Frame τ ω V E) n, Link x n (account f.id) → Link x n a)
    (hlast : f.phase.awaits = false → f'.phase.awaits = false)
    (hdown : ∀ g ∈ below.head?, Link f (account f.id).requests (account g.id) →
      Link f' a.requests (account g.id)) :
  Consistent (pre ++ f' :: below) created (Function.update account f.id a)
  := by
  have hbelow : ∀ y ∈ below, Function.update account f.id a y.id = account y.id := by
    intro y hy
    apply Function.update_of_ne (h.ne_below hy)
  have hself : Function.update account f.id a f'.id = a := by rw [hid, Function.update_self]
  apply h.replace
  · simp [hid]
  · intro i hi
    apply Function.update_of_ne
    rintro rfl
    simp at hi
  · rw [Function.update_self]
    apply hcont
  · rw [Function.update_self]
    apply hup
  · apply h.chained.tail.replace_head hbelow hlast
    rw [hself]
    apply hdown
  · intro y hy
    obtain rfl | hy := List.mem_cons.mp hy
    · rw [hself]
      apply hsits
    · rw [hbelow y hy]
      apply h.sits y (by simp [hy])

/-- A step of one coroutine that leaves its account as it is. -/
theorem Consistent.move (h : Consistent (pre ++ f :: below) created account)
    (hsits : Sits f' (account f.id)) (hid : f'.id = f.id)
    (hlast : f.phase.awaits = false → f'.phase.awaits = false)
    (hdown : ∀ g ∈ below.head?, Link f (account f.id).requests (account g.id) →
      Link f' (account f.id).requests (account g.id)) :
  Consistent (pre ++ f' :: below) created account
  := by
  have hupdate := h.update hsits hid rfl (fun _ _ hlink => hlink) hlast hdown
  rw [Function.update_eq_self] at hupdate
  apply hupdate

/-- A step of a coroutine and the task it awaits. -/
theorem Consistent.update_pair (h : Consistent (pre ++ f :: g :: below) created account)
    (hf : Sits f' a) (hg : Sits g a') (hid : f'.id = f.id)
    (hcont : a.promise.continuation = (account f.id).promise.continuation)
    (hup : ∀ (x : Frame τ ω V E) n, Link x n (account f.id) → Link x n a)
    (hlink : Link f' a.requests a') (hrequests : a'.requests = (account g.id).requests) :
  Consistent (pre ++ f' :: g :: below) created
    (Function.update (Function.update account g.id a') f.id a)
  := by
  have hne : g.id ≠ f.id := h.ne_below (by simp)
  have htail : Chained account (g :: below) := h.chained.tail.2
  have hbelow : ∀ y ∈ below,
      Function.update (Function.update account g.id a') f.id a y.id = account y.id := by
    have hassoc : pre ++ f :: g :: below = (pre ++ [f]) ++ g :: below := by simp
    intro y hy
    rw [Function.update_of_ne (h.ne_below (by simp [hy]))]
    rw [hassoc] at h
    rw [Function.update_of_ne (h.ne_below hy)]
  have hself : Function.update (Function.update account g.id a') f.id a f'.id = a := by
    rw [hid, Function.update_self]
  have hother : Function.update (Function.update account g.id a') f.id a g.id = a' := by
    rw [Function.update_of_ne hne, Function.update_self]
  apply h.replace
  · simp [hid]
  · intro i hi
    simp only [List.map_cons, List.mem_cons, not_or] at hi
    rw [Function.update_of_ne hi.1, Function.update_of_ne hi.2.1]
  · rw [Function.update_self]
    apply hcont
  · rw [Function.update_self]
    apply hup
  · constructor
    · rw [hself, hother]
      apply hlink
    · apply htail.replace_head hbelow (fun hlast => hlast)
      intro y _ hy
      rw [hother, hrequests]
      apply hy
  · intro y hy
    simp only [List.mem_cons] at hy
    obtain rfl | rfl | hy := hy
    · rw [hself]
      apply hf
    · rw [hother]
      apply hg
    · rw [hbelow y hy]
      apply h.sits y (by simp [hy])

/-- A coroutine is suspended in the `co_await` of a new task, and about to start it. -/
theorem Consistent.suspend {rest : Except E V → Body τ ω V E}
    (h : Consistent (pre ++ ⟨i, .created rest⟩ :: g :: below) created account) :
  Consistent (pre ++ ⟨i, .awaiting rest⟩ :: g :: below) created
    (Function.update account g.id
      { account g.id with
        promise := { (account g.id).promise with continuation := some i }
        starting := (account g.id).starting + 1 })
  := by
  obtain ⟨hstarted, hstarting, hcont, hnotified⟩ := h.chained.tail.1
  obtain ⟨hfits, hbalanced⟩ := h.sits ⟨i, .created rest⟩ (by simp)
  obtain ⟨hgfits, hgbalanced⟩ := h.sits g (by simp)
  have hne : g.id ≠ i := h.ne_below (f := ⟨i, .created rest⟩) (by simp)
  have hf : Sits ⟨i, .awaiting rest⟩ (account i) := ⟨⟨hfits.1, hfits.2.2⟩, hbalanced⟩
  have hg : Sits g { account g.id with
      promise := { (account g.id).promise with continuation := some i }
      starting := (account g.id).starting + 1 } := by
    constructor
    · cases hphase : g.phase <;> simp_all [Phase.Fits]
    · exact ⟨hgbalanced.writes, hgbalanced.le, hgbalanced.eq⟩
  have hpair := h.update_pair hf hg rfl rfl (fun _ _ hlink => hlink)
    ⟨rfl, by rw [hfits.2.1, hnotified]⟩ rfl
  have hself : ∀ b, Function.update account g.id b i = account i := by
    intro b
    apply Function.update_of_ne (Ne.symm hne)
  rw [← hself, Function.update_eq_self] at hpair
  apply hpair

/-- A coroutine that has been started and has no continuation is the first. -/
theorem Consistent.eq_zero (h : Consistent (pre ++ f :: below) created account)
    (hstarted : (account f.id).promise.started = true)
    (hcont : (account f.id).promise.continuation = none) :
  f.id = 0
  := by
  obtain rfl | ⟨pre, x, rfl⟩ := List.eq_nil_or_concat' pre
  · simpa using h.first
  · have hassoc : (pre ++ [x]) ++ f :: below = pre ++ x :: f :: below := by simp
    rw [hassoc] at h
    have hlink := h.chained.tail.1
    unfold Link at hlink
    split at hlink <;> simp_all

/-- The last coroutine awaits a new task. -/
theorem Consistent.create {rest : Except E V → Body τ ω V E} {task : Body τ ω V E}
    (h : Consistent (pre ++ [f]) created account)
    (hsits : Sits ⟨f.id, .created rest⟩ (account f.id)) :
  Consistent (pre ++ [⟨f.id, .created rest⟩, ⟨created, .initial task⟩]) (created + 1) account
  := by
  have hids : (pre ++ [⟨f.id, .created rest⟩, (⟨created, .initial task⟩ : Frame τ ω V E)]).map
      Frame.id = (pre ++ [f]).map Frame.id ++ [created] := by simp
  have hmem : created ∉ (pre ++ [f]).map Frame.id := by
    intro hmem
    apply Nat.lt_irrefl created (h.lt_created created hmem)
  have hgone := h.gone created hmem
  have hnew := h.fresh created (Nat.le_refl created)
  constructor
  · rw [hids, List.head?_append, h.first]
    rfl
  · rw [hids, List.pairwise_append]
    refine ⟨h.increasing, by simp, ?_⟩
    intro i hi j hj
    obtain rfl := List.mem_singleton.mp hj
    apply h.lt_created i hi
  · rw [hids]
    intro i hi
    obtain hi | hi := List.mem_append.mp hi
    · have := h.lt_created i hi
      omega
    · obtain rfl := List.mem_singleton.mp hi
      omega
  · have hid : Frame.id ⟨f.id, .created rest⟩ = f.id := rfl
    apply Chained.replace hid (fun _ _ hlink => hlink) _ h.chained (fun _ _ => rfl)
    constructor
    · simp [Link, hnew, hgone.starting, Promise.new]
    · rfl
  · intro g hg
    simp only [List.mem_append, List.mem_cons, List.not_mem_nil, or_false] at hg
    obtain hg | rfl | rfl := hg
    · apply h.sits g (by simp [hg])
    · apply hsits
    · constructor
      · left
        simp [hnew, hgone.requests, hgone.starting, Promise.new]
      · apply hgone.balanced
  · rw [hids]
    intro i hi
    apply h.gone
    intro hmem
    apply hi (List.mem_append_left _ hmem)
  · intro i hi
    apply h.fresh i (by omega)
  · apply h.root

/-- The frames that follow one are destroyed. -/
theorem Consistent.drop (h : Consistent (pre ++ f :: below) created account)
    (hsits : Sits f' (account f.id)) (hid : f'.id = f.id) (hlast : f'.phase.awaits = false)
    (hquiet : ∀ g ∈ below, (account g.id).requests = 0 ∧ (account g.id).starting = 0 ∧
      (account g.id).notifying = 0 ∧ g.phase.returning = 0) :
  Consistent (pre ++ [f']) created account
  := by
  have hids : (pre ++ f :: below).map Frame.id =
      (pre ++ [f']).map Frame.id ++ below.map Frame.id := by simp [hid]
  constructor
  · have hfirst := h.first
    rw [hids, List.head?_append_of_ne_nil _ (by simp)] at hfirst
    apply hfirst
  · have hincreasing := h.increasing
    rw [hids] at hincreasing
    apply (List.pairwise_append.mp hincreasing).1
  · intro i hi
    apply h.lt_created
    rw [hids]
    apply List.mem_append_left _ hi
  · apply Chained.replace hid (fun _ _ hlink => hlink) _ h.chained (fun _ _ => rfl)
    apply hlast
  · intro g hg
    simp only [List.mem_append, List.mem_cons, List.not_mem_nil, or_false] at hg
    obtain hg | rfl := hg
    · apply h.sits g (by simp [hg])
    · rw [hid]
      apply hsits
  · intro i hi
    by_cases hbelow : i ∈ below.map Frame.id
    · obtain ⟨g, hg, rfl⟩ := List.mem_map.mp hbelow
      obtain ⟨hrequests, hstarting, hnotifying, hreturning⟩ := hquiet g hg
      have hbalanced := (h.sits g (by simp [hg])).balanced
      rw [hreturning] at hbalanced
      exact ⟨hrequests, hstarting, hnotifying, hbalanced⟩
    · apply h.gone
      rw [hids, List.mem_append, not_or]
      exact ⟨hi, hbelow⟩
  · apply h.fresh
  · apply h.root

/-- While a call is to be made that schedules the continuation of a task, the coroutine that
awaits it is suspended. -/
theorem Consistent.exists_awaiter {j : ℕ} (h : Consistent frames created account)
    (hn : 0 < (account i).notifying) (hc : (account i).promise.continuation = some j) :
  ∃ pre rest g below, frames = pre ++ ⟨j, .awaiting rest⟩ :: g :: below ∧ g.id = i ∧
    (account j).requests = (account i).promise.notified
  := by
  obtain ⟨pre, g, below, rfl, rfl⟩ := h.exists_frame (i := i) fun hgone => by
    have := hgone.notifying
    omega
  have hle := (h.sits g (by simp)).balanced.notified_le
  obtain rfl | ⟨pre, x, rfl⟩ := List.eq_nil_or_concat' pre
  · -- the first coroutine has no continuation
    have h0 : g.id = 0 := by simpa using h.first
    rw [h0, h.root] at hc
    contradiction
  · have hassoc : (pre ++ [x]) ++ g :: below = pre ++ x :: g :: below := by simp
    rw [hassoc] at h ⊢
    have hlink := h.chained.tail.1
    obtain ⟨k, phase⟩ := x
    cases phase with
    | awaiting rest =>
        obtain ⟨hcont, hrequests⟩ := hlink
        obtain rfl : k = j := by
          rw [hc] at hcont
          exact (Option.some.inj hcont).symm
        exact ⟨pre, rest, g, below, rfl, rfl, hrequests⟩
    | created rest =>
        rw [hlink.2.2.1] at hc
        contradiction
    | resuming rest =>
        have := hlink.2
        omega
    | obtained r rest =>
        have := hlink.2.1
        omega
    | _ => exact hlink.elim

/-- A call schedules the continuation of a task. -/
theorem Consistent.notify {j : ℕ} (h : Consistent frames created account)
    (hn : 0 < (account i).notifying) (hc : (account i).promise.continuation = some j) :
  Consistent frames created
    (Function.update
      (Function.update account i
        { account i with
          promise :=
            { (account i).promise with notified := (account i).promise.notified + 1 }
          notifying := (account i).notifying - 1 })
      j { account j with requests := (account j).requests + 1 })
  := by
  obtain ⟨pre, rest, g, below, rfl, rfl, hrequests⟩ := h.exists_awaiter hn hc
  obtain ⟨hfits, hbalanced⟩ := h.sits ⟨j, .awaiting rest⟩ (by simp)
  obtain ⟨hgfits, hwrites, hle, heq⟩ := h.sits g (by simp)
  have hf : Sits (⟨j, .awaiting rest⟩ : Frame τ ω V E)
      { account j with requests := (account j).requests + 1 } :=
    ⟨hfits, hbalanced.writes, hbalanced.le, hbalanced.eq⟩
  have hg : Sits g { account g.id with
      promise := { (account g.id).promise with notified := (account g.id).promise.notified + 1 }
      notifying := (account g.id).notifying - 1 } := by
    constructor
    · apply hgfits.congr <;> rfl
    · constructor
      · apply hwrites
      · simp only
        omega
      · intro hne
        have := heq hne
        simp only
        omega
  apply h.update_pair hf hg rfl rfl
  · intro x n hlink
    apply hlink.congr rfl rfl
  · exact ⟨hc, by simp [hrequests]⟩
  · rfl

/-! ### What the accounts say -/

/-- A task that a call will start is at its beginning, and has not been started. -/
theorem Sits.unstarted (h : Sits f a) (hpos : 0 < a.starting) :
  (∃ body, f.phase = .initial body) ∧ a.promise.started = false ∧ a.requests = 0 ∧ a.starting = 1
  := by
  obtain ⟨j, phase⟩ := f
  cases phase with
  | initial body =>
      obtain ⟨hstarted, hrequests, hle⟩ | ⟨-, -, hzero⟩ := h.fits
      · exact ⟨⟨body, rfl⟩, hstarted, hrequests, by omega⟩
      · omega
  | awaiting rest => exact absurd h.fits.2 (Nat.ne_of_gt hpos)
  | running _ | created _ | resuming _ | obtained _ _ | suspended _ _ | fired _ | returned | final =>
      exact absurd h.fits.2.2 (Nat.ne_of_gt hpos)

/-- The books of every coroutine balance. -/
theorem Consistent.exists_balanced (h : Consistent frames created account) (i : ℕ) :
  ∃ n, (account i).Balanced i n ∧ (n = 0 ∨ ∃ f ∈ frames, f.id = i ∧ f.phase.returning = n)
  := by
  by_cases hi : i ∈ frames.map Frame.id
  · obtain ⟨f, hf, rfl⟩ := List.mem_map.mp hi
    exact ⟨_, (h.sits f hf).balanced, Or.inr ⟨f, hf, rfl, rfl⟩⟩
  · exact ⟨0, (h.gone i hi).balanced, Or.inl rfl⟩

/-- There is one request for a coroutine that is on the scheduler, and it can be resumed. -/
theorem Consistent.requested (h : Consistent frames created account)
    (hi : 0 < (account i).requests) :
  (account i).requests = 1 ∧ ∃ f ∈ frames, f.id = i ∧ f.phase.resumable = true
  := by
  obtain ⟨pre, f, below, rfl, rfl⟩ := h.exists_frame (i := i) fun hgone => by
    have := hgone.requests
    omega
  have hfits := (h.sits f (by simp)).fits
  have hone : (account f.id).requests = 1 ∧ f.phase.resumable = true := by
    obtain ⟨j, phase⟩ := f
    cases phase with
    | initial body =>
        obtain ⟨-, hzero, -⟩ | ⟨-, hone, -⟩ := hfits
        · omega
        · exact ⟨hone, rfl⟩
    | fired body => exact ⟨hfits.2.1, rfl⟩
    | awaiting rest =>
        obtain ⟨g, ys, rfl, -, hrequests⟩ := h.chained.tail.exists_cons rfl
        have hle := (h.sits g (by simp)).balanced.notified_le
        exact ⟨by omega, rfl⟩
    | running _ | created _ | resuming _ | obtained _ _ | suspended _ _ | returned | final =>
        exact absurd hfits.2.1 (Nat.ne_of_gt hi)
  exact ⟨hone.1, f, by simp, rfl, hone.2⟩

end Koroutine.Tasks
