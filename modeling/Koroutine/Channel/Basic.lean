import Mathlib.Data.List.Basic
import Mathlib.Logic.Function.Basic

/-!
# `Channel`

A channel has a bounded `buffer` and two lists of suspended coroutines, `writer_list` and
`reader_list`.  `try_push_reader` and `try_push_writer`, called when a read or a write suspends,
decide under `channel_lock` whether a value is handed over, buffered, or the awaiter parked, and
call `resume` on the awaiters concerned after they have unlocked.

A step of the model is one section under `channel_lock`, one of the `resume` calls that follow it,
or one call of `await_resume`.  The `resume` calls a thread has still to make are kept in order in
`threads`, one list for each thread; the calls of different threads interleave.

`read` and `write` check `_is_active` once more when they create the awaiter.  A channel that is
closed stays closed, so that check adds nothing to the one made under the lock.

`written`, `handed`, `parked` and `served` record the history of the channel: the writes in the
order in which they took the lock, the values handed to readers, the readers in the order in which
they were parked, and in the order in which parked readers were served.
-/

namespace Koroutine

namespace Channel

/-- A `WriterAwaiter`: its identity and its `_value`. -/
structure Writer (V : Type*) where
  id : ℕ
  value : V
  deriving DecidableEq

/-- A `ReaderAwaiter`: its identity, and whether its `p_value` is set, as it is by `operator>>` and
not by `read`. -/
structure Reader where
  id : ℕ
  p_value : Bool
  deriving DecidableEq

/-- The readers that `read` makes. -/
instance : Coe ℕ Reader := ⟨fun n => ⟨n, false⟩⟩

instance (n : ℕ) : OfNat Reader n := ⟨n⟩

/-- The identity of an awaiter. -/
inductive Awaiter
  | reader (r : Reader)
  | writer (w : ℕ)
  deriving DecidableEq

/-- A call of `resume`, on a reader with a value or on a writer. -/
inductive Call (V : Type*)
  | reader (r : Reader) (v : V)
  | writer (w : ℕ)
  deriving DecidableEq

/-- The awaiter a call resumes. -/
def Call.awaiter {V : Type*} : Call V → Awaiter
  | .reader r _ => .reader r
  | .writer w => .writer w

/-- How a `co_await` on the channel ends: with a value; with what is left of a value that has been
moved to where `p_value` points; normally; with `ChannelClosedException`; or by reading a result
that is not there. -/
inductive Outcome (V : Type*)
  | value (v : V)
  | assigned (v : V)
  | done
  | closed
  | undefined
  deriving DecidableEq

/-- How the `co_await` of a reader ends that has been given a value: `before_resume` moves it to
where `p_value` points, if that is set, and what the `_result` holds then is returned. -/
def Reader.obtain {V : Type*} (r : Reader) (v : V) : Outcome V :=
  if r.p_value then .assigned v else .value v

/-- What a `co_await` returns, where a move leaves `moved_from v` of a value `v`. -/
def Outcome.returned {V : Type*} (moved_from : V → V) : Outcome V → Option V
  | .value v => some v
  | .assigned v => some (moved_from v)
  | .done | .closed | .undefined => none

/-- The channel, the threads inside its member functions, and its awaiters: whether `await_suspend`
has been called, how often `resume` has, the `_result` the readers are given, and how the
`co_await`s have ended. -/
structure State (V : Type*) where
  is_active : Bool
  closing : Bool
  buffer : List V
  writer_list : List (Writer V)
  reader_list : List Reader
  threads : List (List (Call V))
  suspended : Awaiter → Bool
  resumes : Awaiter → ℕ
  result : Reader → Option V
  outcome : Awaiter → Option (Outcome V)
  written : List (Writer V)
  handed : List (Reader × V)
  parked : List Reader
  served : List Reader

/-- The steps: a read or a write suspends, the next call of thread `k` is made, an awaiter's
`await_resume` runs, the channel is closed and cleaned up, an awaiter is destroyed. -/
inductive Label (V : Type*)
  | try_push_reader (r : Reader)
  | try_push_writer (w : Writer V)
  | resume (k : ℕ)
  | await_resume (a : Awaiter)
  | close
  | clean_up
  | remove_reader (r : Reader)
  | remove_writer (w : ℕ)
  deriving DecidableEq

variable {V : Type*}

/-- The awaiter that suspends in a step. -/
def Label.suspends : Label V → Option Awaiter
  | .try_push_reader r => some (.reader r)
  | .try_push_writer w => some (.writer w.id)
  | _ => none

/-- A new channel. -/
def initial (V : Type*) : State V where
  is_active := true
  closing := false
  buffer := []
  writer_list := []
  reader_list := []
  threads := []
  suspended := fun _ => false
  resumes := fun _ => 0
  result := fun _ => none
  outcome := fun _ => none
  written := []
  handed := []
  parked := []
  served := []

namespace State

/-- `try_push_reader` with a value in the buffer and a parked writer, whose value takes its
place. -/
def refill (s : State V) (r : Reader) (v : V) (buffer : List V) (w : Writer V)
    (writers : List (Writer V)) : State V :=
  { s with
    buffer := buffer ++ [w.value]
    writer_list := writers
    threads := s.threads ++ [[.writer w.id, .reader r v]]
    suspended := Function.update s.suspended (.reader r) true
    handed := s.handed ++ [(r, v)] }

/-- `try_push_reader` with a value in the buffer and no parked writer. -/
def take (s : State V) (r : Reader) (v : V) (buffer : List V) : State V :=
  { s with
    buffer := buffer
    threads := s.threads ++ [[.reader r v]]
    suspended := Function.update s.suspended (.reader r) true
    handed := s.handed ++ [(r, v)] }

/-- `try_push_reader` with an empty buffer and a parked writer. -/
def takeFrom (s : State V) (r : Reader) (w : Writer V) (writers : List (Writer V)) : State V :=
  { s with
    writer_list := writers
    threads := s.threads ++ [[.reader r w.value, .writer w.id]]
    suspended := Function.update s.suspended (.reader r) true
    handed := s.handed ++ [(r, w.value)] }

/-- `reader_list.push_back(reader_awaiter)` -/
def parkReader (s : State V) (r : Reader) : State V :=
  { s with
    reader_list := s.reader_list ++ [r]
    suspended := Function.update s.suspended (.reader r) true
    parked := s.parked ++ [r] }

/-- `try_push_writer` with a parked reader. -/
def handTo (s : State V) (w : Writer V) (r : Reader) (readers : List Reader) : State V :=
  { s with
    reader_list := readers
    threads := s.threads ++ [[.reader r w.value, .writer w.id]]
    suspended := Function.update s.suspended (.writer w.id) true
    written := s.written ++ [w]
    handed := s.handed ++ [(r, w.value)]
    served := s.served ++ [r] }

/-- `try_push_writer` with room in the buffer. -/
def put (s : State V) (w : Writer V) : State V :=
  { s with
    buffer := s.buffer ++ [w.value]
    threads := s.threads ++ [[.writer w.id]]
    suspended := Function.update s.suspended (.writer w.id) true
    written := s.written ++ [w] }

/-- `writer_list.push_back(writer_awaiter)` -/
def parkWriter (s : State V) (w : Writer V) : State V :=
  { s with
    writer_list := s.writer_list ++ [w]
    suspended := Function.update s.suspended (.writer w.id) true
    written := s.written ++ [w] }

/-- `check_closed` throws in `await_suspend`, and the `co_await` with it. -/
def refuse (s : State V) (a : Awaiter) : State V :=
  { s with
    suspended := Function.update s.suspended a true
    outcome := Function.update s.outcome a (some .closed) }

/-- `reader->resume(v)` or `writer->resume()`: the result is set and the coroutine scheduled. -/
def call (s : State V) : Call V → State V
  | .reader r v =>
      { s with
        result := Function.update s.result r (some v)
        resumes := Function.update s.resumes (.reader r) (s.resumes (.reader r) + 1) }
  | .writer w =>
      { s with resumes := Function.update s.resumes (.writer w) (s.resumes (.writer w) + 1) }

/-- `reader->resume_unsafe()`: the coroutine is scheduled without a result. -/
def wake (s : State V) (r : Reader) : State V :=
  { s with resumes := Function.update s.resumes (.reader r) (s.resumes (.reader r) + 1) }

/-- What `await_resume` of awaiter `a` gives: `before_resume` checks the channel, then the result is
read. -/
def awaitResume (s : State V) (a : Awaiter) : Outcome V :=
  if s.is_active = false then .closed
  else match a with
    | .writer _ => .done
    | .reader r =>
        match s.result r with
        | some v => r.obtain v
        | none => .undefined

end State

/-- The section under the lock of `try_push_reader`. -/
def tryPushReader (s : State V) (r : Reader) : State V :=
  if s.is_active = false then s.refuse (.reader r)
  else match s.buffer, s.writer_list with
    | v :: buffer, w :: writers => s.refill r v buffer w writers
    | v :: buffer, [] => s.take r v buffer
    | [], w :: writers => s.takeFrom r w writers
    | [], [] => s.parkReader r

/-- The section under the lock of `try_push_writer`. -/
def tryPushWriter (capacity : ℕ) (s : State V) (w : Writer V) : State V :=
  if s.is_active = false then s.refuse (.writer w.id)
  else match s.reader_list with
    | r :: readers => s.handTo w r readers
    | [] => if s.buffer.length < capacity then s.put w else s.parkWriter w

/-- `clean_up`: every parked awaiter is resumed, and the channel emptied. -/
def cleanUp (s : State V) : State V :=
  let woken := s.reader_list.foldl State.wake
    (s.writer_list.foldl (fun t w => t.call (.writer w.id)) s)
  { woken with closing := false, buffer := [], writer_list := [], reader_list := [] }

/-- The step function of a channel with the given capacity. -/
def step (capacity : ℕ) (s : State V) : Label V → Option (State V)
  | .try_push_reader r =>
      if s.suspended (.reader r) then none else some (tryPushReader s r)
  | .try_push_writer w =>
      if s.suspended (.writer w.id) then none else some (tryPushWriter capacity s w)
  | .resume k =>
      match s.threads[k]? with
      | some (c :: calls) => some ({ s with threads := s.threads.set k calls }.call c)
      | _ => none
  | .await_resume a =>
      if 0 < s.resumes a ∧ s.outcome a = none then
        some { s with outcome := Function.update s.outcome a (some (s.awaitResume a)) }
      else none
  | .close => if s.is_active then some { s with is_active := false, closing := true } else none
  | .clean_up => if s.closing then some (cleanUp s) else none
  | .remove_reader r => some { s with reader_list := s.reader_list.filter (· ≠ r) }
  | .remove_writer w => some { s with writer_list := s.writer_list.filter (·.id ≠ w) }

/-! ### What the operations leave as it is -/

variable {capacity : ℕ} {s : State V}

@[simp] theorem tryPushReader_is_active (r : Reader) :
  (tryPushReader s r).is_active = s.is_active
  := by
  unfold tryPushReader
  repeat' split
  all_goals rfl

@[simp] theorem tryPushReader_closing (r : Reader) :
  (tryPushReader s r).closing = s.closing
  := by
  unfold tryPushReader
  repeat' split
  all_goals rfl

@[simp] theorem tryPushReader_suspended (r : Reader) :
  (tryPushReader s r).suspended = Function.update s.suspended (.reader r) true
  := by
  unfold tryPushReader
  repeat' split
  all_goals rfl

@[simp] theorem tryPushWriter_is_active (w : Writer V) :
  (tryPushWriter capacity s w).is_active = s.is_active
  := by
  unfold tryPushWriter
  repeat' split
  all_goals rfl

@[simp] theorem tryPushWriter_closing (w : Writer V) :
  (tryPushWriter capacity s w).closing = s.closing
  := by
  unfold tryPushWriter
  repeat' split
  all_goals rfl

@[simp] theorem tryPushWriter_suspended (w : Writer V) :
  (tryPushWriter capacity s w).suspended = Function.update s.suspended (.writer w.id) true
  := by
  unfold tryPushWriter
  repeat' split
  all_goals rfl

/-- What a step does to a closed channel: reads and writes are refused. -/
inductive ClosedEffect (s : State V) : Label V → State V → Prop
  | refuse {a : Label V} {b : Awaiter} (ha : a.suspends = some b)
      (hnew : s.suspended b = false) : ClosedEffect s a (s.refuse b)
  | resume {k : ℕ} {c : Call V} {calls : List (Call V)} (hk : s.threads[k]? = some (c :: calls)) :
      ClosedEffect s (.resume k) ({ s with threads := s.threads.set k calls }.call c)
  | awaitResume {b : Awaiter} (hresumed : 0 < s.resumes b) (hnone : s.outcome b = none) :
      ClosedEffect s (.await_resume b)
        { s with outcome := Function.update s.outcome b (some .closed) }
  | cleanUp (hclosing : s.closing = true) : ClosedEffect s .clean_up (cleanUp s)
  | removeReader (r : Reader) : ClosedEffect s (.remove_reader r)
      { s with reader_list := s.reader_list.filter (· ≠ r) }
  | removeWriter (w : ℕ) : ClosedEffect s (.remove_writer w)
      { s with writer_list := s.writer_list.filter (·.id ≠ w) }

theorem closedEffect_step {t : State V} {a : Label V} (hclosed : s.is_active = false)
    (h : step capacity s a = some t) :
  ClosedEffect s a t
  := by
  cases a with
  | try_push_reader r =>
      simp only [step, tryPushReader, hclosed, if_true, Option.ite_none_left_eq_some,
        Option.some.injEq] at h
      obtain ⟨hnew, rfl⟩ := h
      apply ClosedEffect.refuse rfl (Bool.eq_false_iff.mpr hnew)
  | try_push_writer w =>
      simp only [step, tryPushWriter, hclosed, if_true, Option.ite_none_left_eq_some,
        Option.some.injEq] at h
      obtain ⟨hnew, rfl⟩ := h
      apply ClosedEffect.refuse rfl (Bool.eq_false_iff.mpr hnew)
  | resume k =>
      simp only [step] at h
      split at h
      · rename_i c calls hk
        obtain rfl := Option.some.inj h
        apply ClosedEffect.resume hk
      · contradiction
  | await_resume b =>
      have houtcome : s.awaitResume b = .closed := if_pos hclosed
      simp only [step, houtcome, Option.ite_none_right_eq_some, Option.some.injEq] at h
      obtain ⟨⟨hresumed, hnone⟩, rfl⟩ := h
      apply ClosedEffect.awaitResume hresumed hnone
  | close => simp [step, hclosed] at h
  | clean_up =>
      simp only [step, Option.ite_none_right_eq_some, Option.some.injEq] at h
      obtain ⟨hclosing, rfl⟩ := h
      apply ClosedEffect.cleanUp hclosing
  | remove_reader r =>
      obtain rfl := Option.some.inj h
      apply ClosedEffect.removeReader
  | remove_writer w =>
      obtain rfl := Option.some.inj h
      apply ClosedEffect.removeWriter

end Channel

end Koroutine
