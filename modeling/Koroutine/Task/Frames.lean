import Mathlib.Data.List.Basic
import Mathlib.Logic.Function.Basic
import Koroutine.Task.Body

/-!
# Tasks and their coroutine frames

The coroutine frames of a chain of awaits: the first awaits the second, and so on.  The awaiter in
a frame owns the next one, and destroys it, with all that follow, at the end of the `co_await`.
The promise of a frame that has been destroyed keeps its last contents, which is what a callback
that still refers to it finds.

A step of the model is one of a worker that resumes a coroutine, of the thread that runs a
coroutine, or of a thread that has left a coroutine suspended and calls `start` or `schedule`; or
the first or second half of a cancellation callback; or an event that resumes a coroutine suspended
on something other than a task, even one whose frame has been destroyed.  The calls a thread has
still to make are kept in `threads`.

`writes` and `notified` count how often the result of a promise has been written and its
continuation scheduled, and `destroyed` keeps the frames as they were when they were destroyed.
-/

namespace Koroutine

namespace Tasks

variable {τ ω V E : Type}

/-- Where a coroutine is. -/
inductive Phase (τ ω V E : Type)
  /-- Suspended at its beginning. -/
  | initial (body : Body τ ω V E)
  /-- Running its body. -/
  | running (body : Body τ ω V E)
  /-- In a `co_await`, with the awaiter constructed, about to call `await_ready`. -/
  | created (rest : Except E V → Body τ ω V E)
  /-- Suspended in a `co_await` of a task. -/
  | awaiting (rest : Except E V → Body τ ω V E)
  /-- Resumed, about to call `get_result`. -/
  | resuming (rest : Except E V → Body τ ω V E)
  /-- At the end of the `co_await`, about to destroy the awaiter. -/
  | obtained (r : Except E V) (rest : Except E V → Body τ ω V E)
  /-- Suspended until an event. -/
  | suspended (event : ω) (rest : Except E V → Body τ ω V E)
  /-- The event has put it on the scheduler. -/
  | fired (rest : Body τ ω V E)
  /-- The result is written, and `final_suspend` about to be called. -/
  | returned
  /-- Suspended at its end. -/
  | final

/-- `handle.done()` -/
def Phase.done : Phase τ ω V E → Bool
  | .final => true
  | _ => false

/-- A thread runs the coroutine. -/
def Phase.busy : Phase τ ω V E → Bool
  | .running _ | .created _ | .resuming _ | .obtained _ _ | .returned => true
  | _ => false

/-- A coroutine frame and the handle that identifies it. -/
structure Frame (τ ω V E : Type) where
  id : ℕ
  phase : Phase τ ω V E

/-- A `TaskPromise`. -/
structure Promise (V E : Type) where
  result : Option (Except E V)
  started : Bool
  continuation : Option ℕ
  writes : ℕ
  notified : ℕ

/-- A call a thread has still to make: `start` on task `i`, the `schedule` of its continuation in
`FinalAwaiter::await_suspend`, its cancellation callback, or the second half of this callback. -/
inductive Call
  | start (i : ℕ)
  | notify (i : ℕ) (continuation : ℕ)
  | callback (i : ℕ)
  | cancelNotify (i : ℕ)
  deriving DecidableEq

/-- The frames, their promises with the cancellation tokens they have been given, the scheduler's
queue, the threads, the tokens with their callbacks, and the history. -/
structure State (τ ω V E : Type) where
  frames : List (Frame τ ω V E)
  created : ℕ
  promise : ℕ → Promise V E
  cancel_token : ℕ → Option τ
  queue : List ℕ
  threads : List (List Call)
  cancelled : τ → Bool
  callbacks : τ → List ℕ
  destroyed : List (Frame τ ω V E)

/-- The steps: a worker takes the `k`-th request for the coroutine at depth `d`, the thread that
runs the coroutine at depth `d` goes on, thread `m` makes its next call, a token is cancelled, an
event resumes the coroutine at depth `d`, or comes too late, after the coroutine suspended on it has
been destroyed, as the `k`-th. -/
inductive Label (τ V E : Type)
  | execute (k d : ℕ)
  | go (d : ℕ)
  | call (m : ℕ)
  | cancel (token : τ)
  | fire (d : ℕ) (r : Except E V)
  | late (k : ℕ) (r : Except E V)

/-- The promise of a new task. -/
def Promise.new : Promise V E where
  result := none
  started := false
  continuation := none
  writes := 0
  notified := 0

/-- `result = ...` -/
def Promise.write (p : Promise V E) (r : Except E V) : Promise V E :=
  { p with result := some r, writes := p.writes + 1 }

namespace State

/-- A promise changes. -/
def setPromise (s : State τ ω V E) (i : ℕ) (p : Promise V E) : State τ ω V E :=
  { s with promise := Function.update s.promise i p }

/-- The frame behind those of `pre` goes on, and `below` are those that follow it. -/
def put (s : State τ ω V E) (pre : List (Frame τ ω V E)) (f : Frame τ ω V E)
    (below : List (Frame τ ω V E)) : State τ ω V E :=
  { s with frames := pre ++ f :: below }

/-- A request is put on the scheduler. -/
def schedule (s : State τ ω V E) (i : ℕ) : State τ ω V E :=
  { s with queue := s.queue ++ [i] }

/-- The continuation of task `i` is put on the scheduler. -/
def notify (s : State τ ω V E) (i h : ℕ) : State τ ω V E :=
  (s.setPromise i { s.promise i with notified := (s.promise i).notified + 1 }).schedule h

/-- A thread has calls to make. -/
def spawn (s : State τ ω V E) (calls : List Call) : State τ ω V E :=
  { s with threads := s.threads ++ [calls] }

/-- A task is created, with a cancellation token: `set_cancellation_token` registers the callback,
or, for a token that has been cancelled, calls it at once, when there is no continuation yet. -/
def create (s : State τ ω V E) [DecidableEq τ] (cancelledException : E) :
    Option τ → State τ ω V E
  | none => { s.setPromise s.created .new with created := s.created + 1 }
  | some token =>
      if s.cancelled token then
        { s.setPromise s.created (Promise.new.write (.error cancelledException)) with
          created := s.created + 1
          cancel_token := Function.update s.cancel_token s.created (some token) }
      else
        { s.setPromise s.created .new with
          created := s.created + 1
          cancel_token := Function.update s.cancel_token s.created (some token)
          callbacks := Function.update s.callbacks token (s.callbacks token ++ [s.created]) }

/-- The frames that follow one are destroyed. -/
def destroy (s : State τ ω V E) (below : List (Frame τ ω V E)) : State τ ω V E :=
  { s with destroyed := s.destroyed ++ below }

/-- The token of a coroutine is cancelled. -/
def tokenCancelled (s : State τ ω V E) (i : ℕ) : Bool := (s.cancel_token i).any s.cancelled

/-- The frame at a depth, with those before it and those that follow it. -/
def split (s : State τ ω V E) (d : ℕ) :
    Option (List (Frame τ ω V E) × Frame τ ω V E × List (Frame τ ω V E)) :=
  match s.frames.drop d with
  | [] => none
  | f :: below => some (s.frames.take d, f, below)

end State

/-- `await_ready`, and, if the task is not done, the first half of `await_suspend`:
`set_continuation`, after which the thread calls `start`. -/
def awaitReady (s : State τ ω V E) (pre : List (Frame τ ω V E)) (i : ℕ)
    (rest : Except E V → Body τ ω V E) (below : List (Frame τ ω V E)) : Option (State τ ω V E) :=
  match below with
  | [] => none
  | c :: _ =>
      if c.phase.done then some (s.put pre ⟨i, .resuming rest⟩ below)
      else some (((s.setPromise c.id { s.promise c.id with continuation := some i }).spawn
        [.start c.id]).put pre ⟨i, .awaiting rest⟩ below)

/-- `get_result`, which waits while there is none. -/
def getResult (s : State τ ω V E) (pre : List (Frame τ ω V E)) (i : ℕ)
    (rest : Except E V → Body τ ω V E) (below : List (Frame τ ω V E)) : Option (State τ ω V E) :=
  match below with
  | [] => none
  | c :: _ =>
      match (s.promise c.id).result with
      | none => none
      | some r => some (s.put pre ⟨i, .obtained r rest⟩ below)

/-- `final_suspend`: the `FinalAwaiter` has a copy of the continuation, which its thread schedules
after the coroutine is suspended. -/
def finalSuspend (s : State τ ω V E) (pre : List (Frame τ ω V E)) (i : ℕ)
    (below : List (Frame τ ω V E)) : State τ ω V E :=
  match (s.promise i).continuation with
  | none => s.put pre ⟨i, .final⟩ below
  | some h => (s.spawn [.notify i h]).put pre ⟨i, .final⟩ below

/-- The next step of the thread that runs coroutine `f`. -/
def go [DecidableEq τ] (cancelledException : E) (s : State τ ω V E)
    (pre : List (Frame τ ω V E)) (f : Frame τ ω V E) (below : List (Frame τ ω V E)) :
    Option (State τ ω V E) :=
  match f.phase with
  | .running (.coReturn v) =>
      some ((s.setPromise f.id ((s.promise f.id).write (.ok v))).put pre ⟨f.id, .returned⟩ below)
  | .running (.throw e) =>
      some ((s.setPromise f.id ((s.promise f.id).write (.error e))).put pre ⟨f.id, .returned⟩ below)
  | .running (.coAwait token task rest) =>
      some ((s.create cancelledException token).put pre ⟨f.id, .created rest⟩
        [⟨s.created, .initial task⟩])
  | .running (.coSuspend event checks rest) =>
      if checks && s.tokenCancelled f.id then
        some (s.put pre ⟨f.id, .running (rest (.error cancelledException))⟩ below)
      else some (s.put pre ⟨f.id, .suspended event rest⟩ below)
  | .created rest => awaitReady s pre f.id rest below
  | .resuming rest => getResult s pre f.id rest below
  | .obtained r rest => some ((s.destroy below).put pre ⟨f.id, .running (rest r)⟩ [])
  | .returned => some (finalSuspend s pre f.id below)
  | .initial _ | .awaiting _ | .suspended _ _ | .fired _ | .final => none

/-- `resume()` on the coroutine at `f`, by a worker. -/
def resume (s : State τ ω V E) (pre : List (Frame τ ω V E)) (f : Frame τ ω V E)
    (below : List (Frame τ ω V E)) : Option (State τ ω V E) :=
  match f.phase with
  | .initial body | .fired body => some (s.put pre ⟨f.id, .running body⟩ below)
  | .awaiting rest => some (s.put pre ⟨f.id, .resuming rest⟩ below)
  | .running _ | .created _ | .resuming _ | .obtained _ _ | .suspended _ _ | .returned | .final =>
      none

/-- `start()` -/
def State.start (s : State τ ω V E) (i : ℕ) : State τ ω V E :=
  if (s.promise i).started then s
  else (s.setPromise i { s.promise i with started := true }).schedule i

/-- A call, and the calls that take its place: the first half of a cancellation callback writes
the result, if there is none, and the second schedules the continuation, if there is one. -/
def Call.perform (cancelledException : E) (s : State τ ω V E) : Call → State τ ω V E × List Call
  | .start i => (s.start i, [])
  | .notify i h => (s.notify i h, [])
  | .callback i =>
      (if (s.promise i).result.isSome then s
        else s.setPromise i ((s.promise i).write (.error cancelledException)), [.cancelNotify i])
  | .cancelNotify i =>
      (match (s.promise i).continuation with
        | none => s
        | some h => s.notify i h, [])

/-- The step function. -/
def step [DecidableEq τ] (cancelledException : E) (s : State τ ω V E) :
    Label τ V E → Option (State τ ω V E)
  | .execute k d =>
      match s.queue[k]?, s.split d with
      | some h, some (pre, f, below) =>
          if f.id = h then resume { s with queue := s.queue.eraseIdx k } pre f below else none
      | _, _ => none
  | .go d =>
      match s.split d with
      | some (pre, f, below) => go cancelledException s pre f below
      | none => none
  | .call m =>
      match s.threads[m]? with
      | some (c :: calls) =>
          let (t, new) := c.perform cancelledException s
          some { t with threads := s.threads.set m (new ++ calls) }
      | _ => none
  | .cancel token =>
      if s.cancelled token then some s
      else some ({ s with
        cancelled := Function.update s.cancelled token true
        callbacks := Function.update s.callbacks token [] }.spawn
          ((s.callbacks token).map .callback))
  | .fire d r =>
      match s.split d with
      | some (pre, f, below) =>
          match f.phase with
          | .suspended _ rest => some ((s.schedule f.id).put pre ⟨f.id, .fired (rest r)⟩ below)
          | _ => none
      | none => none
  | .late k r =>
      match s.destroyed[k]? with
      | some ⟨i, .suspended _ rest⟩ =>
          some { s.schedule i with destroyed := s.destroyed.set k ⟨i, .fired (rest r)⟩ }
      | _ => none

/-- A coroutine that has been created and scheduled, and nothing else. -/
def initial (τ : Type) (body : Body τ ω V E) : State τ ω V E where
  frames := [⟨0, .initial body⟩]
  created := 1
  promise := fun i => if i = 0 then { Promise.new with started := true } else .new
  cancel_token := fun _ => none
  queue := [0]
  threads := []
  cancelled := fun _ => false
  callbacks := fun _ => []
  destroyed := []

/-! ### The frame of a coroutine and the call of a thread -/

/-- A call that is made is replaced among the calls to make. -/
theorem flatten_set {c : Call} {calls : List Call} (new : List Call) :
  ∀ {threads : List (List Call)} {m : ℕ}, threads[m]? = some (c :: calls) →
    ∃ before after, threads.flatten = before ++ c :: calls ++ after ∧
      (threads.set m (new ++ calls)).flatten = before ++ (new ++ calls) ++ after
  | [], m, h => by simp at h
  | thread :: threads, 0, h => by
      obtain rfl : thread = c :: calls := by simpa using h
      exact ⟨[], threads.flatten, by simp, by simp⟩
  | thread :: threads, m + 1, h => by
      have htail : threads[m]? = some (c :: calls) := by simpa using h
      obtain ⟨before, after, hbefore, hafter⟩ := flatten_set new htail
      exact ⟨thread ++ before, after, by simp [hbefore], by simpa using hafter⟩

/-- The frame at a depth is a part of the frames. -/
theorem State.split_eq {s : State τ ω V E} {d : ℕ} {pre below : List (Frame τ ω V E)}
    {f : Frame τ ω V E} (h : s.split d = some (pre, f, below)) :
  s.frames = pre ++ f :: below
  := by
  unfold State.split at h
  split at h
  · contradiction
  · rename_i g below' hdrop
    simp only [Option.some.injEq, Prod.mk.injEq] at h
    obtain ⟨rfl, rfl, rfl⟩ := h
    rw [← hdrop, List.take_append_drop]

theorem State.split_length {s : State τ ω V E} {pre below : List (Frame τ ω V E)}
    {f : Frame τ ω V E} (h : s.frames = pre ++ f :: below) :
  s.split pre.length = some (pre, f, below)
  := by
  simp [State.split, h]

end Tasks

end Koroutine
