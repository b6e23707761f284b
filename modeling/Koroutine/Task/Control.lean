import Mathlib.Data.List.Range
import Mathlib.Data.List.Nodup
import Mathlib.Data.List.Perm.Basic
import Koroutine.Task.Frames

/-!
# Where control is

Without cancellation, and with coroutines that await tasks only, control is at one point at a time:
a coroutine is on the scheduler, or a thread runs it, or a thread that has just left a coroutine
suspended is about to schedule another.  All frames before that point are suspended in a `co_await`
of the next.

`Follows r s p up` says that the state `s` is at the point `p`, that the coroutines `up`, the
innermost first, are the ones suspended before it, and that `r` is the outcome the program will
have.
-/

namespace Koroutine.Tasks

variable {V E : Type}

/-- A coroutine suspended in a `co_await`, and how it goes on. -/
structure Waiting (V E : Type) where
  id : ℕ
  rest : Except E V → Body Empty Empty V E

/-- The points control can be at.  The coroutine `w` awaits the task `i`, or `c`, that is created
last. -/
inductive Point (V E : Type)
  | queued (i : ℕ) (body : Body Empty Empty V E)
  | running (i : ℕ) (body : Body Empty Empty V E)
  | created (w : Waiting V E) (c : ℕ) (task : Body Empty Empty V E)
  | starting (w : Waiting V E) (c : ℕ) (task : Body Empty Empty V E)
  | returned (i : ℕ) (r : Except E V)
  | finishing (w : Waiting V E) (i : ℕ) (r : Except E V)
  | scheduled (w : Waiting V E) (i : ℕ) (r : Except E V)
  | resuming (w : Waiting V E) (i : ℕ) (r : Except E V)
  | obtained (w : Waiting V E) (i : ℕ) (r : Except E V)
  | finished (i : ℕ) (r : Except E V)

/-! ### What a state at a point looks like -/

/-- The frame of a coroutine suspended in a `co_await`. -/
def Waiting.frame (w : Waiting V E) : Frame Empty Empty V E := ⟨w.id, .awaiting w.rest⟩

/-- The last frames. -/
def Point.frames : Point V E → List (Frame Empty Empty V E)
  | .queued i body => [⟨i, .initial body⟩]
  | .running i body => [⟨i, .running body⟩]
  | .created w c task => [⟨w.id, .created w.rest⟩, ⟨c, .initial task⟩]
  | .starting w c task => [w.frame, ⟨c, .initial task⟩]
  | .returned i _ => [⟨i, .returned⟩]
  | .finishing w i _ | .scheduled w i _ => [w.frame, ⟨i, .final⟩]
  | .resuming w i _ => [⟨w.id, .resuming w.rest⟩, ⟨i, .final⟩]
  | .obtained w i r => [⟨w.id, .obtained r w.rest⟩, ⟨i, .final⟩]
  | .finished i _ => [⟨i, .final⟩]

/-- The scheduler's queue. -/
def Point.queue : Point V E → List ℕ
  | .queued i _ => [i]
  | .scheduled w _ _ => [w.id]
  | _ => []

/-- The calls threads have still to make. -/
def Point.calls : Point V E → List Call
  | .starting _ c _ => [.start c]
  | .finishing w i _ => [.notify i w.id]
  | _ => []

/-- The promise of a task that has a continuation, and has not been started. -/
def Promise.unstarted (continuation : Option ℕ) : Promise V E :=
  { Promise.new with continuation := continuation }

/-- The promise of a task that has been started. -/
def Promise.pending (continuation : Option ℕ) : Promise V E :=
  { Promise.new with started := true, continuation := continuation }

/-- The promise of a task that has a result. -/
def Promise.settled (continuation : Option ℕ) (r : Except E V) (notified : ℕ) : Promise V E where
  result := some r
  started := true
  continuation := continuation
  writes := 1
  notified := notified

/-- The coroutine that awaits. -/
def parent (up : List (Waiting V E)) : Option ℕ := up.head?.map Waiting.id

/-- The promises of the last frames. -/
def Point.Promises (promise : ℕ → Promise V E) (up : List (Waiting V E)) : Point V E → Prop
  | .queued i _ | .running i _ => promise i = .pending (parent up)
  | .created w c _ => promise w.id = .pending (parent up) ∧ promise c = .new
  | .starting w c _ => promise w.id = .pending (parent up) ∧ promise c = .unstarted (some w.id)
  | .returned i r | .finished i r => promise i = .settled (parent up) r 0
  | .finishing w i r =>
      promise w.id = .pending (parent up) ∧ promise i = .settled (some w.id) r 0
  | .scheduled w i r | .resuming w i r | .obtained w i r =>
      promise w.id = .pending (parent up) ∧ promise i = .settled (some w.id) r 1

/-- The promises of the coroutines suspended before. -/
def Pending (promise : ℕ → Promise V E) : List (Waiting V E) → Prop
  | [] => True
  | w :: up => promise w.id = .pending (parent up) ∧ Pending promise up

/-! ### What is still to happen -/

/-- The outcome of the coroutine at a point. -/
def Point.outcome : Point V E → Except E V
  | .queued _ body | .running _ body => body.eval
  | .created w _ task | .starting w _ task => (w.rest task.eval).eval
  | .returned _ r | .finished _ r => r
  | .finishing w _ r | .scheduled w _ r | .resuming w _ r | .obtained w _ r => (w.rest r).eval

/-- The outcome of the program, when the last coroutine has outcome `r`. -/
def unwind : List (Waiting V E) → Except E V → Except E V
  | [], r => r
  | w :: up, r => unwind up (w.rest r).eval

/-- How many steps a coroutine takes from the beginning of a body until the coroutine that awaits
it goes on. -/
def cost : Body Empty Empty V E → ℕ
  | .coReturn _ | .throw _ => 6
  | .coAwait _ task rest => 4 + cost task + cost (rest task.eval)

/-- How many steps the coroutine at a point takes. -/
def Point.cost : Point V E → ℕ
  | .queued _ body => 1 + Tasks.cost body
  | .running _ body => Tasks.cost body
  | .created w _ task => 3 + Tasks.cost task + Tasks.cost (w.rest task.eval)
  | .starting w _ task => 2 + Tasks.cost task + Tasks.cost (w.rest task.eval)
  | .returned _ _ => 5
  | .finishing w _ r => 4 + Tasks.cost (w.rest r)
  | .scheduled w _ r => 3 + Tasks.cost (w.rest r)
  | .resuming w _ r => 2 + Tasks.cost (w.rest r)
  | .obtained w _ r => 1 + Tasks.cost (w.rest r)
  | .finished _ _ => 0

/-- How many steps the coroutines suspended before take, when the last one has outcome `r`. -/
def remaining : List (Waiting V E) → Except E V → ℕ
  | [], _ => 0
  | w :: up, r => cost (w.rest r) + remaining up (w.rest r).eval

/-! ### States -/

/-- What holds of frames and promises wherever control is: every coroutine created has one frame,
which is alive, as the first one is, or has been destroyed; only tasks suspended at their end have
been destroyed, with one result, and one resumption of the coroutine that awaits. -/
structure Accounted (s : State Empty Empty V E) : Prop where
  first : (s.frames.map Frame.id).head? = some 0
  ids : ((s.frames ++ s.destroyed).map Frame.id).Perm (List.range s.created)
  fresh : ∀ i, s.created ≤ i → s.promise i = .new
  history : ∀ f ∈ s.destroyed, f.phase = .final ∧ (s.promise f.id).writes = 1 ∧
    (s.promise f.id).notified = 1

/-- The state is at a point, and the outcome of the program will be `r`. -/
structure Follows (r : Except E V) (s : State Empty Empty V E) (p : Point V E)
    (up : List (Waiting V E)) : Prop where
  accounted : Accounted s
  frames : s.frames = up.reverse.map Waiting.frame ++ p.frames
  queue : s.queue = p.queue
  calls : s.threads.flatten = p.calls
  promises : p.Promises s.promise up
  pending : Pending s.promise up
  outcome : unwind up p.outcome = r
  finished : ∀ i r', p = .finished i r' → up = []

variable {s t : State Empty Empty V E} {p : Point V E} {up : List (Waiting V E)} {r : Except E V}

theorem Follows.initial (body : Body Empty Empty V E) :
  Follows body.eval (initial Empty body) (.queued 0 body) []
  := by
  constructor
  · constructor
    · rfl
    · simp [Tasks.initial]
    · intro i hi
      have hne : i ≠ 0 := Nat.one_le_iff_ne_zero.mp hi
      simp [Tasks.initial, hne]
    · simp [Tasks.initial]
  · rfl
  · rfl
  · rfl
  · rfl
  · trivial
  · rfl
  · simp

/-! ### Frames have different identities -/

theorem Accounted.nodup (hs : Accounted s) :
  ((s.frames ++ s.destroyed).map Frame.id).Nodup
  := hs.ids.nodup_iff.mpr List.nodup_range

theorem Accounted.lt_created (hs : Accounted s) {f : Frame Empty Empty V E}
    (hf : f ∈ s.frames ++ s.destroyed) :
  f.id < s.created
  := by
  apply List.mem_range.mp
  apply hs.ids.mem_iff.mp
  apply List.mem_map_of_mem hf

theorem Accounted.ne_of_destroyed (hs : Accounted s) {f g : Frame Empty Empty V E}
    (hf : f ∈ s.frames) (hg : g ∈ s.destroyed) :
  g.id ≠ f.id
  := by
  have hnodup := hs.nodup
  rw [List.map_append] at hnodup
  intro heq
  apply (List.disjoint_of_nodup_append hnodup) (List.mem_map_of_mem hf)
  rw [← heq]
  apply List.mem_map_of_mem hg

/-- The coroutine at a point is none of those suspended before. -/
theorem Follows.ne_of_mem (hs : Follows r s p up) {f : Frame Empty Empty V E} {w : Waiting V E}
    (hf : f ∈ p.frames) (hw : w ∈ up) :
  w.id ≠ f.id
  := by
  have hnodup := hs.accounted.nodup
  rw [hs.frames, List.map_append, List.map_append] at hnodup
  have hfirst := List.Nodup.of_append_left hnodup
  intro heq
  apply (List.disjoint_of_nodup_append hfirst) _ (List.mem_map_of_mem hf)
  rw [← heq]
  apply List.mem_map_of_mem (f := Frame.id) (a := w.frame)
  apply List.mem_map_of_mem
  apply List.mem_reverse.mpr hw

/-- Two frames at a point are different. -/
theorem Follows.ne_of_frames (hs : Follows r s p up) {f g : Frame Empty Empty V E}
    (hp : p.frames = [f, g]) :
  f.id ≠ g.id
  := by
  have hnodup := hs.accounted.nodup
  rw [hs.frames, hp, List.map_append, List.map_append] at hnodup
  have hlast := List.Nodup.of_append_right (List.Nodup.of_append_left hnodup)
  simpa using hlast

/-! ### Steps that keep the account -/

/-- Only the promise of one frame changes. -/
theorem Accounted.keep (hs : Accounted s) {f : Frame Empty Empty V E} (hf : f ∈ s.frames)
    (hids : t.frames.map Frame.id = s.frames.map Frame.id) (hcreated : t.created = s.created)
    (hdestroyed : t.destroyed = s.destroyed)
    (hpromise : ∀ j, j ≠ f.id → t.promise j = s.promise j) :
  Accounted t
  := by
  have hlt := hs.lt_created (List.mem_append_left s.destroyed hf)
  constructor
  · rw [hids]
    apply hs.first
  · rw [List.map_append, hids, hdestroyed, hcreated, ← List.map_append]
    apply hs.ids
  · intro i hi
    rw [hcreated] at hi
    rw [hpromise i (by omega)]
    apply hs.fresh i hi
  · intro g hg
    rw [hdestroyed] at hg
    rw [hpromise g.id (hs.ne_of_destroyed hf hg)]
    apply hs.history g hg

/-- A frame is created. -/
theorem Accounted.create (hs : Accounted s)
    (hids : t.frames.map Frame.id = s.frames.map Frame.id ++ [s.created])
    (hcreated : t.created = s.created + 1) (hdestroyed : t.destroyed = s.destroyed)
    (hpromise : t.promise = Function.update s.promise s.created .new) :
  Accounted t
  := by
  have hsame : t.promise = s.promise := by
    rw [hpromise, ← hs.fresh s.created (Nat.le_refl _), Function.update_eq_self]
  constructor
  · rw [hids, List.head?_append, hs.first]
    rfl
  · rw [List.map_append, hids, hdestroyed, hcreated, List.range_succ]
    have hperm : (s.frames.map Frame.id ++ [s.created] ++ s.destroyed.map Frame.id).Perm
        ((s.frames ++ s.destroyed).map Frame.id ++ [s.created]) := by
      rw [List.map_append, List.append_assoc, List.append_assoc]
      apply List.Perm.append_left
      apply List.perm_append_comm
    apply hperm.trans
    apply hs.ids.append_right
  · intro i hi
    rw [hsame]
    apply hs.fresh i (by omega)
  · intro g hg
    rw [hdestroyed] at hg
    rw [hsame]
    apply hs.history g hg

/-- The last frame is destroyed. -/
theorem Accounted.destroy (hs : Accounted s) {fs : List (Frame Empty Empty V E)}
    {f : Frame Empty Empty V E} (hframes : s.frames = fs ++ [f]) (hfs : fs ≠ [])
    (hids : t.frames.map Frame.id = fs.map Frame.id) (hcreated : t.created = s.created)
    (hdestroyed : t.destroyed = s.destroyed ++ [f]) (hpromise : t.promise = s.promise)
    (hf : f.phase = .final ∧ (s.promise f.id).writes = 1 ∧ (s.promise f.id).notified = 1) :
  Accounted t
  := by
  constructor
  · have hfirst := hs.first
    rw [hframes, List.map_append, List.head?_append_of_ne_nil _ (by simpa using hfs)] at hfirst
    rw [hids]
    apply hfirst
  · have hperm : (fs.map Frame.id ++ (s.destroyed ++ [f]).map Frame.id).Perm
        ((s.frames ++ s.destroyed).map Frame.id) := by
      rw [hframes, ← List.map_append]
      apply List.Perm.map
      rw [List.append_assoc]
      apply List.Perm.append_left
      apply List.perm_append_comm
    rw [List.map_append, hids, hdestroyed, hcreated]
    apply hperm.trans hs.ids
  · rw [hcreated, hpromise]
    apply hs.fresh
  · intro g hg
    rw [hdestroyed, List.mem_append, List.mem_singleton] at hg
    rw [hpromise]
    obtain hg | rfl := hg
    · apply hs.history g hg
    · apply hf

/-- The coroutines suspended before keep their promises. -/
theorem Pending.congr {promise promise' : ℕ → Promise V E} :
  ∀ {up : List (Waiting V E)}, Pending promise up → (∀ w ∈ up, promise' w.id = promise w.id) →
    Pending promise' up
  | [], _, _ => trivial
  | w :: up, hp, h => by
      constructor
      · rw [h w List.mem_cons_self]
        apply hp.1
      · apply hp.2.congr
        intro w' hw'
        apply h w' (List.mem_cons_of_mem w hw')

end Koroutine.Tasks
