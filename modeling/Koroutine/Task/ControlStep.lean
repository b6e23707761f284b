import Koroutine.Task.Control

/-!
# How control moves

From a point, exactly one step leads on, to the next point.
-/

namespace Koroutine.Tasks

variable {V E : Type} {s t : State Empty Empty V E} {p : Point V E} {up : List (Waiting V E)}
  {r : Except E V}

/-! ### Finding the frame and the request -/

/-- A list has one place with the only element of a kind. -/
theorem split_unique {α : Type} {q : α → Bool} {pre post pre' post' : List α} {x x' : α}
    (h : pre ++ x :: post = pre' ++ x' :: post') (hpre : ∀ y ∈ pre, q y = false)
    (hpost : ∀ y ∈ post, q y = false) (hx' : q x' = true) :
  pre = pre' ∧ x = x' ∧ post = post'
  := by
  obtain ⟨as, rfl, htail⟩ | ⟨as, rfl, htail⟩ := List.append_eq_append_iff.mp h
  · cases as with
    | nil =>
        obtain ⟨rfl, rfl⟩ := List.cons.inj htail
        simp
    | cons a as =>
        obtain ⟨rfl, rfl⟩ := List.cons.inj htail
        have hnot := hpost x' (by simp)
        rw [hx'] at hnot
        contradiction
  · cases as with
    | nil =>
        obtain ⟨rfl, rfl⟩ := List.cons.inj htail
        simp
    | cons a as =>
        obtain ⟨rfl, rfl⟩ := List.cons.inj htail
        have hnot := hpre x' (by simp)
        rw [hx'] at hnot
        contradiction

theorem waiting_not_busy {f : Frame Empty Empty V E} (hf : f ∈ up.reverse.map Waiting.frame) :
  f.phase.busy = false
  := by
  obtain ⟨w, -, rfl⟩ := List.mem_map.mp hf
  rfl

/-- A frame that a thread runs is the first at the point. -/
theorem Follows.busy_frame (hs : Follows r s p up) {pre below : List (Frame Empty Empty V E)}
    {f : Frame Empty Empty V E} (h : s.frames = pre ++ f :: below) (hf : f.phase.busy = true) :
  pre = up.reverse.map Waiting.frame ∧ p.frames = f :: below
  := by
  rw [hs.frames] at h
  have hmem : f ∈ up.reverse.map Waiting.frame ++ p.frames := by
    rw [h]
    simp
  have hlast : f ∈ p.frames := by
    obtain hwaiting | hlast := List.mem_append.mp hmem
    · rw [waiting_not_busy hwaiting] at hf
      contradiction
    · apply hlast
  -- the second frame at a point is at its beginning or at its end
  have hfirst : ∃ post, p.frames = f :: post ∧ ∀ g ∈ post, g.phase.busy = false := by
    cases p <;> simp only [Point.frames, List.mem_cons, List.not_mem_nil, or_false] at hlast
    · subst hlast
      contradiction
    · subst hlast
      exact ⟨[], rfl, by simp⟩
    · obtain rfl | rfl := hlast
      · exact ⟨_, rfl, by simp [Phase.busy]⟩
      · contradiction
    · obtain rfl | rfl := hlast <;> contradiction
    · subst hlast
      exact ⟨[], rfl, by simp⟩
    · obtain rfl | rfl := hlast <;> contradiction
    · obtain rfl | rfl := hlast <;> contradiction
    · obtain rfl | rfl := hlast
      · exact ⟨_, rfl, by simp [Phase.busy]⟩
      · contradiction
    · obtain rfl | rfl := hlast
      · exact ⟨_, rfl, by simp [Phase.busy]⟩
      · contradiction
    · subst hlast
      contradiction
  obtain ⟨post, hpost, hidle⟩ := hfirst
  rw [hpost] at h
  obtain ⟨rfl, -, rfl⟩ := split_unique (q := fun g => g.phase.busy) h
    (fun g hg => waiting_not_busy hg) hidle hf
  exact ⟨rfl, hpost⟩

/-- The frame a request is for is the first at the point. -/
theorem Follows.queued_frame (hs : Follows r s p up) {pre below : List (Frame Empty Empty V E)}
    {f g : Frame Empty Empty V E} {post : List (Frame Empty Empty V E)}
    (h : s.frames = pre ++ f :: below) (hp : p.frames = g :: post) (hid : f.id = g.id) :
  pre = up.reverse.map Waiting.frame ∧ f = g ∧ below = post
  := by
  have hnodup := hs.accounted.nodup
  rw [List.map_append] at hnodup
  have hframes := List.Nodup.of_append_left hnodup
  rw [hs.frames, hp, List.map_append, List.map_cons] at hframes
  obtain ⟨-, hpost, hdisjoint⟩ := List.nodup_append'.mp hframes
  rw [hs.frames, hp] at h
  obtain ⟨rfl, rfl, rfl⟩ := split_unique (q := fun x => x.id = g.id) h
    (by
      intro y hy
      simp only [decide_eq_false_iff_not]
      intro heq
      apply hdisjoint (List.mem_map_of_mem hy)
      rw [heq]
      apply List.mem_cons_self)
    (by
      intro y hy
      simp only [decide_eq_false_iff_not]
      intro heq
      apply (List.nodup_cons.mp hpost).1
      rw [← heq]
      apply List.mem_map_of_mem hy)
    (by simpa using hid)
  exact ⟨rfl, rfl, rfl⟩

/-! ### The steps of the thread that runs a coroutine -/

/-- The frames before a point. -/
abbrev before (up : List (Waiting V E)) : List (Frame Empty Empty V E) :=
  up.reverse.map Waiting.frame

/-- The coroutine ends. -/
theorem Follows.write {i : ℕ} {body : Body Empty Empty V E} {r' : Except E V}
    (hs : Follows r s (.running i body) up) (hr : body.eval = r') :
  Follows r ((s.setPromise i ((s.promise i).write r')).put (before up) ⟨i, .returned⟩ [])
    (.returned i r') up
  := by
  have hpromise : s.promise i = .pending (parent up) := hs.promises
  constructor
  · refine hs.accounted.keep (f := ⟨i, .running body⟩) ?_ ?_ rfl rfl ?_
    · simp [hs.frames, Point.frames]
    · simp [hs.frames, Point.frames, State.put]
    · intro j hj
      apply Function.update_of_ne hj
  · rfl
  · apply hs.queue
  · apply hs.calls
  · simp only [Point.Promises, State.put, State.setPromise, Function.update_self, hpromise]
    rfl
  · apply hs.pending.congr
    intro w hw
    apply Function.update_of_ne
    apply hs.ne_of_mem (f := ⟨i, .running body⟩) List.mem_cons_self hw
  · rw [← hs.outcome, ← hr]
    rfl
  · simp

/-- The coroutine creates a task. -/
theorem Follows.create {i : ℕ} {task : Body Empty Empty V E} {e : E}
    {rest : Except E V → Body Empty Empty V E}
    (hs : Follows r s (.running i (.coAwait none task rest)) up) :
  Follows r ((s.create e none).put (before up) ⟨i, .created rest⟩ [⟨s.created, .initial task⟩])
    (.created ⟨i, rest⟩ s.created task) up
  := by
  have hpromise : s.promise i = .pending (parent up) := hs.promises
  have hsame : (s.create e none).promise = s.promise := by
    simp only [State.create, State.setPromise]
    rw [← hs.accounted.fresh s.created (Nat.le_refl _), Function.update_eq_self]
  constructor
  · refine hs.accounted.create ?_ rfl rfl rfl
    simp [hs.frames, Point.frames, State.put]
  · rfl
  · apply hs.queue
  · apply hs.calls
  · simp only [Point.Promises, State.put, hsame, hpromise, true_and]
    apply hs.accounted.fresh s.created (Nat.le_refl _)
  · simp only [State.put, hsame]
    apply hs.pending
  · apply hs.outcome
  · simp

/-- The coroutine is suspended, with the task about to be started. -/
theorem Follows.suspend {w : Waiting V E} {c : ℕ} {task : Body Empty Empty V E}
    (hs : Follows r s (.created w c task) up) :
  Follows r (((s.setPromise c { s.promise c with continuation := some w.id }).spawn
    [.start c]).put (before up) ⟨w.id, .awaiting w.rest⟩ [⟨c, .initial task⟩])
    (.starting w c task) up
  := by
  obtain ⟨hw, hc⟩ := hs.promises
  have hne : w.id ≠ c := hs.ne_of_frames (f := ⟨w.id, .created w.rest⟩) (g := ⟨c, .initial task⟩) rfl
  constructor
  · refine hs.accounted.keep (f := ⟨c, .initial task⟩) ?_ ?_ rfl rfl ?_
    · simp [hs.frames, Point.frames]
    · simp [hs.frames, Point.frames, State.put]
    · intro j hj
      apply Function.update_of_ne hj
  · rfl
  · apply hs.queue
  · simp [State.put, State.spawn, State.setPromise, hs.calls, Point.calls]
  · simp only [Point.Promises, State.put, State.spawn, State.setPromise,
      Function.update_of_ne hne, hw, Function.update_self, hc, true_and]
    rfl
  · apply hs.pending.congr
    intro w' hw'
    apply Function.update_of_ne
    apply hs.ne_of_mem (f := ⟨c, .initial task⟩) (by simp [Point.frames]) hw'
  · apply hs.outcome
  · simp

/-- The coroutine obtains the result of the task. -/
theorem Follows.obtain {w : Waiting V E} {i : ℕ} {r' : Except E V}
    (hs : Follows r s (.resuming w i r') up) :
  Follows r (s.put (before up) ⟨w.id, .obtained r' w.rest⟩ [⟨i, .final⟩]) (.obtained w i r') up
  := by
  constructor
  · refine hs.accounted.keep (f := ⟨i, .final⟩) ?_ ?_ rfl rfl ?_
    · simp [hs.frames, Point.frames]
    · simp [hs.frames, Point.frames, State.put]
    · intro j _
      rfl
  · rfl
  · apply hs.queue
  · apply hs.calls
  · apply hs.promises
  · apply hs.pending
  · apply hs.outcome
  · simp

/-- The task is destroyed, and the coroutine goes on. -/
theorem Follows.drop {w : Waiting V E} {i : ℕ} {r' : Except E V}
    (hs : Follows r s (.obtained w i r') up) :
  Follows r ((s.destroy [⟨i, .final⟩]).put (before up) ⟨w.id, .running (w.rest r')⟩ [])
    (.running w.id (w.rest r')) up
  := by
  obtain ⟨hw, hi⟩ := hs.promises
  have hframes : s.frames = before up ++ [⟨w.id, .obtained r' w.rest⟩] ++ [⟨i, .final⟩] := by
    simp [hs.frames, Point.frames]
  constructor
  · refine hs.accounted.destroy hframes (by simp) ?_ rfl rfl rfl ?_
    · simp [State.put]
    · rw [hi]
      exact ⟨rfl, rfl, rfl⟩
  · rfl
  · apply hs.queue
  · apply hs.calls
  · apply hw
  · apply hs.pending
  · apply hs.outcome
  · simp

/-- The coroutine is suspended at its end, with the one that awaits it about to be scheduled. -/
theorem Follows.finalSuspend {w : Waiting V E} {i : ℕ} {r' : Except E V}
    (hs : Follows r s (.returned i r') (w :: up)) :
  Follows r (finalSuspend s (before (w :: up)) i []) (.finishing w i r') up
  := by
  have hpromise : s.promise i = .settled (some w.id) r' 0 := hs.promises
  have hcontinuation : (s.promise i).continuation = some w.id := by
    rw [hpromise]
    rfl
  simp only [Tasks.finalSuspend, hcontinuation]
  constructor
  · refine hs.accounted.keep (f := ⟨i, .returned⟩) ?_ ?_ rfl rfl ?_
    · simp [hs.frames, Point.frames]
    · simp [hs.frames, Point.frames, State.put]
    · intro j _
      rfl
  · simp [State.put, Point.frames, Waiting.frame]
  · apply hs.queue
  · simp [State.put, State.spawn, hs.calls, Point.calls]
  · exact ⟨hs.pending.1, hpromise⟩
  · apply hs.pending.2
  · apply hs.outcome
  · simp

/-- The first coroutine is suspended at its end. -/
theorem Follows.finish {i : ℕ} {r' : Except E V} (hs : Follows r s (.returned i r') []) :
  Follows r (Tasks.finalSuspend s [] i []) (.finished i r') []
  := by
  have hpromise : s.promise i = .settled none r' 0 := hs.promises
  have hcontinuation : (s.promise i).continuation = none := by
    rw [hpromise]
    rfl
  simp only [Tasks.finalSuspend, hcontinuation]
  constructor
  · refine hs.accounted.keep (f := ⟨i, .returned⟩) ?_ ?_ rfl rfl ?_
    · simp [hs.frames, Point.frames]
    · simp [hs.frames, Point.frames, State.put]
    · intro j _
      rfl
  · rfl
  · apply hs.queue
  · apply hs.calls
  · apply hpromise
  · trivial
  · apply hs.outcome
  · simp

/-! ### The steps of workers and of threads that schedule -/

/-- A worker begins to run the coroutine. -/
theorem Follows.begin {i k : ℕ} {body : Body Empty Empty V E}
    (hs : Follows r s (.queued i body) up) (hk : s.queue.eraseIdx k = []) :
  Follows r ({ s with queue := s.queue.eraseIdx k }.put (before up) ⟨i, .running body⟩ [])
    (.running i body) up
  := by
  constructor
  · refine hs.accounted.keep (f := ⟨i, .initial body⟩) ?_ ?_ rfl rfl ?_
    · simp [hs.frames, Point.frames]
    · simp [hs.frames, Point.frames, State.put]
    · intro j _
      rfl
  · rfl
  · apply hk
  · apply hs.calls
  · apply hs.promises
  · apply hs.pending
  · apply hs.outcome
  · simp

/-- A worker resumes the coroutine that awaits. -/
theorem Follows.resume {w : Waiting V E} {i k : ℕ} {r' : Except E V}
    (hs : Follows r s (.scheduled w i r') up) (hk : s.queue.eraseIdx k = []) :
  Follows r ({ s with queue := s.queue.eraseIdx k }.put (before up) ⟨w.id, .resuming w.rest⟩
    [⟨i, .final⟩]) (.resuming w i r') up
  := by
  constructor
  · refine hs.accounted.keep (f := ⟨i, .final⟩) ?_ ?_ rfl rfl ?_
    · simp [hs.frames, Point.frames]
    · simp [hs.frames, Point.frames, State.put, Waiting.frame]
    · intro j _
      rfl
  · rfl
  · apply hk
  · apply hs.calls
  · apply hs.promises
  · apply hs.pending
  · apply hs.outcome
  · simp

/-- The task is put on the scheduler. -/
theorem Follows.start {w : Waiting V E} {c : ℕ} {task : Body Empty Empty V E}
    {threads : List (List Call)} (hs : Follows r s (.starting w c task) up)
    (hthreads : threads.flatten = []) :
  Follows r { s.start c with threads := threads } (.queued c task) (w :: up)
  := by
  obtain ⟨hw, hc⟩ := hs.promises
  have hne : w.id ≠ c := hs.ne_of_frames (f := w.frame) (g := ⟨c, .initial task⟩) rfl
  have hstarted : (s.promise c).started = false := by
    rw [hc]
    rfl
  simp only [State.start, hstarted, Bool.false_eq_true, if_false]
  constructor
  · refine hs.accounted.keep (f := ⟨c, .initial task⟩) ?_ rfl rfl rfl ?_
    · simp [hs.frames, Point.frames]
    · intro j hj
      apply Function.update_of_ne hj
  · simp [State.schedule, State.setPromise, hs.frames, Point.frames]
  · simp [State.schedule, State.setPromise, hs.queue, Point.queue]
  · apply hthreads
  · simp only [Point.Promises, State.schedule, State.setPromise, Function.update_self, hc]
    rfl
  · constructor
    · rw [← hw]
      apply Function.update_of_ne hne
    · apply hs.pending.congr
      intro w' hw'
      apply Function.update_of_ne
      apply hs.ne_of_mem (f := ⟨c, .initial task⟩) (by simp [Point.frames]) hw'
  · apply hs.outcome
  · simp

/-- The coroutine that awaits is put on the scheduler. -/
theorem Follows.notify {w : Waiting V E} {i : ℕ} {r' : Except E V} {threads : List (List Call)}
    (hs : Follows r s (.finishing w i r') up) (hthreads : threads.flatten = []) :
  Follows r { s.notify i w.id with threads := threads } (.scheduled w i r') up
  := by
  obtain ⟨hw, hi⟩ := hs.promises
  have hne : w.id ≠ i := hs.ne_of_frames (f := w.frame) (g := ⟨i, .final⟩) rfl
  constructor
  · refine hs.accounted.keep (f := ⟨i, .final⟩) ?_ rfl rfl rfl ?_
    · simp [hs.frames, Point.frames]
    · intro j hj
      apply Function.update_of_ne hj
  · apply hs.frames
  · simp [State.notify, State.schedule, State.setPromise, hs.queue, Point.queue]
  · apply hthreads
  · simp only [Point.Promises, State.notify, State.schedule, State.setPromise,
      Function.update_of_ne hne, hw, Function.update_self, hi, true_and]
    rfl
  · apply hs.pending.congr
    intro w' hw'
    apply Function.update_of_ne
    apply hs.ne_of_mem (f := ⟨i, .final⟩) (by simp [Point.frames]) hw'
  · apply hs.outcome
  · simp

/-! ### Every step leads on -/

/-- How many steps are still to be made. -/
def distance (p : Point V E) (up : List (Waiting V E)) : ℕ :=
  p.cost + remaining up p.outcome

/-- The step of the thread that runs a coroutine leads on. -/
theorem Follows.go {e : E} {d : ℕ} (hs : Follows r s p up) (h : step e s (.go d) = some t) :
  ∃ p' up', Follows r t p' up' ∧ distance p' up' < distance p up
  := by
  simp only [step] at h
  split at h
  · rename_i pre f below hsplit
    have hframes := State.split_eq hsplit
    have hbusy : f.phase.busy = true := by
      unfold Tasks.go at h
      split at h <;> first | contradiction | simp [Phase.busy, *]
    obtain ⟨rfl, hp⟩ := hs.busy_frame hframes hbusy
    cases p <;> simp only [Point.frames, List.cons.injEq] at hp <;> obtain ⟨rfl, rfl⟩ := hp
    · contradiction
    · rename_i i body
      cases body with
      | coReturn v =>
          obtain rfl := Option.some.inj h
          refine ⟨_, _, hs.write rfl, ?_⟩
          simp [distance, Point.cost, Point.outcome, cost, Body.eval]
      | throw e' =>
          obtain rfl := Option.some.inj h
          refine ⟨_, _, hs.write rfl, ?_⟩
          simp [distance, Point.cost, Point.outcome, cost, Body.eval]
      | coAwait token task rest =>
          obtain rfl : token = none := by
            cases token with
            | none => rfl
            | some token => exact token.elim
          obtain rfl := Option.some.inj h
          refine ⟨_, _, hs.create, ?_⟩
          simp only [distance, Point.cost, Point.outcome, cost, Body.eval]
          omega
      | coSuspend event checks rest => exact event.elim
    · obtain rfl := Option.some.inj h
      refine ⟨_, _, hs.suspend, ?_⟩
      simp only [distance, Point.cost, Point.outcome]
      omega
    · contradiction
    · rename_i i r'
      obtain rfl := Option.some.inj h
      cases up with
      | nil =>
          refine ⟨_, _, hs.finish, ?_⟩
          simp [distance, Point.cost, Point.outcome]
      | cons w up =>
          refine ⟨_, _, hs.finalSuspend, ?_⟩
          simp only [distance, Point.cost, Point.outcome, remaining]
          omega
    · contradiction
    · contradiction
    · rename_i w i r'
      have hresult : (s.promise i).result = some r' := by
        rw [hs.promises.2]
        rfl
      simp only [Tasks.go, getResult, hresult, Option.some.injEq] at h
      subst h
      refine ⟨_, _, hs.obtain, ?_⟩
      simp only [distance, Point.cost, Point.outcome]
      omega
    · obtain rfl := Option.some.inj h
      refine ⟨_, _, hs.drop, ?_⟩
      simp only [distance, Point.cost, Point.outcome]
      omega
    · contradiction
  · contradiction

/-- The step of a worker leads on. -/
theorem Follows.execute {e : E} {k d : ℕ} (hs : Follows r s p up)
    (h : step e s (.execute k d) = some t) :
  ∃ p' up', Follows r t p' up' ∧ distance p' up' < distance p up
  := by
  simp only [step] at h
  split at h
  · rename_i i pre f below hk hsplit
    split at h
    · rename_i hid
      have hframes := State.split_eq hsplit
      rw [hs.queue] at hk
      cases p <;> simp only [Point.queue, List.getElem?_nil, reduceCtorEq] at hk
      · rename_i i' body
        obtain ⟨hlt, rfl⟩ := List.getElem?_eq_some_iff.mp hk
        obtain rfl : k = 0 := by simpa using hlt
        obtain ⟨rfl, rfl, rfl⟩ := hs.queued_frame hframes rfl hid
        obtain rfl := Option.some.inj h
        refine ⟨_, _, hs.begin (by simp [hs.queue, Point.queue]), ?_⟩
        simp [distance, Point.cost, Point.outcome]
      · rename_i w i' r'
        obtain ⟨hlt, rfl⟩ := List.getElem?_eq_some_iff.mp hk
        obtain rfl : k = 0 := by simpa using hlt
        obtain ⟨rfl, rfl, rfl⟩ := hs.queued_frame hframes rfl hid
        obtain rfl := Option.some.inj h
        refine ⟨_, _, hs.resume (by simp [hs.queue, Point.queue]), ?_⟩
        simp [distance, Point.cost, Point.outcome]
    · contradiction
  · contradiction

/-- The call a thread makes leads on. -/
theorem Follows.call {e : E} {m : ℕ} (hs : Follows r s p up) (h : step e s (.call m) = some t) :
  ∃ p' up', Follows r t p' up' ∧ distance p' up' < distance p up
  := by
  simp only [step] at h
  split at h
  · rename_i c calls hm
    obtain ⟨before, after, hflatten, hset⟩ := flatten_set [] hm
    rw [hs.calls] at hflatten
    have hone : p.calls.length ≤ 1 := by cases p <;> simp [Point.calls]
    have hlength := congrArg List.length hflatten
    simp only [List.length_append, List.length_cons] at hlength
    obtain rfl : before = [] := List.eq_nil_of_length_eq_zero (by omega)
    obtain rfl : calls = [] := List.eq_nil_of_length_eq_zero (by omega)
    obtain rfl : after = [] := List.eq_nil_of_length_eq_zero (by omega)
    cases p <;> simp only [Point.calls, List.nil_append, List.append_nil, List.cons.injEq,
      and_true, reduceCtorEq] at hflatten
    · subst hflatten
      obtain rfl := Option.some.inj h
      refine ⟨_, _, hs.start hset, ?_⟩
      simp only [distance, Point.cost, Point.outcome, remaining]
      omega
    · subst hflatten
      obtain rfl := Option.some.inj h
      refine ⟨_, _, hs.notify hset, ?_⟩
      simp [distance, Point.cost, Point.outcome]
  · contradiction

/-- Every step leads on to another point, which is nearer to the end. -/
theorem Follows.step {e : E} {a : Label Empty V E} (hs : Follows r s p up)
    (h : Tasks.step e s a = some t) :
  ∃ p' up', Follows r t p' up' ∧ distance p' up' < distance p up
  := by
  cases a with
  | execute k d => apply hs.execute h
  | go d => apply hs.go h
  | call m => apply hs.call h
  | cancel token => exact token.elim
  | fire d r' =>
      simp only [Tasks.step] at h
      split at h
      · split at h
        · rename_i event _ _
          exact event.elim
        · contradiction
      · contradiction
  | late k r' =>
      simp only [Tasks.step] at h
      split at h
      · rename_i event _ _
        exact event.elim
      · contradiction

/-! ### There is a step until the end -/

/-- Where calls are to be made, a thread has the first of them. -/
theorem exists_thread {c : Call} {calls : List Call} :
  ∀ {threads : List (List Call)}, threads.flatten = c :: calls →
    ∃ (m : ℕ) (rest : List Call), threads[m]? = some (c :: rest)
  | [], h => by simp at h
  | [] :: threads, h => by
      have htail : threads.flatten = c :: calls := by simpa using h
      obtain ⟨m, rest, hm⟩ := exists_thread htail
      exact ⟨m + 1, rest, by simpa using hm⟩
  | (c' :: rest) :: threads, h => by
      obtain rfl : c' = c := by
        simp only [List.flatten_cons, List.cons_append, List.cons.injEq] at h
        apply h.1
      exact ⟨0, rest, rfl⟩

/-- The thread that runs the coroutine at a point can go on. -/
theorem Follows.exists_go {e : E} {f : Frame Empty Empty V E}
    {below : List (Frame Empty Empty V E)} (hs : Follows r s p up) (hp : p.frames = f :: below)
    (h : (Tasks.go e s (before up) f below).isSome) :
  ∃ a t, Tasks.step e s a = some t
  := by
  obtain ⟨t, ht⟩ := Option.isSome_iff_exists.mp h
  refine ⟨.go (before up).length, t, ?_⟩
  have hframes := hs.frames
  rw [hp] at hframes
  simp only [Tasks.step, State.split_length hframes]
  apply ht

/-- A worker can take the request for the coroutine at a point. -/
theorem Follows.exists_execute {e : E} {f : Frame Empty Empty V E}
    {below : List (Frame Empty Empty V E)} (hs : Follows r s p up) (hp : p.frames = f :: below)
    (hqueue : p.queue = [f.id])
    (h : ∀ s : State Empty Empty V E, (Tasks.resume s (before up) f below).isSome) :
  ∃ a t, Tasks.step e s a = some t
  := by
  obtain ⟨t, ht⟩ := Option.isSome_iff_exists.mp (h { s with queue := s.queue.eraseIdx 0 })
  refine ⟨.execute 0 (before up).length, t, ?_⟩
  have hframes := hs.frames
  rw [hp] at hframes
  have hhead : s.queue[0]? = some f.id := by simp [hs.queue, hqueue]
  simp only [Tasks.step, hhead, State.split_length hframes, if_true]
  apply ht

/-- A thread can make the call at a point. -/
theorem Follows.exists_call {e : E} {c : Call} (hs : Follows r s p up) (hp : p.calls = [c]) :
  ∃ a t, Tasks.step e s a = some t
  := by
  have hcalls := hs.calls
  rw [hp] at hcalls
  obtain ⟨m, rest, hm⟩ := exists_thread hcalls
  use .call m
  simp [Tasks.step, hm]

/-- Unless the first coroutine has ended there is a step. -/
theorem Follows.progress (e : E) (hs : Follows r s p up) :
  (∃ i r', p = .finished i r') ∨ ∃ a t, Tasks.step e s a = some t
  := by
  cases p with
  | finished i r' =>
      left
      exact ⟨i, r', rfl⟩
  | queued i body =>
      right
      apply hs.exists_execute rfl rfl
      intro s
      rfl
  | scheduled w i r' =>
      right
      apply hs.exists_execute rfl rfl
      intro s
      rfl
  | running i body =>
      right
      apply hs.exists_go rfl
      cases body with
      | coSuspend event checks rest => exact event.elim
      | coReturn v | throw e' | coAwait token task rest => rfl
  | created w c task | returned i r' | obtained w i r' =>
      right
      apply hs.exists_go rfl
      rfl
  | resuming w i r' =>
      right
      have hresult : (s.promise i).result = some r' := by
        rw [hs.promises.2]
        rfl
      apply hs.exists_go rfl
      simp [Tasks.go, getResult, hresult]
  | starting w c task | finishing w i r' =>
      right
      apply hs.exists_call rfl

end Koroutine.Tasks
