import Koroutine.Transition.Custody
import Mathlib.Data.Nat.Notation

/-!
# Who destroys the frames

A `Task` destroys the frame of its coroutine, unless it has been moved from or detached.  `then`,
`catching` and `finally` take the handle out of their `Task` and give it to a coroutine as the
parameter `prev_handle`, which destroys nothing; the coroutine makes a `Task` of it when it is
resumed for the first time, and awaits it.

Objects live outside or in the frame of a coroutine, as a parameter, a local variable or the `task_`
of a `TaskAwaiter`, and are destroyed with it.  A frame is destroyed while its coroutine is neither
running nor queued, and a `Task` that has been moved from is not used.

The frames are resources in custody of the `Task` objects, the parameters `prev_handle`, and, once
they are detached, of themselves.
-/

open Transition

namespace Koroutine

namespace Owning

/-- Where a coroutine is. -/
inductive Stage
  | initial
  | queued
  | running
  | suspended
  | done
  deriving DecidableEq

/-- The frame of a coroutine.  `prev_handle` is the handle that a coroutine of `then`, `catching` or
`finally` was given, as long as it has not made a `Task` of it. -/
structure Frame where
  stage : Stage
  prev_handle : Option ℕ
  detached : Bool
  destroyed : ℕ
  deriving DecidableEq

/-- A `Task`: the frame it lives in, if any, and its handle. -/
structure Object where
  place : Option ℕ
  handle_ : Option ℕ
  deriving DecidableEq

/-- The frames and the objects, and how many of them have been created. -/
structure State where
  frame : ℕ → Frame
  created : ℕ
  object : ℕ → Option Object
  made : ℕ

/-- The steps: a coroutine is called; `then`, `catching` or `finally` is called on an object; an
object is moved to a new one, is move-assigned, is destroyed, detached or started; coroutine `g`
awaits it; a coroutine is resumed, suspends, is scheduled, and reaches its end. -/
inductive Label
  | call (place : Option ℕ)
  | chain (o : ℕ) (place : Option ℕ)
  | move (o : ℕ) (place : Option ℕ)
  | assign (o o' : ℕ)
  | destroy (o : ℕ)
  | detach (o : ℕ)
  | start (o : ℕ)
  | await (g o : ℕ)
  | resume (f : ℕ)
  | suspend (f : ℕ)
  | wake (f : ℕ)
  | finish (f : ℕ)
  deriving DecidableEq

/-- A frame, before it is created. -/
def Frame.new : Frame := ⟨.initial, none, false, 0⟩

/-- No coroutine has been called. -/
def initial : State where
  frame := fun _ => .new
  created := 0
  object := fun _ => none
  made := 0

namespace State

/-- The frame exists. -/
def alive (s : State) (f : ℕ) : Bool := f < s.created && (s.frame f).destroyed == 0

/-- The coroutine is neither running nor queued. -/
def idle (s : State) (f : ℕ) : Bool := (s.frame f).stage != .running && (s.frame f).stage != .queued

/-- An object that exists, and not in a frame that is being destroyed. -/
def usable (s : State) (o : ℕ) : Option Object := (s.object o).filter fun x => x.place.all s.alive

/-- A coroutine goes on. -/
def goTo (s : State) (f : ℕ) (stage : Stage) : State :=
  { s with frame := Function.update s.frame f { s.frame f with stage := stage } }

/-- `Task(handle)` -/
def add (s : State) (place handle : Option ℕ) : State :=
  { s with object := Function.update s.object s.made (some ⟨place, handle⟩), made := s.made + 1 }

/-- The frame of a coroutine that is called. -/
def create (s : State) (prev_handle : Option ℕ) : State :=
  { s with
    frame := Function.update s.frame s.created { Frame.new with prev_handle := prev_handle }
    created := s.created + 1 }

/-- The handle of an object is set. -/
def setHandle (s : State) (o : ℕ) (handle : Option ℕ) : State :=
  { s with
    object := Function.update s.object o ((s.object o).map fun x => { x with handle_ := handle }) }

/-- The object is no longer there. -/
def remove (s : State) (o : ℕ) : State :=
  { s with object := Function.update s.object o none }

/-- `handle_.destroy()`, if there is a handle. -/
def drop (s : State) : Option ℕ → State
  | none => s
  | some f =>
      { s with
        frame := Function.update s.frame f { s.frame f with destroyed := (s.frame f).destroyed + 1 } }

/-- `set_detached(true)` -/
def setDetached (s : State) (f : ℕ) : State :=
  { s with frame := Function.update s.frame f { s.frame f with detached := true } }

/-- `start`, which ignores a coroutine that has been started. -/
def start (s : State) (f : ℕ) : State :=
  if (s.frame f).stage = .initial then s.goTo f .queued else s

/-- The coroutine `g` awaits a `Task` with the handle, which is moved into a `TaskAwaiter` in its
frame. -/
def await (s : State) (g h : ℕ) : State :=
  if (s.frame h).stage = .done then s.add (some g) (some h)
  else ((s.add (some g) (some h)).goTo g .suspended).start h

/-- `prev_handle` is made a `Task`. -/
def takePrev (s : State) (w : ℕ) : State :=
  { s with frame := Function.update s.frame w { s.frame w with prev_handle := none } }

end State

/-- The step function. -/
def step (s : State) : Label → Option State
  | .call place =>
      if place.all s.alive then some ((s.create none).add place (some s.created)) else none
  | .chain o place =>
      match s.usable o with
      | some ⟨_, some h⟩ =>
          if place.all s.alive then
            some (((s.setHandle o none).create (some h)).add place (some s.created))
          else none
      | _ => none
  | .move o place =>
      match s.usable o with
      | some x => if place.all s.alive then some ((s.setHandle o none).add place x.handle_) else none
      | none => none
  | .assign o o' =>
      match s.usable o, s.usable o' with
      | some x, some y =>
          if o = o' then some s
          else if x.handle_.all s.idle then
            some (((s.drop x.handle_).setHandle o' none).setHandle o y.handle_)
          else none
      | _, _ => none
  -- the objects in a frame are destroyed after the frame
  | .destroy o =>
      match s.object o with
      | some x => if x.handle_.all s.idle then some ((s.drop x.handle_).remove o) else none
      | none => none
  | .detach o =>
      match s.usable o with
      | some ⟨_, some h⟩ => some ((s.setDetached h).setHandle o none)
      | some ⟨_, none⟩ => some s
      | none => none
  | .start o =>
      match s.usable o with
      | some ⟨_, some h⟩ => some (s.start h)
      | _ => none
  | .await g o =>
      match s.usable o with
      | some ⟨_, some h⟩ =>
          if s.alive g ∧ (s.frame g).stage = .running then some ((s.setHandle o none).await g h)
          else none
      | _ => none
  -- a coroutine of `then`, `catching` or `finally` that is resumed first awaits what it was given
  | .resume f =>
      if s.alive f ∧ (s.frame f).stage = .queued then
        match (s.frame f).prev_handle with
        | some h => some (((s.goTo f .running).takePrev f).await f h)
        | none => some (s.goTo f .running)
      else none
  | .suspend f =>
      if s.alive f ∧ (s.frame f).stage = .running then some (s.goTo f .suspended) else none
  | .wake f =>
      if s.alive f ∧ (s.frame f).stage = .suspended then some (s.goTo f .queued) else none
  -- the coroutine of a detached task runs off its end
  | .finish f =>
      if s.alive f ∧ (s.frame f).stage = .running then
        some (if (s.frame f).detached then s.drop (some f) else s.goTo f .done)
      else none

/-! ### What a step does -/

/-- The steps by what they do: objects and handles that they use exist, and so do the frames of the
coroutines that take them. -/
inductive Effect (s : State) : State → Prop
  | call {place : Option ℕ} : Effect s ((s.create none).add place (some s.created))
  | chain {o h : ℕ} {x : Object} {place : Option ℕ} (object : s.object o = some x)
      (handle : x.handle_ = some h) :
      Effect s (((s.setHandle o none).create (some h)).add place (some s.created))
  | move {o : ℕ} {x : Object} {place : Option ℕ} (object : s.object o = some x) :
      Effect s ((s.setHandle o none).add place x.handle_)
  | assign {o o' : ℕ} {x y : Object} (object : s.object o = some x) (object' : s.object o' = some y)
      (ne : o ≠ o') : Effect s (((s.drop x.handle_).setHandle o' none).setHandle o y.handle_)
  | destroy {o : ℕ} {x : Object} (object : s.object o = some x) :
      Effect s ((s.drop x.handle_).remove o)
  | detach {o h : ℕ} {x : Object} (object : s.object o = some x) (handle : x.handle_ = some h) :
      Effect s ((s.setDetached h).setHandle o none)
  | start {o h : ℕ} {x : Object} (object : s.object o = some x) (handle : x.handle_ = some h) :
      Effect s (s.start h)
  | await {g o h : ℕ} {x : Object} (object : s.object o = some x) (handle : x.handle_ = some h)
      (alive : s.alive g = true) (running : (s.frame g).stage = .running) :
      Effect s ((s.setHandle o none).await g h)
  | adopt {f h : ℕ} (alive : s.alive f = true) (prev_handle : (s.frame f).prev_handle = some h) :
      Effect s (((s.goTo f .running).takePrev f).await f h)
  | goTo {f : ℕ} {stage : Stage} (alive : s.alive f = true)
      (prev_handle : (s.frame f).prev_handle = none ∨ (s.frame f).stage = .running ∨ stage = .queued) :
      Effect s (s.goTo f stage)
  | finish {f : ℕ} (alive : s.alive f = true) (detached : (s.frame f).detached = true) :
      Effect s (s.drop (some f))
  | idle : Effect s s

theorem State.object_of_usable {s : State} {o : ℕ} {x : Object} (h : s.usable o = some x) :
  s.object o = some x
  := (Option.filter_eq_some_iff.mp h).1

theorem step_effect {s t : State} {a : Label} (h : step s a = some t) :
  Effect s t
  := by
  cases a with
  | call place =>
      simp only [step, Option.ite_none_right_eq_some, Option.some.injEq] at h
      obtain ⟨-, rfl⟩ := h
      exact .call
  | chain o place =>
      simp only [step] at h
      split at h
      next husable =>
        simp only [Option.ite_none_right_eq_some, Option.some.injEq] at h
        obtain ⟨-, rfl⟩ := h
        exact .chain (State.object_of_usable husable) rfl
      · contradiction
  | move o place =>
      simp only [step] at h
      split at h
      next husable =>
        simp only [Option.ite_none_right_eq_some, Option.some.injEq] at h
        obtain ⟨-, rfl⟩ := h
        exact .move (State.object_of_usable husable)
      · contradiction
  | assign o o' =>
      simp only [step] at h
      split at h
      next hx hy =>
        split at h
        · cases h
          exact .idle
        next hne =>
          simp only [Option.ite_none_right_eq_some, Option.some.injEq] at h
          obtain ⟨-, rfl⟩ := h
          exact .assign (State.object_of_usable hx) (State.object_of_usable hy) hne
      · contradiction
  | destroy o =>
      simp only [step] at h
      split at h
      next hx =>
        simp only [Option.ite_none_right_eq_some, Option.some.injEq] at h
        obtain ⟨-, rfl⟩ := h
        exact .destroy hx
      · contradiction
  | detach o =>
      simp only [step] at h
      split at h
      next husable =>
        cases h
        exact .detach (State.object_of_usable husable) rfl
      · cases h
        exact .idle
      · contradiction
  | start o =>
      simp only [step] at h
      split at h
      next husable =>
        cases h
        exact .start (State.object_of_usable husable) rfl
      · contradiction
  | await g o =>
      simp only [step] at h
      split at h
      next husable =>
        simp only [Option.ite_none_right_eq_some, Option.some.injEq] at h
        obtain ⟨⟨halive, hrunning⟩, rfl⟩ := h
        exact .await (State.object_of_usable husable) rfl halive hrunning
      · contradiction
  | resume f =>
      simp only [step, Option.ite_none_right_eq_some] at h
      obtain ⟨⟨halive, -⟩, h⟩ := h
      split at h
      next hprev =>
        cases h
        exact .adopt halive hprev
      next hprev =>
        cases h
        exact .goTo halive (.inl hprev)
  | suspend f =>
      simp only [step, Option.ite_none_right_eq_some, Option.some.injEq] at h
      obtain ⟨⟨halive, hrunning⟩, rfl⟩ := h
      exact .goTo halive (.inr (.inl hrunning))
  | wake f =>
      simp only [step, Option.ite_none_right_eq_some, Option.some.injEq] at h
      obtain ⟨⟨halive, -⟩, rfl⟩ := h
      exact .goTo halive (.inr (.inr rfl))
  | finish f =>
      simp only [step, Option.ite_none_right_eq_some, Option.some.injEq] at h
      obtain ⟨⟨halive, hrunning⟩, rfl⟩ := h
      split
      next hdetached => exact .finish halive hdetached
      · exact .goTo halive (.inr (.inl hrunning))

/-! ### The custody of frames -/

/-- What may hold a frame: an object, the parameter of a coroutine, or the frame itself. -/
inductive Holder
  | object (o : ℕ)
  | parameter (w : ℕ)
  | itself (f : ℕ)
  deriving DecidableEq

/-- Who holds which frame. -/
def State.custody (s : State) : Custody Holder ℕ where
  holds
    | .object o => (s.object o).bind Object.handle_
    | .parameter w => (s.frame w).prev_handle
    | .itself f => if (s.frame f).detached ∧ (s.frame f).destroyed = 0 then some f else none
  taken f := f < s.created
  released f := (s.frame f).destroyed

variable {s t : State} {a : Label} {o o' f g h w : ℕ} {place handle : Option ℕ}

theorem custody_initial :
  initial.custody = Custody.initial Holder ℕ
  := by
  apply Custody.ext
  · funext k
    cases k <;> rfl
  · funext f
    simp [State.custody, Custody.initial, initial]
  · rfl

/-- An object is changed. -/
theorem custody_setObject {x : Option Object} :
  State.custody { s with object := Function.update s.object o x } =
    s.custody.put (.object o) (x.bind Object.handle_)
  := by
  apply Custody.ext
  · funext k
    cases k with
    | object j => by_cases hj : j = o <;> simp [State.custody, Custody.put, hj]
    | parameter w => simp [State.custody, Custody.put]
    | itself g =>
        rw [Custody.put_holds_of_ne (by simp)]
        rfl
  · rfl
  · rfl

theorem custody_add :
  (s.add place handle).custody = s.custody.put (.object s.made) handle
  := custody_setObject (x := some ⟨place, handle⟩)

theorem custody_remove :
  (s.remove o).custody = s.custody.put (.object o) none
  := custody_setObject (x := none)

theorem custody_setHandle (ho : s.object o ≠ none) :
  (s.setHandle o handle).custody = s.custody.put (.object o) handle
  := by
  obtain ⟨x, hx⟩ := Option.ne_none_iff_exists'.mp ho
  rw [State.setHandle, custody_setObject, hx]
  rfl

/-- A frame is changed. -/
theorem custody_setFrame {x : Frame} :
  State.custody { s with frame := Function.update s.frame f x } =
    { (s.custody.put (.parameter f) x.prev_handle).put (.itself f)
        (if x.detached ∧ x.destroyed = 0 then some f else none) with
      released := Function.update s.custody.released f x.destroyed }
  := by
  apply Custody.ext
  · funext k
    cases k with
    | object j => simp [State.custody, Custody.put]
    | parameter w => by_cases hw : w = f <;> simp [State.custody, Custody.put, hw]
    | itself g => by_cases hg : g = f <;> simp [State.custody, Custody.put, hg]
  · rfl
  · funext g
    by_cases hg : g = f <;> simp [State.custody, hg]

/-- A frame keeps its parameter. -/
theorem put_parameter :
  s.custody.put (.parameter f) (s.frame f).prev_handle = s.custody
  := Custody.put_self rfl

/-- A frame is not destroyed. -/
theorem update_destroyed :
  Function.update s.custody.released f (s.frame f).destroyed = s.custody.released
  := Function.update_eq_self (f := s.custody.released) f

theorem custody_goTo {stage : Stage} :
  (s.goTo f stage).custody = s.custody
  := by
  rw [State.goTo, custody_setFrame, put_parameter, update_destroyed]
  apply Custody.put_self
  rfl

theorem custody_start :
  (s.start f).custody = s.custody
  := by
  unfold State.start
  split
  · apply custody_goTo
  · rfl

theorem custody_takePrev :
  (s.takePrev w).custody = s.custody.put (.parameter w) none
  := by
  rw [State.takePrev, custody_setFrame, update_destroyed]
  apply Custody.put_self
  rw [Custody.put_holds_of_ne (by simp)]
  rfl

theorem custody_drop :
  (s.drop (some f)).custody =
    { s.custody.put (.itself f) none with
      released := Function.update s.custody.released f (s.custody.released f + 1) }
  := by
  rw [State.drop, custody_setFrame, put_parameter]
  simp [State.custody]

theorem custody_setDetached (hf : (s.frame f).destroyed = 0) :
  (s.setDetached f).custody = s.custody.put (.itself f) (some f)
  := by
  rw [State.setDetached, custody_setFrame, put_parameter, update_destroyed, if_pos ⟨rfl, hf⟩]
  rfl

theorem custody_create (hnew : s.frame s.created = .new) :
  (s.create handle).custody =
    { s.custody.put (.parameter s.created) handle with
      taken := Function.update s.custody.taken s.created true }
  := by
  apply Custody.ext
  · funext k
    cases k with
    | object j => simp [State.custody, State.create, Custody.put]
    | parameter w => by_cases hw : w = s.created <;> simp [State.custody, State.create, Custody.put, hw]
    | itself g =>
        by_cases hg : g = s.created <;>
          simp [State.custody, State.create, Custody.put, hg, hnew, Frame.new]
  · funext f
    by_cases hf : f = s.created
    · simp [State.custody, State.create, hf]
    · have hlt : f < s.created + 1 ↔ f < s.created := by omega
      simp only [State.custody, State.create, hlt, Function.update_of_ne hf]
  · funext f
    by_cases hf : f = s.created <;> simp [State.custody, State.create, hf, hnew, Frame.new]

theorem custody_await :
  (s.await g h).custody = s.custody.put (.object s.made) (some h)
  := by
  unfold State.await
  split
  · apply custody_add
  · rw [custody_start, custody_goTo, custody_add]

/-! ### What has not been created -/

/-- Objects and frames that have not been created are not there. -/
structure Fresh (s : State) : Prop where
  object : ∀ o, s.made ≤ o → s.object o = none
  frame : ∀ f, s.created ≤ f → s.frame f = .new

theorem Fresh.setFrame {x : Frame} (hs : Fresh s) (hf : f < s.created) :
  Fresh { s with frame := Function.update s.frame f x }
  := by
  constructor
  · apply hs.object
  · intro g hg
    have hne : g ≠ f := by
      rintro rfl
      apply Nat.not_lt.mpr hg hf
    simpa [hne] using hs.frame g hg

theorem Fresh.start (hs : Fresh s) (hf : f < s.created) :
  Fresh (s.start f)
  := by
  unfold State.start
  split
  · apply hs.setFrame hf
  · apply hs

theorem Fresh.add (hs : Fresh s) :
  Fresh (s.add place handle)
  := by
  constructor
  · intro o ho
    have hlt : s.made < o := ho
    have hne : o ≠ s.made := by omega
    simpa [State.add, hne] using hs.object o (by omega)
  · apply hs.frame

theorem Fresh.setObject {x : Option Object} (hs : Fresh s) (ho : s.object o ≠ none) :
  Fresh { s with object := Function.update s.object o x }
  := by
  constructor
  · intro o' ho'
    have hne : o' ≠ o := by
      rintro rfl
      apply ho (hs.object o' ho')
    simpa [hne] using hs.object o' ho'
  · apply hs.frame

theorem Fresh.create (hs : Fresh s) :
  Fresh (s.create handle)
  := by
  constructor
  · apply hs.object
  · intro f hf
    have hlt : s.created < f := hf
    have hne : f ≠ s.created := by omega
    simpa [State.create, hne] using hs.frame f (by omega)

theorem Fresh.await (hs : Fresh s) (hg : g < s.created) (hh : h < s.created) :
  Fresh (s.await g h)
  := by
  unfold State.await
  split
  · apply hs.add
  · have hsuspended : Fresh ((s.add (some g) (some h)).goTo g .suspended) := hs.add.setFrame hg
    apply hsuspended.start hh

theorem Fresh.drop (hs : Fresh s) (hf : ∀ f, handle = some f → f < s.created) :
  Fresh (s.drop handle)
  := by
  cases handle with
  | none => apply hs
  | some f => apply hs.setFrame (hf f rfl)

/-- Every frame that has been created has one holder, or has been destroyed once. -/
structure Valid (s : State) : Prop where
  fresh : Fresh s
  exclusive : s.custody.Exclusive

theorem Valid.initial :
  Valid initial
  := by
  constructor
  · exact ⟨fun _ _ => rfl, fun _ _ => rfl⟩
  · rw [custody_initial]
    apply Custody.Exclusive.initial

/-- A handle that somebody holds is that of a frame that has been created, and not destroyed. -/
theorem Valid.of_held {k : Holder} (hs : Valid s) (hk : s.custody.holds k = some f) :
  f < s.created ∧ (s.frame f).destroyed = 0
  := by
  obtain ⟨htaken, hzero⟩ := hs.exclusive.alive k f hk
  exact ⟨by simpa [State.custody] using htaken, hzero⟩

/-- A frame that somebody else holds does not hold itself. -/
theorem Valid.not_itself {k : Holder} (hs : Valid s) (hk : s.custody.holds k = some f)
    (hne : k ≠ .itself f) :
  s.custody.holds (.itself f) = none
  := by
  by_contra hheld
  apply hne
  apply hs.exclusive.unique k (.itself f) f hk
  simp_all [State.custody]

theorem custody_object {x : Object} (h : s.object o = some x) :
  s.custody.holds (.object o) = x.handle_
  := by simp [State.custody, h]

/-! ### The steps -/

/-- A step is a run of the custody of the frames. -/
def Refines (s t : State) : Prop := ∃ bs, Run Custody.step Free s.custody bs t.custody

theorem Refines.of_same (h : t.custody = s.custody) :
  Refines s t
  := by
  use []
  rw [h]
  apply Run.nil

theorem Fresh.made (hs : Fresh s) :
  s.custody.holds (.object s.made) = none
  := by simp [State.custody, hs.object s.made (Nat.le_refl _)]

theorem Fresh.created (hs : Fresh s) :
  s.custody.holds (.parameter s.created) = none
  := by simp [State.custody, hs.frame s.created (Nat.le_refl _), Frame.new]

theorem taken_created :
  s.custody.taken s.created = false
  := by simp [State.custody]

/-- A coroutine is called. -/
theorem refines_call (hs : Fresh s) :
  Refines s ((s.create none).add place (some s.created))
  := by
  use [.take (.object s.made) s.created]
  have hcustody : ((s.create none).add place (some s.created)).custody =
      s.custody.take (.object s.made) s.created := by
    rw [custody_add, custody_create (hs.frame _ (Nat.le_refl _)), Custody.put_self hs.created]
    rfl
  rw [hcustody]
  apply Custody.run_take hs.made taken_created

/-- `then`, `catching` or `finally` is called. -/
theorem refines_chain (hs : Fresh s) (ho : s.object o ≠ none)
    (hheld : s.custody.holds (.object o) = some h) :
  Refines s (((s.setHandle o none).create (some h)).add place (some s.created))
  := by
  use [.pass (.object o) (.parameter s.created), .take (.object s.made) s.created]
  have hcustody : (((s.setHandle o none).create (some h)).add place (some s.created)).custody =
      (s.custody.pass (.object o) (.parameter s.created)).take (.object s.made) s.created := by
    have hnew : (s.setHandle o none).frame (s.setHandle o none).created = .new :=
      hs.frame _ (Nat.le_refl _)
    rw [custody_add, custody_create hnew, custody_setHandle ho, Custody.pass, hheld]
    rfl
  rw [hcustody]
  apply (Custody.run_pass hs.created).trans
  apply Custody.run_take
  · rw [Custody.pass, Custody.put_holds_of_ne (by simp)]
    by_cases hne : s.made = o
    · simp [hne]
    · rw [Custody.put_holds_of_ne (by simpa using hne), hs.made]
  · apply taken_created

/-- A handle is moved to a new object. -/
theorem refines_move {k : Holder} (hs : Fresh s)
    (ht : t.custody = (s.custody.put k none).put (.object s.made) (s.custody.holds k)) :
  Refines s t
  := by
  use [.pass k (.object s.made)]
  rw [ht]
  apply Custody.run_pass hs.made

/-- The frame that an object holds, if any, is destroyed. -/
theorem refines_drop (hs : Valid s) (ht : t.custody =
      (s.drop (s.custody.holds (.object o))).custody.put (.object o) none) :
  Refines s t
  := by
  cases hheld : s.custody.holds (.object o) with
  | none =>
      apply Refines.of_same
      rw [ht, hheld, State.drop, Custody.put_self hheld]
  | some f =>
      use [.release (.object o)]
      have hcustody : t.custody = s.custody.release (.object o) f := by
        rw [ht, hheld, custody_drop, Custody.put_self (hs.not_itself hheld (by simp))]
        rfl
      rw [hcustody]
      apply Custody.run_release hheld

theorem refines_detach (hs : Valid s) (ho : s.object o ≠ none)
    (hheld : s.custody.holds (.object o) = some h) :
  Refines s ((s.setDetached h).setHandle o none)
  := by
  use [.pass (.object o) (.itself h)]
  have hcustody : ((s.setDetached h).setHandle o none).custody =
      s.custody.pass (.object o) (.itself h) := by
    have ho' : (s.setDetached h).object o ≠ none := ho
    rw [custody_setHandle ho', custody_setDetached (hs.of_held hheld).2, Custody.put_comm (by simp),
      Custody.pass, hheld]
  rw [hcustody]
  apply Custody.run_pass (hs.not_itself hheld (by simp))

theorem Refines.trans {u : State} (h : Refines s t) (h' : Refines t u) :
  Refines s u
  := by
  obtain ⟨bs, hbs⟩ := h
  obtain ⟨cs, hcs⟩ := h'
  exact ⟨bs ++ cs, hbs.trans hcs⟩

theorem drop_object :
  (s.drop handle).object = s.object
  := by cases handle <;> rfl

/-- The handle of one object is moved to another, when the frame this one holds has been destroyed.
-/
theorem refines_assign {x y : Object} (hs : Valid s) (hx : s.object o = some x)
    (hy : s.object o' = some y) (hne : o ≠ o') :
  Refines s (((s.drop x.handle_).setHandle o' none).setHandle o y.handle_)
  := by
  have ho : (s.drop x.handle_).object o ≠ none := by simp [drop_object, hx]
  have ho' : (s.drop x.handle_).object o' ≠ none := by simp [drop_object, hy]
  have hheld : (s.drop x.handle_).custody.holds (.object o') = y.handle_ := by
    apply custody_object
    rw [drop_object, hy]
  have hdropped : Refines s ((s.drop x.handle_).setHandle o none) := by
    apply refines_drop hs (o := o)
    rw [custody_object hx, custody_setHandle ho]
  apply hdropped.trans
  use [.pass (.object o') (.object o)]
  have hkept : ((s.drop x.handle_).setHandle o' none).object o ≠ none := by
    simp [State.setHandle, hne, drop_object, hx]
  have hcomm : ((s.drop x.handle_).custody.put (.object o) none).put (.object o') none =
      ((s.drop x.handle_).custody.put (.object o') none).put (.object o) none := by
    apply Custody.put_comm
    simpa using hne
  have hcustody : (((s.drop x.handle_).setHandle o' none).setHandle o y.handle_).custody =
      ((s.drop x.handle_).setHandle o none).custody.pass (.object o') (.object o) := by
    rw [custody_setHandle hkept, custody_setHandle ho', custody_setHandle ho, Custody.pass,
      Custody.put_holds_of_ne (by simpa using Ne.symm hne), hheld, hcomm, Custody.put_put]
  rw [hcustody]
  apply Custody.run_pass
  rw [custody_setHandle ho, Custody.put_holds_self]

/-- Every step is a run of the custody of the frames. -/
theorem step_refines (hs : Valid s) (h : step s a = some t) :
  Refines s t
  := by
  cases step_effect h with
  | call => apply refines_call hs.fresh
  | chain object handle =>
      apply refines_chain hs.fresh
      · simp [object]
      · rw [custody_object object, handle]
  | @move o x place object =>
      apply refines_move (k := .object o) hs.fresh
      rw [custody_add, custody_setHandle (by simp [object]), custody_object object]
      rfl
  | assign object object' ne => apply refines_assign hs object object' ne
  | @destroy o x object =>
      apply refines_drop hs (o := o)
      rw [custody_object object, custody_remove]
  | detach object handle =>
      apply refines_detach hs
      · simp [object]
      · rw [custody_object object, handle]
  | start => apply Refines.of_same custody_start
  | @await g o h x object handle =>
      apply refines_move (k := .object o) hs.fresh
      rw [custody_await, custody_setHandle (by simp [object]), custody_object object, handle]
      rfl
  | @adopt f h alive prev_handle =>
      apply refines_move (k := .parameter f) hs.fresh
      rw [custody_await, custody_takePrev, custody_goTo]
      simp only [State.custody, prev_handle]
      rfl
  | goTo => apply Refines.of_same custody_goTo
  | @finish f alive detached =>
      use [.release (.itself f)]
      have hheld : s.custody.holds (.itself f) = some f := by
        simp_all [State.custody, State.alive]
      have hcustody : (s.drop (some f)).custody = s.custody.release (.itself f) f := by
        rw [custody_drop]
        rfl
      rw [hcustody]
      apply Custody.run_release hheld
  | idle => apply Refines.of_same rfl

theorem lt_of_alive (h : s.alive f = true) :
  f < s.created
  := by
  simp only [State.alive, Bool.and_eq_true, decide_eq_true_eq] at h
  apply h.1

theorem Fresh.setHandle (hs : Fresh s) :
  Fresh (s.setHandle o handle)
  := by
  constructor
  · intro o' ho'
    have hnone := hs.object o' ho'
    by_cases hne : o' = o
    · subst hne
      simp [State.setHandle, hnone]
    · simpa [State.setHandle, hne] using hnone
  · apply hs.frame

theorem Fresh.step (hs : Valid s) (h : step s a = some t) :
  Fresh t
  := by
  have hfresh := hs.fresh
  have hlt : ∀ {o x f}, s.object o = some x → x.handle_ = some f → f < s.created := by
    intro o x f hx hf
    apply (hs.of_held (k := .object o) _).1
    rw [custody_object hx, hf]
  cases step_effect h with
  | call => apply hfresh.create.add
  | chain => apply hfresh.setHandle.create.add
  | move => apply hfresh.setHandle.add
  | @assign o o' x y object =>
      have hdropped : Fresh (s.drop x.handle_) := hfresh.drop fun f hf => hlt object hf
      apply hdropped.setHandle.setHandle
  | @destroy o x object =>
      have hdropped : Fresh (s.drop x.handle_) := hfresh.drop fun f hf => hlt object hf
      apply hdropped.setObject
      simp [drop_object, object]
  | @detach o f x object handle =>
      have hdetached : Fresh (s.setDetached f) := hfresh.setFrame (hlt object handle)
      apply hdetached.setHandle
  | start object handle => apply hfresh.start (hlt object handle)
  | @await g o f x object handle alive =>
      have hf : f < s.created := hlt object handle
      apply hfresh.setHandle.await (lt_of_alive alive) hf
  | @adopt w f alive prev_handle =>
      have hw := lt_of_alive alive
      have hf : f < s.created := by
        apply (hs.of_held (k := .parameter w) _).1
        simp [State.custody, prev_handle]
      have hrunning : Fresh (s.goTo w .running) := hfresh.setFrame hw
      have htaken : Fresh ((s.goTo w .running).takePrev w) := hrunning.setFrame hw
      apply htaken.await hw hf
  | goTo alive | finish alive => apply hfresh.setFrame (lt_of_alive alive)
  | idle => apply hfresh

theorem Valid.step (hs : Valid s) (h : step s a = some t) :
  Valid t
  := by
  obtain ⟨bs, hbs⟩ := step_refines hs h
  constructor
  · apply Fresh.step hs h
  · apply hs.exclusive.run hbs

theorem valid_of_run {as : List Label} (h : Run step Free initial as s) :
  Valid s
  := by
  apply h.invariant Valid
  · intro s a t hs _ e
    apply hs.step e
  · apply Valid.initial

/-! ### Coroutines that have not been resumed -/

/-- A coroutine that still has its parameter has not been resumed. -/
def Frame.Unresumed (x : Frame) : Prop := x.prev_handle ≠ none → x.stage = .initial ∨ x.stage = .queued

/-- All coroutines that still have their parameters have not been resumed. -/
def Unresumed (s : State) : Prop := ∀ f, (s.frame f).Unresumed

theorem Unresumed.setFrame {x : Frame} (hs : Unresumed s) (hx : x.Unresumed) :
  Unresumed { s with frame := Function.update s.frame f x }
  := by
  intro g
  by_cases hg : g = f
  · simpa [hg] using hx
  · simpa [hg] using hs g

/-- A coroutine that is running does not have its parameter. -/
theorem Unresumed.prev_handle (hs : Unresumed s) (hf : (s.frame f).stage = .running) :
  (s.frame f).prev_handle = none
  := by
  by_contra hprev
  have hstage := hs f hprev
  simp [hf] at hstage

theorem Unresumed.goTo {stage : Stage} (hs : Unresumed s)
    (hf : (s.frame f).prev_handle = none ∨ stage = .queued) :
  Unresumed (s.goTo f stage)
  := by
  apply hs.setFrame
  intro hprev
  obtain hnone | hqueued := hf
  · contradiction
  · exact .inr hqueued

theorem Unresumed.start (hs : Unresumed s) :
  Unresumed (s.start f)
  := by
  unfold State.start
  split
  · apply hs.goTo (.inr rfl)
  · apply hs

theorem Unresumed.await (hs : Unresumed s) (hg : (s.frame g).prev_handle = none) :
  Unresumed (s.await g h)
  := by
  unfold State.await
  split
  · apply hs
  · have hsuspended : Unresumed ((s.add (some g) (some h)).goTo g .suspended) := by
      apply Unresumed.goTo (s := s.add (some g) (some h)) hs
      exact .inl hg
    apply hsuspended.start

theorem Unresumed.create (hs : Unresumed s) :
  Unresumed (s.create handle)
  := by
  apply hs.setFrame (s := s)
  exact fun _ => .inl rfl

theorem Unresumed.drop (hs : Unresumed s) :
  Unresumed (s.drop handle)
  := by
  cases handle with
  | none => apply hs
  | some f =>
      have hkept : Frame.Unresumed { s.frame f with destroyed := (s.frame f).destroyed + 1 } := hs f
      exact hs.setFrame hkept

theorem Unresumed.setDetached (hs : Unresumed s) :
  Unresumed (s.setDetached f)
  := by
  have hkept : Frame.Unresumed { s.frame f with detached := true } := hs f
  exact hs.setFrame hkept

theorem Unresumed.takePrev {stage : Stage} (hs : Unresumed s) :
  Unresumed ((s.goTo f stage).takePrev f)
  := by
  intro g
  by_cases hg : g = f
  · simp [State.takePrev, hg, Frame.Unresumed]
  · simpa [State.takePrev, State.goTo, hg] using hs g

theorem Unresumed.step (hs : Unresumed s) (h : step s a = some t) :
  Unresumed t
  := by
  cases step_effect h with
  | call | chain => apply hs.create
  | move | idle => apply hs
  | assign | destroy | finish => apply hs.drop
  | detach => apply hs.setDetached
  | start => apply hs.start
  | @await g o h x _ _ _ running =>
      apply Unresumed.await (s := s.setHandle o none) hs
      apply hs.prev_handle running
  | adopt =>
      apply hs.takePrev.await
      simp [State.takePrev]
  | goTo _ prev_handle =>
      apply hs.goTo
      obtain hnone | hrunning | hqueued := prev_handle
      · exact .inl hnone
      · exact .inl (hs.prev_handle hrunning)
      · exact .inr hqueued

theorem unresumed_of_run {as : List Label} (h : Run step Free initial as s) :
  Unresumed s
  := by
  apply h.invariant Unresumed
  · intro s a t hs _ e
    apply hs.step e
  · exact fun _ _ => .inl rfl

/-! ### The result -/

/-- No frame is destroyed twice; and when all objects are gone, every frame has been destroyed,
those of detached tasks excepted, if and only if no coroutine of `then`, `catching` or `finally`
still has its parameter, which it has until it is resumed. -/
theorem destroyed_iff_resumed {as : List Label} (h : Run step Free initial as s) :
  (∀ f, (s.frame f).destroyed ≤ 1) ∧
  (∀ w, (s.frame w).prev_handle ≠ none →
    (s.frame w).stage = .initial ∨ (s.frame w).stage = .queued) ∧
  ((∀ o, s.object o = none) →
    ((∀ f < s.created, (s.frame f).detached = false → (s.frame f).destroyed = 1) ↔
      ∀ w, (s.frame w).prev_handle = none))
  := by
  have hs := valid_of_run h
  refine ⟨hs.exclusive.once, unresumed_of_run h, ?_⟩
  · intro hgone
    constructor
    · intro hall w
      by_contra hprev
      obtain ⟨f, hf⟩ := Option.ne_none_iff_exists'.mp hprev
      have hheld : s.custody.holds (.parameter w) = some f := hf
      obtain ⟨hlt, hzero⟩ := hs.of_held hheld
      have hnot := hs.not_itself hheld (by simp)
      have hdetached : (s.frame f).detached = false := by
        simpa [State.custody, hzero] using hnot
      have hone := hall f hlt hdetached
      omega
    · intro hnone f hlt hdetached
      apply (hs.exclusive.released_iff (by simpa [State.custody] using hlt)).mpr
      intro k hk
      cases k with
      | object o => simp [State.custody, hgone o] at hk
      | parameter w => simp [State.custody, hnone w] at hk
      | itself g =>
          simp only [State.custody] at hk
          split at hk
          next hitself =>
            obtain rfl := Option.some.inj hk
            simp [hdetached] at hitself
          · contradiction

/-- Objects that have not been created are gone. -/
theorem gone_of_run {as : List Label} (h : Run step Free initial as s)
    (hall : ∀ o < s.made, s.object o = none) (o : ℕ) :
  s.object o = none
  := by
  obtain hlt | hle := Nat.lt_or_ge o s.made
  · apply hall o hlt
  · apply (valid_of_run h).fresh.object o hle

/-- A chain of two is started, and destroyed when it has finished. -/
theorem destroyed_two :
  ∃ as s, Run step Free initial as s ∧ s.created = 2 ∧ (∀ o, s.object o = none) ∧
    ∀ f < s.created, (s.frame f).destroyed = 1
  := by
  obtain ⟨s, hs, hcreated, hgone, hframes⟩ : ∃ s, Run step Free initial
        [.call none, .chain 0 none, .destroy 0, .start 1, .resume 1, .resume 0, .finish 0, .wake 1,
          .resume 1, .destroy 2, .finish 1, .destroy 1] s ∧
      s.created = 2 ∧ (∀ o < s.made, s.object o = none) ∧
      ∀ f < s.created, (s.frame f).detached = false ∧ (s.frame f).prev_handle = none := by
    apply exists_run_of_exec
    decide
  have hall := gone_of_run hs hgone
  refine ⟨_, s, hs, hcreated, hall, ?_⟩
  intro f hf
  apply ((destroyed_iff_resumed hs).2.2 hall).mpr _ f hf (hframes f hf).1
  intro w
  obtain hlt | hle := Nat.lt_or_ge w s.created
  · apply (hframes w hlt).2
  · rw [(valid_of_run hs).fresh.frame w hle]
    rfl

/-- A chain that is destroyed without having been started leaves the frame of the task it wraps. -/
theorem chain_leaks :
  ∃ as s, Run step Free initial as s ∧ (∀ o, s.object o = none) ∧ s.created = 2 ∧
    (s.frame 1).destroyed = 1 ∧ (s.frame 0).detached = false ∧ (s.frame 0).destroyed = 0
  := by
  obtain ⟨s, hs, hgone, hframes⟩ : ∃ s, Run step Free initial
        [.call none, .chain 0 none, .destroy 0, .destroy 1] s ∧
      (∀ o < s.made, s.object o = none) ∧ s.created = 2 ∧
      (s.frame 1).destroyed = 1 ∧ (s.frame 0).detached = false ∧ (s.frame 0).destroyed = 0 := by
    apply exists_run_of_exec
    decide
  exact ⟨_, s, hs, gone_of_run hs hgone, hframes⟩

end Owning

end Koroutine
