import Koroutine.Executor.Looper
import Mathlib.Data.List.Pairwise

/-!
# What the worker of `LooperExecutor` runs

A ledger records the functions that are given to the executor before `shutdown`, what the worker
runs and when, and what it moves in a pass.
-/

open Sequence Transition

namespace Koroutine

namespace Looper

variable {F : Type*} {s t : State F} {a : Label F} {k : ℕ}

/-! ### Where the worker is -/

/-- What is known where the worker is.  `wait_for` does not wait: there is a delayed function
whenever it is called. -/
def Pc.Fits (s : State F) : Pc F → Prop
  | .testing_tasks => s.is_active = false
  | .testing_delayed => s.is_active = false ∧ s.tasks = []
  | .blocked => s.has_pending_tasks = true ∨ s.is_active = false → 0 < s.notifies
  | .breaking => s.has_pending_tasks = true ∨ s.is_active = false
  | .looking => s.has_pending_tasks = true
  | .waiting_for _ => s.has_pending_tasks = true
  | .checking_until _ => s.has_pending_tasks = true
  | .sleeping _ => False
  | .woken_until _ => False
  | .expired => False
  | .moving now => now ≤ s.now
  | .exited => s.is_active = false ∧ s.tasks = [] ∧ s.delayed_tasks.items = []
  | .undefined => False
  | _ => True

theorem isEmpty_iff :
  s.delayed_tasks.isEmpty = true ↔ s.delayed_tasks.items = []
  := PriorityQueue.isEmpty_iff

theorem has_pending_tasks_eq_false :
  s.has_pending_tasks = false ↔ s.tasks = [] ∧ s.delayed_tasks.items = []
  := by
  simp [State.has_pending_tasks, PriorityQueue.isEmpty]

theorem Pc.Fits.next {pc : Pc F} (h : s.pc.Fits s) (hpc : s.next = some pc) :
  pc.Fits s
  := by
  cases hcase : s.pc with
  | testing_active =>
      simp only [State.next, hcase, Option.some.injEq] at hpc
      subst hpc
      split
      · trivial
      · next hactive =>
          change s.is_active = false
          simpa using hactive
  | testing_tasks =>
      simp only [State.next, hcase, Option.some.injEq] at hpc
      subst hpc
      rw [hcase] at h
      split
      · trivial
      · next htasks => exact ⟨h, by simpa using htasks⟩
  | testing_delayed =>
      simp only [State.next, hcase, Option.some.injEq] at hpc
      subst hpc
      rw [hcase] at h
      split
      · trivial
      · next hdelayed => exact ⟨h.1, h.2, isEmpty_iff.mp (by simpa using hdelayed)⟩
  | locked =>
      simp only [State.next, hcase, Option.some.injEq] at hpc
      subst hpc
      split
      · trivial
      · next hempty =>
          change s.has_pending_tasks = true
          simpa [State.has_pending_tasks, or_iff_not_imp_left] using hempty
  | checking =>
      simp only [State.next, hcase, Option.some.injEq] at hpc
      subst hpc
      split
      · next hpred =>
          change s.has_pending_tasks = true ∨ s.is_active = false
          simpa using hpred
      · next hpred =>
          intro hpred'
          apply absurd _ hpred
          simpa using hpred'
  | breaking =>
      simp only [State.next, hcase, Option.some.injEq] at hpc
      subst hpc
      rw [hcase] at h
      split
      · next hempty =>
          obtain ⟨⟨hactive, htasks⟩, hdelayed⟩ :
              (s.is_active = false ∧ s.tasks = []) ∧ s.delayed_tasks.isEmpty = true := by
            simpa using hempty
          exact ⟨hactive, htasks, isEmpty_iff.mp hdelayed⟩
      · next hpending =>
          change s.has_pending_tasks = true
          obtain hpred | hactive := h
          · apply hpred
          · simpa [State.has_pending_tasks, hactive, or_iff_not_imp_left] using hpending
  | looking =>
      simp only [State.next, hcase] at hpc
      rw [hcase] at h
      split at hpc
      · next htasks =>
          split at hpc
          · next htop =>
              have hitems := PriorityQueue.top_eq_none.mp htop
              have hnone := has_pending_tasks_eq_false.mpr ⟨List.isEmpty_iff.mp htasks, hitems⟩
              change s.has_pending_tasks = true at h
              simp [h] at hnone
          · obtain rfl := Option.some.inj hpc
            split
            · apply h
            · trivial
      · obtain rfl := Option.some.inj hpc
        trivial
  | checking_until deadline =>
      simp only [State.next, hcase, Option.some.injEq] at hpc
      subst hpc
      rw [hcase] at h
      change s.has_pending_tasks = true at h
      rw [h]
      trivial
  | locking | woken =>
      simp only [State.next, hcase, Option.some.injEq] at hpc
      subst hpc
      trivial
  | waiting_for wait_time =>
      simp only [State.next, hcase, Option.some.injEq] at hpc
      subst hpc
      rw [hcase] at h
      apply h
  | woken_until deadline =>
      rw [hcase] at h
      contradiction
  | expired =>
      rw [hcase] at h
      contradiction
  | blocked | sleeping | reading_clock | moving | taking | running | exited | undefined =>
      simp [State.next, hcase] at hpc

/-- A call adds functions only while the executor is active, and owes a notification. -/
theorem Pc.Fits.call {pc : Pc F} (h : pc.Fits s) (hpc : pc.holds = false)
    (htasks : s.is_active = false → t.tasks = s.tasks)
    (hdelayed : s.is_active = false → t.delayed_tasks = s.delayed_tasks)
    (hactive : s.is_active = false → t.is_active = false) (hnotifies : 0 < t.notifies) :
  pc.Fits t
  := by
  cases pc with
  | testing_tasks => exact hactive h
  | testing_delayed =>
      have htasks' := htasks h.1
      exact ⟨hactive h.1, htasks'.trans h.2⟩
  | blocked =>
      intro _
      exact hnotifies
  | exited =>
      have htasks' := htasks h.1
      have hdelayed' := hdelayed h.1
      refine ⟨hactive h.1, htasks'.trans h.2.1, ?_⟩
      rw [hdelayed']
      apply h.2.2
  | sleeping | woken_until | expired | undefined => contradiction
  | testing_active | locking | woken | running => trivial
  | locked | checking | breaking | looking | waiting_for | checking_until | reading_clock | moving
  | taking => contradiction

theorem Pc.Fits.work (h : s.pc.Fits s) (hwork : Work s k t) :
  t.pc.Fits t
  := by
  cases hwork with
  | goes hpc => exact h.next hpc
  | starts => exact le_refl s.now
  | moves hpc =>
      rw [hpc] at h
      change Pc.Fits _ s.pc
      rw [hpc]
      exact h
  | ends | finds_none | takes => trivial

theorem Pc.Fits.step (h : s.pc.Fits s) (e : step s a = some t) :
  t.pc.Fits t
  := by
  cases effect e with
  | execute hpc =>
      refine h.call hpc ?_ ?_ ?_ (Nat.succ_pos _)
      · intro hactive
        simp [hactive]
      · intro _
        rfl
      · intro hactive
        apply hactive
  | execute_delayed hpc =>
      refine h.call hpc ?_ ?_ ?_ (Nat.succ_pos _)
      · intro _
        rfl
      · intro hactive
        simp [hactive]
      · intro hactive
        apply hactive
  | shutdown hpc =>
      refine h.call hpc ?_ ?_ ?_ (Nat.succ_pos _)
      · intro _
        rfl
      · intro _
        rfl
      · intro _
        rfl
  | notify | wake =>
      change s.pc.wake.Fits _
      cases hcase : s.pc with
      | blocked => trivial
      | sleeping deadline =>
          rw [hcase] at h
          contradiction
      | _ =>
          rw [hcase] at h
          apply h
  | timeout hpc =>
      rw [hpc] at h
      contradiction
  | work hwork => exact h.work hwork
  | finish => trivial
  | tick =>
      cases hcase : s.pc with
      | moving now =>
          rw [hcase] at h
          change now ≤ s.now + _
          have hle : now ≤ s.now := h
          omega
      | _ =>
          rw [hcase] at h
          apply h

/-! ### The ledger -/

/-- A function that the worker has taken to run it, and when. -/
structure Started (F : Type*) where
  task : Entry F
  at_time : ℤ

/-- Whether `shutdown` has been called, the functions given to `execute` and to `execute_delayed`
before, the latter with the clock at the call and the delay, what the worker has started, and what
it has moved in its last pass onto the `tasks_` it found. -/
structure Ledger (F : Type*) where
  shut : Bool
  executed : List F
  delayed : List (ℤ × ℤ × F)
  started : List (Started F)
  before : List (Entry F)
  pass : List (ℤ × F)

def Ledger.initial (F : Type*) : Ledger F where
  shut := false
  executed := []
  delayed := []
  started := []
  before := []
  pass := []

def record (s : State F) (a : Label F) (l : Ledger F) : Ledger F :=
  match a with
  | .execute f => if l.shut then l else { l with executed := l.executed ++ [f] }
  | .execute_delayed f ms =>
      if l.shut then l else { l with delayed := l.delayed ++ [(s.now, ms, f)] }
  | .shutdown => { l with shut := true }
  | .work _ =>
      match s.pc with
      | .reading_clock => { l with before := s.tasks, pass := [] }
      | .moving now =>
          { l with pass := l.pass ++ (s.delayed_tasks.top.filter fun x => x.1 ≤ now).toList }
      | .taking =>
          { l with started := l.started ++ (s.tasks.head?.map fun task => ⟨task, s.now⟩).toList }
      | _ => l
  | _ => l

/-- The function of an entry that was given to `execute`. -/
def Entry.immediate (task : Entry F) : Option F :=
  match task.due with
  | none => some task.func
  | some _ => none

/-- The due time and the function of an entry that was given to `execute_delayed`. -/
def Entry.timed (task : Entry F) : Option (ℤ × F) :=
  task.due.map fun due => (due, task.func)

/-- The due time that `execute_delayed` gives to a function. -/
def Ledger.due (x : ℤ × ℤ × F) : ℤ × F := (Clock.timePoint x.1 x.2.1, x.2.2)

/-- What has been given is what has been started and what is waiting, in `tasks_` in the order of
`execute`; what has been started or moved was due. -/
structure Booked (l : Ledger F) (s : State F) : Prop where
  shut : l.shut = !s.is_active
  order : l.started.filterMap (fun x => x.task.immediate) ++ s.tasks.filterMap Entry.immediate =
    l.executed
  delayed : (l.delayed.map Ledger.due).Perm
    (l.started.filterMap (fun x => x.task.timed) ++ s.tasks.filterMap Entry.timed ++
      s.delayed_tasks.items)
  started_due : ∀ x ∈ l.started, ∀ due ∈ x.task.due, due ≤ x.at_time
  tasks_due : ∀ task ∈ s.tasks, ∀ due ∈ task.due, due ≤ s.now
  sorted : l.pass.Pairwise fun x y => x.1 ≤ y.1
  first : ∀ now, s.pc = .moving now → ∀ x ∈ l.pass, ∀ y ∈ s.delayed_tasks.items, x.1 ≤ y.1
  moved : ∀ now, s.pc = .moving now →
    s.tasks = l.before ++ l.pass.map fun x => ⟨x.2, some x.1⟩

theorem Booked.initial :
  Booked (Ledger.initial F) (initial F)
  := by
  constructor <;> simp [Ledger.initial, Looper.initial, PriorityQueue.empty]

variable {l : Ledger F}

/-- A step that adds nothing and takes nothing. -/
theorem Booked.congr (h : Booked l s) (hactive : t.is_active = s.is_active)
    (htasks : t.tasks = s.tasks) (hdelayed : t.delayed_tasks = s.delayed_tasks)
    (hnow : s.now ≤ t.now) (hpc : ∀ now, t.pc = .moving now → s.pc = .moving now) :
  Booked l t
  := by
  constructor
  · rw [hactive]
    apply h.shut
  · rw [htasks]
    apply h.order
  · rw [htasks, hdelayed]
    apply h.delayed
  · apply h.started_due
  · rw [htasks]
    intro task htask due hdue
    apply (h.tasks_due task htask due hdue).trans hnow
  · apply h.sorted
  · rw [hdelayed]
    intro now hnow
    apply h.first now (hpc now hnow)
  · rw [htasks]
    intro now hnow
    apply h.moved now (hpc now hnow)

theorem Booked.execute {f : F} (h : Booked l s) (hpc : s.pc.holds = false) :
  Booked (record s (.execute f) l) { s with
    tasks := if s.is_active then s.tasks ++ [⟨f, none⟩] else s.tasks, notifies := s.notifies + 1 }
  := by
  have hmoving : ∀ now, s.pc ≠ .moving now := by
    intro now hnow
    simp [hnow, Pc.holds] at hpc
  cases hactive : s.is_active with
  | false =>
      have hshut : l.shut = true := by rw [h.shut, hactive, Bool.not_false]
      simp only [record, hshut, if_true]
      exact h.congr hactive.symm rfl rfl (le_refl _) fun _ hnow => hnow
  | true =>
      have hshut : l.shut = false := by rw [h.shut, hactive, Bool.not_true]
      simp only [record, hshut, if_true, Bool.false_eq_true, if_false]
      constructor
      · simp
      · rw [← h.order]
        simp [Entry.immediate]
      · have hnone : [(⟨f, none⟩ : Entry F)].filterMap Entry.timed = [] := rfl
        rw [List.filterMap_append, hnone, List.append_nil]
        apply h.delayed
      · apply h.started_due
      · intro task htask due hdue
        obtain hold | hnew := List.mem_append.mp htask
        · apply h.tasks_due task hold due hdue
        · obtain rfl : task = ⟨f, none⟩ := by simpa using hnew
          contradiction
      · apply h.sorted
      · intro now hnow
        exact absurd hnow (hmoving now)
      · intro now hnow
        exact absurd hnow (hmoving now)

theorem Booked.execute_delayed {f : F} {ms : ℤ} (h : Booked l s) (hpc : s.pc.holds = false) :
  Booked (record s (.execute_delayed f ms) l) { s with
    delayed_tasks :=
      if s.is_active then s.delayed_tasks.push (Clock.timePoint s.now ms, f) else s.delayed_tasks
    notifies := s.notifies + 1 }
  := by
  have hmoving : ∀ now, s.pc ≠ .moving now := by
    intro now hnow
    simp [hnow, Pc.holds] at hpc
  cases hactive : s.is_active with
  | false =>
      have hshut : l.shut = true := by rw [h.shut, hactive, Bool.not_false]
      simp only [record, hshut, if_true]
      exact h.congr hactive.symm rfl rfl (le_refl _) fun _ hnow => hnow
  | true =>
      have hshut : l.shut = false := by rw [h.shut, hactive, Bool.not_true]
      simp only [record, hshut, if_true, Bool.false_eq_true, if_false]
      constructor
      · simp
      · apply h.order
      · rw [List.map_append]
        have hpush : (s.delayed_tasks.push (Clock.timePoint s.now ms, f)).items.Perm
            (s.delayed_tasks.items ++ [(Clock.timePoint s.now ms, f)]) :=
          PriorityQueue.push_perm.trans (List.perm_append_singleton _ _).symm
        apply (h.delayed.append_right _).trans
        rw [List.append_assoc _ s.delayed_tasks.items]
        apply hpush.symm.append_left
      · apply h.started_due
      · apply h.tasks_due
      · apply h.sorted
      · intro now hnow
        exact absurd hnow (hmoving now)
      · intro now hnow
        exact absurd hnow (hmoving now)

/-- A pass starts. -/
theorem Booked.starts (h : Booked l s) :
  Booked { l with before := s.tasks, pass := [] } { s with pc := .moving s.now }
  := by
  constructor
  · apply h.shut
  · apply h.order
  · apply h.delayed
  · apply h.started_due
  · apply h.tasks_due
  · apply List.Pairwise.nil
  · intro now _ x hx
    contradiction
  · intro now _
    simp

/-- The function that is due first is moved. -/
theorem Booked.moves {now : ℤ} {x : ℤ × F} {q : PriorityQueue (Prod.fst : ℤ × F → ℤ)}
    (h : Booked l s) (hpc : s.pc = .moving now) (hclock : now ≤ s.now)
    (htop : s.delayed_tasks.top = some x) (hdue : x.1 ≤ now)
    (hpop : s.delayed_tasks.pop k = some q) :
  Booked { l with pass := l.pass ++ [x] }
    { s with tasks := s.tasks ++ [⟨x.2, some x.1⟩], delayed_tasks := q }
  := by
  have hperm := PriorityQueue.pop_perm hpop htop
  have hleft : ∀ y ∈ q.items, y ∈ s.delayed_tasks.items := by
    intro y hy
    apply hperm.mem_iff.mpr (List.mem_cons_of_mem _ hy)
  constructor
  · apply h.shut
  · rw [← h.order]
    simp [Entry.immediate]
  · apply h.delayed.trans
    have hmove : (s.tasks.filterMap Entry.timed ++ s.delayed_tasks.items).Perm
        ((s.tasks ++ [(⟨x.2, some x.1⟩ : Entry F)]).filterMap Entry.timed ++ q.items) := by
      rw [List.filterMap_append, List.append_assoc]
      apply hperm.append_left
    rw [List.append_assoc, List.append_assoc]
    apply hmove.append_left
  · apply h.started_due
  · intro task htask due hdue'
    obtain hold | hnew := List.mem_append.mp htask
    · apply h.tasks_due task hold due hdue'
    · obtain rfl : task = ⟨x.2, some x.1⟩ := by simpa using hnew
      obtain rfl : x.1 = due := by simpa using hdue'
      apply hdue.trans hclock
  · rw [List.pairwise_append]
    refine ⟨h.sorted, List.pairwise_singleton _ _, ?_⟩
    intro y hy z hz
    obtain rfl : z = x := by simpa using hz
    apply h.first now hpc y hy z (PriorityQueue.mem_of_top htop)
  · intro now' hnow y hy z hz
    obtain hold | hnew := List.mem_append.mp hy
    · apply h.first now' hnow y hold z (hleft z hz)
    · obtain rfl : y = x := by simpa using hnew
      apply PriorityQueue.top_le htop (hleft z hz)
  · intro now' hnow
    rw [h.moved now' hnow]
    simp

/-- The worker takes the first function to run it. -/
theorem Booked.takes {task : Entry F} {tasks : List (Entry F)} (h : Booked l s)
    (htasks : s.tasks = task :: tasks) :
  Booked { l with started := l.started ++ [⟨task, s.now⟩] }
    { s with tasks := tasks, pc := .running task }
  := by
  have horder := h.order
  have hdelayed := h.delayed
  rw [htasks] at horder hdelayed
  constructor
  · apply h.shut
  · rw [← horder]
    cases himmediate : task.immediate <;> simp [himmediate]
  · apply hdelayed.trans
    cases htimed : task.timed <;> simp [htimed]
  · intro x hx due hdue
    obtain hold | hnew := List.mem_append.mp hx
    · apply h.started_due x hold due hdue
    · obtain rfl : x = ⟨task, s.now⟩ := by simpa using hnew
      apply h.tasks_due task (by simp [htasks]) due hdue
  · intro task' htask' due hdue
    apply h.tasks_due task' (by simp [htasks, htask']) due hdue
  · apply h.sorted
  · intro now hnow
    contradiction
  · intro now hnow
    contradiction

theorem next_ne_moving {pc : Pc F} {now : ℤ} (h : s.next = some pc) :
  pc ≠ .moving now
  := by
  rintro rfl
  unfold State.next at h
  cases hcase : s.pc with
  | looking =>
      simp only [hcase] at h
      split at h
      · split at h
        · simp at h
        · split at h
          · simp at h
          · simp at h
      · simp at h
  | testing_active | testing_tasks | testing_delayed | locked | checking | breaking
  | checking_until =>
      simp only [hcase, Option.some.injEq] at h
      split at h
      · contradiction
      · contradiction
  | _ => simp [hcase] at h

theorem record_next {pc : Pc F} (h : s.next = some pc) :
  record s (.work k) l = l
  := by
  cases hcase : s.pc with
  | reading_clock | moving | taking => simp [State.next, hcase] at h
  | _ => simp [record, hcase]

theorem wake_ne_moving {now : ℤ} (h : s.pc.wake = .moving now) :
  s.pc = .moving now
  := by
  cases hcase : s.pc <;> simp [hcase, Pc.wake] at h ⊢
  apply h

theorem Booked.work (h : Booked l s) (hfits : s.pc.Fits s) (hwork : Work s k t) :
  Booked (record s (.work k) l) t
  := by
  cases hwork with
  | goes hpc =>
      rw [record_next hpc]
      refine h.congr rfl rfl rfl (le_refl _) ?_
      intro now hnow
      exact absurd hnow (next_ne_moving hpc)
  | starts hpc =>
      have hrecord : record s (.work k) l = { l with before := s.tasks, pass := [] } := by
        simp only [record, hpc]
      rw [hrecord]
      exact h.starts
  | @moves now x q hpc htop hdue hpop =>
      rw [hpc] at hfits
      have htaken : (s.delayed_tasks.top.filter fun x => x.1 ≤ now).toList = [x] := by
        simp [htop, hdue]
      have hrecord : record s (.work k) l = { l with pass := l.pass ++ [x] } := by
        simp only [record, hpc, htaken]
      rw [hrecord]
      exact h.moves hpc hfits htop hdue hpop
  | @ends now hpc hlate =>
      have hnone : (s.delayed_tasks.top.filter fun x => x.1 ≤ now).toList = [] := by
        rw [Option.toList_eq_nil_iff, Option.filter_eq_none_iff]
        intro x htop
        have hlt := hlate x (PriorityQueue.mem_of_top htop)
        simpa using hlt
      have hrecord : record s (.work k) l = l := by
        simp only [record, hpc, hnone, List.append_nil]
      rw [hrecord]
      refine h.congr rfl rfl rfl (le_refl _) ?_
      intro now' hnow
      contradiction
  | finds_none hpc htasks =>
      have hrecord : record s (.work k) l = l := by
        simp [record, hpc, htasks]
      rw [hrecord]
      refine h.congr rfl rfl rfl (le_refl _) ?_
      intro now hnow
      contradiction
  | @takes task tasks hpc htasks =>
      have hrecord : record s (.work k) l =
          { l with started := l.started ++ [⟨task, s.now⟩] } := by
        simp only [record, hpc, htasks, List.head?_cons, Option.map_some, Option.toList_some]
      rw [hrecord]
      exact h.takes htasks

theorem Booked.step (h : Booked l s) (hfits : s.pc.Fits s) (e : step s a = some t) :
  Booked (record s a l) t
  := by
  cases effect e with
  | execute hpc => exact h.execute hpc
  | execute_delayed hpc => exact h.execute_delayed hpc
  | shutdown hpc =>
      constructor
      · rfl
      · apply h.order
      · apply h.delayed
      · apply h.started_due
      · apply h.tasks_due
      · apply h.sorted
      · apply h.first
      · apply h.moved
  | notify | wake => exact h.congr rfl rfl rfl (le_refl _) fun _ hnow => wake_ne_moving hnow
  | timeout | finish =>
      refine h.congr rfl rfl rfl (le_refl _) ?_
      intro now hnow
      contradiction
  | work hwork => exact h.work hfits hwork
  | @tick ns =>
      refine h.congr rfl rfl rfl ?_ fun _ hnow => hnow
      change s.now ≤ s.now + ns
      omega

/-! ### The runs -/

/-- What `LooperExecutor` guarantees. -/
structure Loops (l : Ledger F) (s : State F) : Prop where
  /-- When the worker has left the loop, it has run each function that was given before `shutdown`
  once, and no other. -/
  drained : s.pc = .exited → l.shut = true ∧
    l.started.filterMap (fun x => x.task.immediate) = l.executed ∧
    (l.delayed.map Ledger.due).Perm (l.started.filterMap fun x => x.task.timed)
  /-- Until then they are in the containers, and those of `execute` are run in their order. -/
  order : l.started.filterMap (fun x => x.task.immediate) ++ s.tasks.filterMap Entry.immediate =
    l.executed
  delayed : (l.delayed.map Ledger.due).Perm
    (l.started.filterMap (fun x => x.task.timed) ++ s.tasks.filterMap Entry.timed ++
      s.delayed_tasks.items)
  /-- A delayed function is not run before it is due. -/
  due : ∀ x ∈ l.started, ∀ due ∈ x.task.due, due ≤ x.at_time
  /-- Nor before the time of the call and the delay, where their sum can be represented. -/
  timely : ∀ x ∈ l.started, x.task.due.isSome → ∃ now ms, (now, ms, x.task.func) ∈ l.delayed ∧
    (Clock.Fits (ms * 1000000) → Clock.Fits (now + ms * 1000000) → now + ms * 1000000 ≤ x.at_time)
  /-- What is moved in a pass enters `tasks_` in the order of the due times. -/
  sorted : l.pass.Pairwise fun x y => x.1 ≤ y.1
  moved : ∀ now, s.pc = .moving now → s.tasks = l.before ++ l.pass.map fun x => ⟨x.2, some x.1⟩
  /-- `top` is not called on an empty queue. -/
  defined : s.pc ≠ .undefined
  /-- The worker goes on, unless it is to be notified, or has nothing to do. -/
  goes_on : (∃ k t, step s (.work k) = some t) ∨ (∃ task, s.pc = .running task) ∨
    s.pc = .exited ∨ s.pc = .blocked ∧ (0 < s.notifies ∨
      s.tasks = [] ∧ s.delayed_tasks.items = [] ∧ l.shut = false)

/-- A delayed function that has been started was given before, and long enough. -/
theorem Booked.timely {x : Started F} (h : Booked l s) (hx : x ∈ l.started)
    (hdue : x.task.due.isSome) :
  ∃ now ms, (now, ms, x.task.func) ∈ l.delayed ∧
    (Clock.Fits (ms * 1000000) → Clock.Fits (now + ms * 1000000) → now + ms * 1000000 ≤ x.at_time)
  := by
  obtain ⟨due, hsome⟩ := Option.isSome_iff_exists.mp hdue
  have htimed : x.task.timed = some (due, x.task.func) := by
    rw [Entry.timed, hsome]
    rfl
  have hmem : (due, x.task.func) ∈ l.delayed.map Ledger.due := by
    apply h.delayed.mem_iff.mpr
    rw [List.append_assoc]
    apply List.mem_append_left
    apply List.mem_filterMap.mpr ⟨x, hx, htimed⟩
  obtain ⟨⟨now, ms, f⟩, hcall, heq⟩ := List.mem_map.mp hmem
  obtain ⟨hpoint, rfl⟩ := Prod.mk.inj heq
  refine ⟨now, ms, hcall, ?_⟩
  intro hms hsum
  have hstarted := h.started_due x hx due hsome
  rwa [← hpoint, Clock.timePoint_of_fits hms hsum] at hstarted

theorem Pc.Fits.goes_on (h : s.pc.Fits s) :
  (∃ k t, Looper.step s (.work k) = some t) ∨ (∃ task, s.pc = .running task) ∨ s.pc = .exited ∨
    s.pc = .blocked
  := by
  cases hcase : s.pc with
  | sleeping | undefined =>
      rw [hcase] at h
      contradiction
  | running task => simp
  | exited => simp
  | blocked => simp
  | moving now =>
      left
      obtain ⟨k, q, hpop⟩ := s.delayed_tasks.exists_pop
      use k
      simp only [Looper.step, Looper.work, hcase]
      split
      · simp
      · split
        · simp [hpop]
        · simp
  | taking =>
      left
      use 0
      simp only [Looper.step, Looper.work, hcase]
      split <;> simp
  | looking =>
      left
      use 0
      simp only [Looper.step, Looper.work, State.next, hcase]
      split
      · split <;> simp
      · simp
  | _ =>
      left
      use 0
      simp [Looper.step, Looper.work, State.next, hcase]

/-- In every run the functions given before `shutdown`, and no others, are run once before the
worker exits, those of `execute` in their order and delayed ones when they are due, and every pass
moves what is due in the order of the due times. -/
theorem loops_of_run {as : List (Label F)} {x : Ledger F × State F}
    (h : Run (noted step record) Free (Ledger.initial F, initial F) as x) :
  Loops x.1 x.2
  := by
  have hinvariant : x.2.pc.Fits x.2 ∧ Booked x.1 x.2 := by
    apply h.invariant fun x => x.2.pc.Fits x.2 ∧ Booked x.1 x.2
    · rintro y a z ⟨hfits, hbooked⟩ _ e
      obtain ⟨hledger, hstep⟩ := noted_eq_some.mp e
      rw [hledger]
      exact ⟨hfits.step hstep, hbooked.step hfits hstep⟩
    · exact ⟨trivial, Booked.initial⟩
  obtain ⟨hfits, hbooked⟩ := hinvariant
  constructor
  · intro hexited
    rw [hexited] at hfits
    obtain ⟨hactive, htasks, hitems⟩ := hfits
    have horder := hbooked.order
    have hdelayed := hbooked.delayed
    rw [htasks] at horder hdelayed
    rw [hitems] at hdelayed
    refine ⟨?_, ?_, ?_⟩
    · rw [hbooked.shut, hactive, Bool.not_false]
    · simpa using horder
    · simpa using hdelayed
  · apply hbooked.order
  · apply hbooked.delayed
  · apply hbooked.started_due
  · intro x hx hdue
    apply hbooked.timely hx hdue
  · apply hbooked.sorted
  · apply hbooked.moved
  · intro hundefined
    rw [hundefined] at hfits
    contradiction
  · obtain hstep | hrunning | hexited | hblocked := hfits.goes_on
    · exact .inl hstep
    · exact .inr (.inl hrunning)
    · exact .inr (.inr (.inl hexited))
    · right
      right
      right
      constructor
      · apply hblocked
      · rw [hblocked] at hfits
        by_cases hnotifies : 0 < x.2.notifies
        · exact .inl hnotifies
        · right
          have hnone := mt hfits hnotifies
          rw [not_or, Bool.not_eq_true, has_pending_tasks_eq_false, Bool.not_eq_false] at hnone
          refine ⟨hnone.1.1, hnone.1.2, ?_⟩
          rw [hbooked.shut, hnone.2, Bool.not_true]

/-- A function is given to each of `execute` and `execute_delayed` before `shutdown`, and one after
it. -/
theorem loops_two :
  ∃ as x, Run (noted step record) Free (Ledger.initial ℕ, initial ℕ) as x ∧ Loops x.1 x.2 ∧
    x.2.pc = .exited ∧ x.1.started.map (fun y => (y.task.func, y.at_time)) = [(1, 0), (2, 5000000)]
  := by
  obtain ⟨x, hrun, hends⟩ : ∃ x, Run (noted step record) Free (Ledger.initial ℕ, initial ℕ)
      (List.flatten [[.execute 1, .execute_delayed 2 5, .shutdown, .execute 3],
        List.replicate 8 (.work 0), [.finish], List.replicate 7 (.work 0), [.tick 5000000],
        List.replicate 5 (.work 0), [.finish], List.replicate 3 (.work 0)]) x ∧
      (x.2.pc = .exited ∧
        x.1.started.map (fun y => (y.task.func, y.at_time)) = [(1, 0), (2, 5000000)]) := by
    apply exists_run_of_exec
    decide
  exact ⟨_, x, hrun, loops_of_run hrun, hends⟩

end Looper

end Koroutine
