import Koroutine.Executor.Clock
import Koroutine.Sequence.PriorityQueue
import Koroutine.Transition.Run

/-!
# `LooperExecutor`

One worker runs the functions of `tasks_` in `run_loop`.  Those given to `execute_delayed` wait in
`delayed_tasks_`, from which each iteration of the loop moves the ones that are due to `tasks_`.

`execute`, `execute_delayed` and `shutdown` each have a section under `mutex_`, which is one step,
and make their notification later.  The worker takes a step for everything it tests, with or without
the mutex, so that the clock may tick, and the others may act while it is not held.  Functions are
run for their effects on the executor, which are calls like those from other threads.
-/

open Sequence Transition

namespace Koroutine

namespace Looper

/-- A function in `tasks_`; `due` is the time point of one that was in `delayed_tasks_`, which the
code forgets. -/
structure Entry (F : Type*) where
  func : F
  due : Option ℤ
  deriving DecidableEq

/-- Where the worker is in `run_loop`. -/
inductive Pc (F : Type*)
  /-- About to read `is_active_` in the condition of the loop, `tasks_`, and `delayed_tasks_`. -/
  | testing_active
  | testing_tasks
  | testing_delayed
  /-- About to lock `mutex_`. -/
  | locking
  /-- Holding it, about to test both containers. -/
  | locked
  /-- Holding it, about to evaluate the predicate of `wait`. -/
  | checking
  /-- In `wait`. -/
  | blocked
  /-- About to lock `mutex_` again. -/
  | woken
  /-- Holding it, about to decide whether to leave the loop. -/
  | breaking
  /-- Holding it, about to look at the top of `delayed_tasks_` if `tasks_` is empty. -/
  | looking
  /-- Holding it, about to call `wait_for`. -/
  | waiting_for (wait_time : ℤ)
  /-- Holding it, about to evaluate the predicate of `wait_for`. -/
  | checking_until (deadline : ℤ)
  /-- In `wait_for`. -/
  | sleeping (deadline : ℤ)
  /-- About to lock `mutex_` again. -/
  | woken_until (deadline : ℤ)
  | expired
  /-- Holding it, about to read the clock. -/
  | reading_clock
  /-- Holding it, moving what is due at `now`. -/
  | moving (now : ℤ)
  /-- Holding it, about to take a function. -/
  | taking
  | running (task : Entry F)
  | exited
  /-- `top` was called on an empty queue. -/
  | undefined
  deriving DecidableEq

/-- The executor; `notifies` counts the notifications that are still to be made. -/
structure State (F : Type*) where
  tasks : List (Entry F)
  delayed_tasks : PriorityQueue (Prod.fst : ℤ × F → ℤ)
  is_active : Bool
  pc : Pc F
  notifies : ℕ
  now : ℤ

def initial (F : Type*) : State F where
  tasks := []
  delayed_tasks := .empty
  is_active := true
  pc := .testing_active
  notifies := 0
  now := 0

/-- The steps.  `notify` is one of the outstanding notifications, `wake` a spurious wake-up, `work
k` a step of the worker, with the `k`-th of the others as the next top where it pops one, and
`finish` the end of the function it runs. -/
inductive Label (F : Type*)
  | execute (f : F)
  | execute_delayed (f : F) (ms : ℤ)
  | shutdown
  | notify
  | wake
  | timeout
  | work (k : ℕ)
  | finish
  | tick (ns : ℕ)

variable {F : Type*}

/-- The worker holds `mutex_`. -/
def Pc.holds : Pc F → Bool
  | .locked | .checking | .breaking | .looking | .waiting_for _ | .checking_until _ | .reading_clock
  | .moving _ | .taking => true
  | _ => false

/-- What a notification does to the worker. -/
def Pc.wake : Pc F → Pc F
  | .blocked => .woken
  | .sleeping deadline => .woken_until deadline
  | pc => pc

def State.has_pending_tasks (s : State F) : Bool :=
  !s.tasks.isEmpty || !s.delayed_tasks.isEmpty

/-- Where the worker goes from a place where it only tests something, locks, or waits. -/
def State.next (s : State F) : Option (Pc F) :=
  match s.pc with
  | .testing_active => some (if s.is_active then .locking else .testing_tasks)
  | .testing_tasks => some (if !s.tasks.isEmpty then .locking else .testing_delayed)
  | .testing_delayed => some (if !s.delayed_tasks.isEmpty then .locking else .exited)
  | .locking => some .locked
  | .locked => some (if s.tasks.isEmpty && s.delayed_tasks.isEmpty then .checking else .looking)
  | .checking => some (if s.has_pending_tasks || !s.is_active then .breaking else .blocked)
  | .woken => some .checking
  | .breaking =>
      some
        (if !s.is_active && s.tasks.isEmpty && s.delayed_tasks.isEmpty then .exited else .looking)
  | .looking =>
      if s.tasks.isEmpty then
        match s.delayed_tasks.top with
        | none => some .undefined
        | some x =>
            let wait_time := Clock.wrap (x.1 - s.now)
            some (if 0 < wait_time then .waiting_for wait_time else .reading_clock)
      else some .reading_clock
  | .waiting_for wait_time => some (.checking_until (Clock.wrap (s.now + wait_time)))
  | .checking_until deadline =>
      some (if s.has_pending_tasks || !s.is_active then .reading_clock else .sleeping deadline)
  | .woken_until deadline => some (.checking_until deadline)
  | .expired => some .reading_clock
  | _ => none

/-- A step of the worker. -/
def work (s : State F) (k : ℕ) : Option (State F) :=
  match s.pc with
  | .reading_clock => some { s with pc := .moving s.now }
  | .moving now =>
      match s.delayed_tasks.top with
      | none => some { s with pc := .taking }
      | some x =>
          if x.1 ≤ now then
            (s.delayed_tasks.pop k).map fun q =>
              { s with tasks := s.tasks ++ [⟨x.2, some x.1⟩], delayed_tasks := q }
          else some { s with pc := .taking }
  | .taking =>
      match s.tasks with
      | [] => some { s with pc := .testing_active }
      | task :: tasks => some { s with tasks := tasks, pc := .running task }
  | _ => s.next.map fun pc => { s with pc := pc }

def step (s : State F) : Label F → Option (State F)
  | .execute f =>
      if s.pc.holds then none
      else
        some { s with
          tasks := if s.is_active then s.tasks ++ [⟨f, none⟩] else s.tasks
          notifies := s.notifies + 1 }
  | .execute_delayed f ms =>
      if s.pc.holds then none
      else
        some { s with
          delayed_tasks :=
            if s.is_active then s.delayed_tasks.push (Clock.timePoint s.now ms, f)
            else s.delayed_tasks
          notifies := s.notifies + 1 }
  | .shutdown =>
      if s.pc.holds then none
      else some { s with is_active := false, notifies := s.notifies + 1 }
  | .notify =>
      if 0 < s.notifies then some { s with notifies := s.notifies - 1, pc := s.pc.wake } else none
  | .wake => some { s with pc := s.pc.wake }
  | .timeout =>
      match s.pc with
      | .sleeping deadline => if deadline ≤ s.now then some { s with pc := .expired } else none
      | _ => none
  | .work k => work s k
  | .finish =>
      match s.pc with
      | .running _ => some { s with pc := .testing_active }
      | _ => none
  -- readings of the clock fit
  | .tick ns => if s.now + ns < 2 ^ 63 then some { s with now := s.now + ns } else none

/-! ### What a step does -/

/-- What a step of the worker does. -/
inductive Work (s : State F) (k : ℕ) : State F → Prop
  | goes {pc : Pc F} (hpc : s.next = some pc) : Work s k { s with pc := pc }
  | starts (hpc : s.pc = .reading_clock) : Work s k { s with pc := .moving s.now }
  | moves {now : ℤ} {x : ℤ × F} {q : PriorityQueue (Prod.fst : ℤ × F → ℤ)}
      (hpc : s.pc = .moving now) (htop : s.delayed_tasks.top = some x) (hdue : x.1 ≤ now)
      (hpop : s.delayed_tasks.pop k = some q) :
      Work s k { s with tasks := s.tasks ++ [⟨x.2, some x.1⟩], delayed_tasks := q }
  | ends {now : ℤ} (hpc : s.pc = .moving now) (hlate : ∀ x ∈ s.delayed_tasks.items, now < x.1) :
      Work s k { s with pc := .taking }
  | finds_none (hpc : s.pc = .taking) (htasks : s.tasks = []) :
      Work s k { s with pc := .testing_active }
  | takes {task : Entry F} {tasks : List (Entry F)} (hpc : s.pc = .taking)
      (htasks : s.tasks = task :: tasks) : Work s k { s with tasks := tasks, pc := .running task }

/-- What a step does. -/
inductive Effect (s : State F) : Label F → State F → Prop
  | execute {f : F} (hpc : s.pc.holds = false) : Effect s (.execute f) { s with
      tasks := if s.is_active then s.tasks ++ [⟨f, none⟩] else s.tasks, notifies := s.notifies + 1 }
  | execute_delayed {f : F} {ms : ℤ} (hpc : s.pc.holds = false) :
      Effect s (.execute_delayed f ms) { s with
        delayed_tasks :=
          if s.is_active then s.delayed_tasks.push (Clock.timePoint s.now ms, f)
          else s.delayed_tasks
        notifies := s.notifies + 1 }
  | shutdown (hpc : s.pc.holds = false) :
      Effect s .shutdown { s with is_active := false, notifies := s.notifies + 1 }
  | notify (hnotifies : 0 < s.notifies) :
      Effect s .notify { s with notifies := s.notifies - 1, pc := s.pc.wake }
  | wake : Effect s .wake { s with pc := s.pc.wake }
  | timeout {deadline : ℤ} (hpc : s.pc = .sleeping deadline) :
      Effect s .timeout { s with pc := .expired }
  | work {k : ℕ} {t : State F} (hwork : Work s k t) : Effect s (.work k) t
  | finish {task : Entry F} (hpc : s.pc = .running task) :
      Effect s .finish { s with pc := .testing_active }
  | tick {ns : ℕ} : Effect s (.tick ns) { s with now := s.now + ns }

variable {s t : State F} {a : Label F} {k : ℕ}

theorem work_effect (e : work s k = some t) :
  Work s k t
  := by
  unfold work at e
  split at e
  · next hpc =>
      obtain rfl := Option.some.inj e
      exact .starts hpc
  · next now hpc =>
      split at e
      · next htop =>
          obtain rfl := Option.some.inj e
          apply Work.ends hpc
          simp [PriorityQueue.top_eq_none.mp htop]
      · next x htop =>
          split at e
          · next hdue =>
              obtain ⟨q, hpop, rfl⟩ := Option.map_eq_some_iff.mp e
              exact .moves hpc htop hdue hpop
          · next hdue =>
              obtain rfl := Option.some.inj e
              apply Work.ends hpc
              intro y hy
              have hle := PriorityQueue.top_le htop hy
              omega
  · next hpc =>
      split at e
      · next htasks =>
          obtain rfl := Option.some.inj e
          exact .finds_none hpc htasks
      · next htasks =>
          obtain rfl := Option.some.inj e
          exact .takes hpc htasks
  · obtain ⟨pc, hpc, rfl⟩ := Option.map_eq_some_iff.mp e
    exact .goes hpc

theorem effect (e : step s a = some t) :
  Effect s a t
  := by
  cases a with
  | execute f =>
      obtain ⟨hpc, heq⟩ := Option.ite_none_left_eq_some.mp e
      obtain rfl := Option.some.inj heq
      exact .execute (by simpa using hpc)
  | execute_delayed f ms =>
      obtain ⟨hpc, heq⟩ := Option.ite_none_left_eq_some.mp e
      obtain rfl := Option.some.inj heq
      exact .execute_delayed (by simpa using hpc)
  | shutdown =>
      obtain ⟨hpc, heq⟩ := Option.ite_none_left_eq_some.mp e
      obtain rfl := Option.some.inj heq
      exact .shutdown (by simpa using hpc)
  | notify =>
      obtain ⟨hnotifies, heq⟩ := Option.ite_none_right_eq_some.mp e
      obtain rfl := Option.some.inj heq
      exact .notify hnotifies
  | wake =>
      obtain rfl := Option.some.inj e
      exact .wake
  | timeout =>
      simp only [step] at e
      split at e
      · next hpc =>
          obtain ⟨-, heq⟩ := Option.ite_none_right_eq_some.mp e
          obtain rfl := Option.some.inj heq
          exact .timeout hpc
      · contradiction
  | work k => exact .work (work_effect e)
  | finish =>
      simp only [step] at e
      split at e
      · next hpc =>
          obtain rfl := Option.some.inj e
          exact .finish hpc
      · contradiction
  | tick ns =>
      obtain ⟨-, heq⟩ := Option.ite_none_right_eq_some.mp e
      obtain rfl := Option.some.inj heq
      exact .tick

end Looper

end Koroutine
