import Mathlib.Data.List.Pairwise
import Koroutine.Sync.Ownership

/-!
# Waiting in line for the mutex

Without condition variables the mutex changes hands in three places: `try_lock`, `after_suspend`
where it is free, and `unlock`, which passes it to the first waiter and leaves `_locked` set.  Every
`lock` and every successful `try_lock` takes a ticket, numbered in the order in which they get
`internal_mutex`.  The tickets enter in increasing order, also where parked `LockAwaiter`s are
destroyed in the middle of the list; none is lost but those of the destroyed awaiters; and who is
granted the mutex is resumed once.
-/

open Transition

namespace Koroutine.Sync

/-- The mutex with a record of its use: the next ticket, the last one of every coroutine, those with
which the mutex was taken, in order, the coroutines whose awaiters were destroyed, and how often
every coroutine was granted the mutex in `lock` and how often `resume` was called on its awaiter. -/
structure Line (ι : Type*) extends State ι Empty where
  arrived : ℕ
  ticket : ι → ℕ
  entered : List ℕ
  destroyed : List ι
  grants : ι → ℕ
  resumes : ι → ℕ

/-- A step of a coroutine, or the destruction of a parked `LockAwaiter`, whose coroutine makes no
more steps. -/
inductive Event (ι : Type*)
  | step (a : Label ι Empty)
  | destroy (i : ι)
  deriving DecidableEq

variable {ι : Type*} [DecidableEq ι]

namespace Line

/-- A mutex that nobody has used. -/
def initial (ι : Type*) : Line ι where
  toState := Sync.initial ι Empty
  arrived := 0
  ticket := fun _ => 0
  entered := []
  destroyed := []
  grants := fun _ => 0
  resumes := fun _ => 0

/-- Coroutine `i` takes a ticket. -/
def arrive (s : Line ι) (i : ι) : Line ι :=
  { s with arrived := s.arrived + 1, ticket := Function.update s.ticket i s.arrived }

/-- The mutex is taken with ticket `n`. -/
def enter (s : Line ι) (n : ℕ) : Line ι :=
  { s with entered := s.entered ++ [n] }

/-- `owns_mutex_on_resume = true` -/
def grant (s : Line ι) (i : ι) : Line ι :=
  { s with grants := Function.update s.grants i (s.grants i + 1) }

/-- A call of `resume` on the awaiter of coroutine `i`. -/
def resume (s : Line ι) (i : ι) : Line ι :=
  { s with resumes := Function.update s.resumes i (s.resumes i + 1) }

/-- What is recorded of a step. -/
def record (s : Line ι) : Label ι Empty → Line ι
  | .lock i => if s.locked then s.arrive i else ((s.arrive i).enter s.arrived).grant i
  | .try_lock i => if s.locked then s else (s.arrive i).enter s.arrived
  | .unlock _ =>
      match s.waiters with
      | [] => s
      | next :: _ => (s.enter (s.ticket next)).grant next
  | .proceed i =>
      match s.stage i with
      | .acquired => s.resume i
      | .handing next _ => s.resume next
      | _ => s
  | .wait _ k | .notify _ _ k => k.elim

/-- The step function. -/
def step (s : Line ι) : Event ι → Option (Line ι)
  | .step a => (Sync.step s.toState a).map fun t => { s.record a with toState := t }
  | .destroy i =>
      if i ∈ s.waiters then
        some { s with waiters := s.waiters.filter (· ≠ i), destroyed := s.destroyed ++ [i] }
      else none

end Line

/-- The stages of a coroutine that uses no condition variable. -/
def Stage.plain : Stage ι Empty → Bool
  | .running | .acquired | .queued | .granted _ | .handing _ none | .scheduled false => true
  | _ => false

/-- How often a coroutine at this stage has been granted the mutex and not been resumed yet. -/
def Stage.unresumed : Stage ι Empty → ℕ
  | .acquired | .granted _ => 1
  | _ => 0

/-- The mutex is owned exclusively, tickets enter in order, whoever waits behind those that have
entered, no ticket is lost, and a coroutine that is granted the mutex is about to be resumed, by
itself or by the one that handed it over. -/
structure Orderly (s : Line ι) : Prop where
  guarded : Guarded s.toState
  plain : ∀ i, (s.stage i).plain = true
  waiting : s.waiters ≠ [] → s.locked = true
  order : (s.entered ++ s.waiters.map s.ticket ++ [s.arrived]).Pairwise (· < ·)
  tickets : (s.entered ++ s.waiters.map s.ticket ++ s.destroyed.map s.ticket).Perm
    (List.range s.arrived)
  queued : ∀ i, s.stage i = .queued ↔ i ∈ s.waiters ∨ i ∈ s.destroyed
  handed : ∀ i j, s.stage j = .granted i → s.stage i = .handing j none
  resumed : ∀ i, s.resumes i + (s.stage i).unresumed = s.grants i

omit [DecidableEq ι] in
theorem Orderly.initial :
  Orderly (Line.initial ι)
  := by
  constructor
  · apply Guarded.initial
  all_goals simp [Line.initial, Sync.initial, Stage.plain, Stage.unresumed]

/-! ### What the steps change -/

/-- The next ticket comes after all others. -/
theorem pairwise_next {l : List ℕ} {n : ℕ} (h : (l ++ [n]).Pairwise (· < ·)) :
  (l ++ [n] ++ [n + 1]).Pairwise (· < ·)
  := by
  have hlt := (List.pairwise_append.mp h).2.2
  rw [List.pairwise_append]
  refine ⟨h, List.pairwise_singleton _ _, ?_⟩
  intro m hm n' hn'
  obtain rfl := List.mem_singleton.mp hn'
  obtain hm | hm := List.mem_append.mp hm
  · have := hlt m hm n (List.mem_singleton_self n)
    omega
  · rw [List.mem_singleton.mp hm]
    omega

/-- The next ticket is one more. -/
theorem perm_next {l after : List ℕ} {n : ℕ} (h : (l ++ after).Perm (List.range n)) :
  (l ++ [n] ++ after).Perm (List.range (n + 1))
  := by
  rw [List.range_succ, List.append_assoc]
  apply (List.perm_append_comm.append_left l).trans
  rw [← List.append_assoc]
  apply h.append_right

/-- A ticket of a coroutine that does not wait. -/
theorem map_update_ticket {waiters : List ι} {ticket : ι → ℕ} {i : ι} {n : ℕ} (hi : i ∉ waiters) :
  waiters.map (Function.update ticket i n) = waiters.map ticket
  := by
  apply List.map_congr_left
  intro j hj
  apply Function.update_of_ne
  rintro rfl
  contradiction

variable {stage : ι → Stage ι Empty} {i : ι} {x : Stage ι Empty}

theorem plain_update (h : ∀ j, (stage j).plain = true) (hx : x.plain = true) :
  ∀ j, (Function.update stage i x j).plain = true
  := by
  intro j
  by_cases hj : j = i
  · rw [hj, Function.update_self, hx]
  · rw [Function.update_of_ne hj, h j]

/-- A waiter whose awaiter is destroyed keeps its ticket. -/
theorem perm_destroy {waiters : List ι} {i : ι} (destroyed : List ι) (ticket : ι → ℕ)
    (honce : waiters.Nodup) (hmem : i ∈ waiters) :
  ((waiters.filter (· ≠ i)).map ticket ++ (destroyed ++ [i]).map ticket).Perm
    (waiters.map ticket ++ destroyed.map ticket)
  := by
  have herase : waiters.erase i = waiters.filter (· ≠ i) := by
    rw [honce.erase_eq_filter]
    apply List.filter_congr
    intro j _
    by_cases hj : j = i <;> simp [hj]
  have hperm : (ticket i :: (waiters.filter (· ≠ i)).map ticket).Perm (waiters.map ticket) := by
    rw [← herase, ← List.map_cons]
    apply (List.perm_cons_erase hmem).symm.map
  rw [List.map_append, List.map_singleton, ← List.append_assoc]
  apply List.perm_append_comm.trans
  rw [List.singleton_append, ← List.cons_append]
  apply hperm.append_right

/-- A coroutine that is not parked may change its stage. -/
theorem parked_update {waiters destroyed : List ι}
    (h : ∀ j, stage j = .queued ↔ j ∈ waiters ∨ j ∈ destroyed) (hi : stage i ≠ .queued)
    (hx : x ≠ .queued) :
  ∀ j, Function.update stage i x j = .queued ↔ j ∈ waiters ∨ j ∈ destroyed
  := by
  intro j
  by_cases hj : j = i
  · rw [hj, Function.update_self, ← h i]
    exact ⟨fun heq => absurd heq hx, fun heq => absurd heq hi⟩
  · rw [Function.update_of_ne hj, h j]

/-- A coroutine that is not in `unlock` may change its stage. -/
theorem handed_update (h : ∀ k j, stage j = .granted k → stage k = .handing j none)
    (hi : ∀ j, stage i ≠ .handing j none) (hx : ∀ k, x ≠ .granted k) :
  ∀ k j, Function.update stage i x j = .granted k →
    Function.update stage i x k = .handing j none
  := by
  intro k j hj
  by_cases hji : j = i
  · rw [hji, Function.update_self] at hj
    apply absurd hj (hx k)
  · rw [Function.update_of_ne hji] at hj
    have hk := h k j hj
    have hki : k ≠ i := by
      rintro rfl
      apply hi j hk
    rw [Function.update_of_ne hki, hk]

/-- `unlock` takes the first waiter. -/
theorem handed_handOver {next : ι} (h : ∀ k j, stage j = .granted k → stage k = .handing j none)
    (hi : stage i = .running) (hnext : stage next = .queued) :
  ∀ k j, Function.update (Function.update stage next (.granted i)) i (.handing next none) j =
      .granted k →
    Function.update (Function.update stage next (.granted i)) i (.handing next none) k =
      .handing j none
  := by
  intro k j hj
  by_cases hji : j = i
  · simp [hji] at hj
  · rw [Function.update_of_ne hji] at hj
    by_cases hjn : j = next
    · rw [hjn, Function.update_self, Stage.granted.injEq] at hj
      rw [← hj, hjn, Function.update_self]
    · rw [Function.update_of_ne hjn] at hj
      have hk := h k j hj
      have hki : k ≠ i := by
        rintro rfl
        rw [hi] at hk
        contradiction
      have hkn : k ≠ next := by
        rintro rfl
        rw [hnext] at hk
        contradiction
      rw [Function.update_of_ne hki, Function.update_of_ne hkn, hk]

/-- `unlock` resumes the waiter it has taken. -/
theorem handed_wake {next : ι} (h : ∀ k j, stage j = .granted k → stage k = .handing j none)
    (hi : stage i = .handing next none) (hnext : stage next = .granted i) :
  ∀ k j, Function.update (Function.update stage next (.scheduled false)) i .running j =
      .granted k →
    Function.update (Function.update stage next (.scheduled false)) i .running k = .handing j none
  := by
  intro k j hj
  by_cases hji : j = i
  · simp [hji] at hj
  · rw [Function.update_of_ne hji] at hj
    by_cases hjn : j = next
    · simp [hjn] at hj
    · rw [Function.update_of_ne hjn] at hj
      have hk := h k j hj
      have hki : k ≠ i := by
        rintro rfl
        rw [hi, Stage.handing.injEq] at hk
        apply hjn hk.1.symm
      have hkn : k ≠ next := by
        rintro rfl
        rw [hnext] at hk
        contradiction
      rw [Function.update_of_ne hki, Function.update_of_ne hkn, hk]

/-- A coroutine changes its stage, and may be granted the mutex or resumed. -/
theorem resumed_update {resumes resumes' grants grants' : ι → ℕ}
    (h : ∀ j, resumes j + (stage j).unresumed = grants j)
    (hi : resumes' i + x.unresumed = grants' i) (hresumes : ∀ j, j ≠ i → resumes' j = resumes j)
    (hgrants : ∀ j, j ≠ i → grants' j = grants j) :
  ∀ j, resumes' j + (Function.update stage i x j).unresumed = grants' j
  := by
  intro j
  by_cases hj : j = i
  · rw [hj, Function.update_self, hi]
  · rw [Function.update_of_ne hj, hresumes j hj, hgrants j hj, h j]

/-- A coroutine changes its stage, without being granted the mutex or resumed. -/
theorem resumed_same {resumes grants : ι → ℕ}
    (h : ∀ j, resumes j + (stage j).unresumed = grants j)
    (hx : x.unresumed = (stage i).unresumed) :
  ∀ j, resumes j + (Function.update stage i x j).unresumed = grants j
  := by
  apply resumed_update h
  · rw [hx, h i]
  · intro j _
    rfl
  · intro j _
    rfl

/-! ### The steps -/

variable {s t : Line ι}

omit [DecidableEq ι] in
/-- A free mutex has nobody waiting for it. -/
theorem Orderly.waiters_eq_nil (hs : Orderly s) (hfree : s.locked = false) :
  s.waiters = []
  := by
  by_contra hne
  rw [hs.waiting hne] at hfree
  contradiction

omit [DecidableEq ι] in
theorem Orderly.not_mem_waiters (hs : Orderly s) (hi : s.stage i = .running) :
  i ∉ s.waiters
  := by
  intro hmem
  rw [hs.guarded.linked.queued i hmem] at hi
  contradiction

omit [DecidableEq ι] in
theorem Orderly.not_mem_destroyed (hs : Orderly s) (hi : s.stage i = .running) :
  i ∉ s.destroyed
  := by
  intro hmem
  rw [(hs.queued i).mpr (.inr hmem)] at hi
  contradiction

omit [DecidableEq ι] in
/-- A waiter has not been destroyed, as its ticket is there once. -/
theorem Orderly.not_destroyed (hs : Orderly s) (hi : i ∈ s.waiters) :
  i ∉ s.destroyed
  := by
  have hnodup := hs.tickets.nodup_iff.mpr List.nodup_range
  intro hmem
  apply List.disjoint_of_nodup_append hnodup
  · apply List.mem_append_right
    apply List.mem_map_of_mem hi
  · apply List.mem_map_of_mem hmem

/-- `lock`, which takes a free mutex or enqueues. -/
theorem Orderly.lock (hs : Orderly s) (h : s.step (.step (.lock i)) = some t) :
  Orderly t
  := by
  obtain ⟨u, hu, rfl⟩ := Option.map_eq_some_iff.mp h
  have hguarded := hs.guarded.step (a := .lock i) trivial hu
  have hnext := pairwise_next hs.order
  simp only [Sync.step] at hu
  split at hu
  · rename_i hrunning
    have hticket : s.waiters.map (Function.update s.ticket i s.arrived) =
        s.waiters.map s.ticket := map_update_ticket (hs.not_mem_waiters hrunning)
    have hticket' : s.destroyed.map (Function.update s.ticket i s.arrived) =
        s.destroyed.map s.ticket := map_update_ticket (hs.not_mem_destroyed hrunning)
    have hqueued : s.stage i ≠ .queued := by
      simp [hrunning]
    have hnot : ∀ j, s.stage i ≠ .handing j none := by
      simp [hrunning]
    split at hu
    · rename_i hlocked
      obtain rfl := Option.some.inj hu
      simp only [Line.record, hlocked, if_true]
      constructor
      · apply hguarded
      · apply plain_update hs.plain rfl
      · intro _
        apply hlocked
      · simpa [Line.arrive, State.enqueue, hticket] using hnext
      · simpa [Line.arrive, State.enqueue, hticket, hticket'] using perm_next hs.tickets
      · intro j
        by_cases hj : j = i
        · simp [hj, State.enqueue]
        · simpa [hj, State.enqueue, Line.arrive] using hs.queued j
      · apply handed_update hs.handed hnot
        intro j hj
        contradiction
      · apply resumed_same hs.resumed
        rw [hrunning]
        rfl
    · rename_i hfree
      have hnone := hs.waiters_eq_nil (Bool.eq_false_iff.mpr hfree)
      obtain rfl := Option.some.inj hu
      simp only [Line.record, hfree]
      constructor
      · apply hguarded
      · apply plain_update hs.plain rfl
      · intro _
        rfl
      · simpa [Line.grant, Line.enter, Line.arrive, State.goTo, State.acquire, hnone] using hnext
      · have htickets := perm_next hs.tickets
        simpa [Line.grant, Line.enter, Line.arrive, State.goTo, State.acquire, hnone, hticket']
          using htickets
      · apply parked_update hs.queued hqueued
        intro hx
        contradiction
      · apply handed_update hs.handed hnot
        intro j hj
        contradiction
      · have hi := hs.resumed i
        rw [hrunning] at hi
        apply resumed_update hs.resumed
        · simpa [Line.grant, Line.enter, Line.arrive, Stage.unresumed] using hi
        · intro j _
          rfl
        · intro j hj
          apply Function.update_of_ne hj
  · contradiction

/-- `try_lock`, which takes a free mutex. -/
theorem Orderly.tryLock (hs : Orderly s) (h : s.step (.step (.try_lock i)) = some t) :
  Orderly t
  := by
  obtain ⟨u, hu, rfl⟩ := Option.map_eq_some_iff.mp h
  have hguarded := hs.guarded.step (a := .try_lock i) trivial hu
  have hnext := pairwise_next hs.order
  simp only [Sync.step] at hu
  split at hu
  · rename_i hrunning
    split at hu
    · rename_i hlocked
      obtain rfl := Option.some.inj hu
      simpa only [Line.record, hlocked, if_true] using hs
    · rename_i hfree
      have hnone := hs.waiters_eq_nil (Bool.eq_false_iff.mpr hfree)
      obtain rfl := Option.some.inj hu
      simp only [Line.record, hfree]
      constructor
      · apply hguarded
      · apply hs.plain
      · intro _
        rfl
      · simpa [Line.enter, Line.arrive, State.acquire, hnone] using hnext
      · have hticket : s.destroyed.map (Function.update s.ticket i s.arrived) =
            s.destroyed.map s.ticket := map_update_ticket (hs.not_mem_destroyed hrunning)
        have htickets := perm_next hs.tickets
        simpa [Line.enter, Line.arrive, State.acquire, hnone, hticket] using htickets
      · apply hs.queued
      · apply hs.handed
      · apply hs.resumed
  · contradiction

/-- `unlock`, which hands the mutex over to the first waiter, or frees it. -/
theorem Orderly.unlock (hs : Orderly s) (h : s.step (.step (.unlock i)) = some t) :
  Orderly t
  := by
  obtain ⟨u, hu, rfl⟩ := Option.map_eq_some_iff.mp h
  have hguarded := hs.guarded.step (a := .unlock i) trivial hu
  simp only [Sync.step, Sync.unlock] at hu
  split at hu
  · rename_i howner
    obtain ⟨hrunning, howns⟩ := howner
    have hnot : ∀ j, s.stage i ≠ .handing j none := by
      simp [hrunning]
    cases hwaiters : s.waiters with
    | nil =>
        simp only [hwaiters, Option.some.injEq] at hu
        subst hu
        simp only [Line.record, hwaiters]
        constructor
        · apply hguarded
        · apply plain_update hs.plain rfl
        · intro hne
          apply absurd hwaiters hne
        · apply hs.order
        · apply hs.tickets
        · apply parked_update hs.queued (by simp [hrunning])
          intro hx
          contradiction
        · apply handed_update hs.handed hnot
          intro j hj
          contradiction
        · apply resumed_same hs.resumed
          rw [hrunning]
          rfl
    | cons next waiters =>
        have hqueued : s.stage next = .queued := by
          apply hs.guarded.linked.queued
          rw [hwaiters]
          apply List.mem_cons_self
        have hne : i ≠ next := by
          rintro rfl
          rw [hrunning] at hqueued
          contradiction
        simp only [hwaiters, Option.some.injEq] at hu
        subst hu
        simp only [Line.record, hwaiters]
        constructor
        · apply hguarded
        · apply plain_update _ rfl
          apply plain_update hs.plain rfl
        · intro _
          apply hs.guarded.exclusive.2.mpr ⟨i, howns⟩
        · have horder := hs.order
          rw [hwaiters] at horder
          simpa [Line.grant, Line.enter, State.handOver] using horder
        · have htickets := hs.tickets
          rw [hwaiters] at htickets
          simpa [Line.grant, Line.enter, State.handOver] using htickets
        · apply parked_update _ (by rw [Function.update_of_ne hne]; simp [hrunning]) (by simp)
          intro j
          by_cases hj : j = next
          · have hdestroyed : next ∉ s.destroyed := by
              apply hs.not_destroyed
              simp [hwaiters]
            have honce := hs.guarded.linked.queued_once
            rw [hwaiters, List.nodup_cons] at honce
            simp [hj, hdestroyed, State.handOver, honce.1, Line.grant, Line.enter]
          · have hold := hs.queued j
            rw [hwaiters] at hold
            simpa [hj, State.handOver, Line.grant, Line.enter] using hold
        · apply handed_handOver hs.handed hrunning hqueued
        · have hnext := hs.resumed next
          rw [hqueued] at hnext
          apply resumed_same
          · apply resumed_update hs.resumed
            · simpa [Line.grant, Line.enter, Stage.unresumed] using hnext
            · intro j _
              rfl
            · intro j hj
              apply Function.update_of_ne hj
          · rw [Function.update_of_ne hne, hrunning]
            rfl
  · contradiction

/-- A coroutine resumes itself or the one it has handed the mutex to, or goes on after its
resumption. -/
theorem Orderly.proceed (hs : Orderly s) (h : s.step (.step (.proceed i)) = some t) :
  Orderly t
  := by
  obtain ⟨u, hu, rfl⟩ := Option.map_eq_some_iff.mp h
  have hplain := hs.plain i
  have hguarded : Guarded u := by
    apply hs.guarded.step (a := .proceed i) _ hu
    intro w ws hstage
    rw [hstage] at hplain
    contradiction
  simp only [Sync.step, Sync.proceed] at hu
  cases hstage : s.stage i with
  | running | queued | granted j => simp [hstage] at hu
  | releasing k | waiting k => exact k.elim
  | calling kind k => exact k.elim
  | taken j | notified j | notifying ws | waking w ws =>
      rw [hstage] at hplain
      contradiction
  | acquired =>
      simp only [hstage, Option.some.injEq] at hu
      subst hu
      simp only [Line.record, hstage]
      constructor
      · apply hguarded
      · apply plain_update hs.plain rfl
      · apply hs.waiting
      · apply hs.order
      · apply hs.tickets
      · apply parked_update hs.queued (by simp [hstage])
        intro hx
        contradiction
      · apply handed_update hs.handed
        · simp [hstage]
        · intro j hj
          contradiction
      · have hi := hs.resumed i
        rw [hstage] at hi
        apply resumed_update hs.resumed
        · simpa [Line.resume, Stage.unresumed] using hi
        · intro j hj
          apply Function.update_of_ne hj
        · intro j _
          rfl
  | handing next wait =>
      cases wait with
      | some k => exact k.elim
      | none =>
          have hgranted := hs.guarded.linked.granted hstage
          have hne : i ≠ next := by
            rintro rfl
            rw [hstage] at hgranted
            contradiction
          simp only [hstage, Option.some.injEq] at hu
          subst hu
          simp only [Line.record, hstage]
          constructor
          · apply hguarded
          · apply plain_update _ rfl
            apply plain_update hs.plain rfl
          · apply hs.waiting
          · apply hs.order
          · apply hs.tickets
          · apply parked_update _ (by rw [Function.update_of_ne hne]; simp [hstage])
              (by simp [afterUnlock])
            apply parked_update hs.queued (by simp [hgranted]) (by simp)
          · apply handed_wake hs.handed hstage hgranted
          · have hnext := hs.resumed next
            rw [hgranted] at hnext
            apply resumed_same
            · apply resumed_update hs.resumed
              · simpa [Line.resume, Stage.unresumed] using hnext
              · intro j hj
                apply Function.update_of_ne hj
              · intro j _
                rfl
            · rw [Function.update_of_ne hne, hstage]
              rfl
  | scheduled waited =>
      cases waited with
      | true =>
          rw [hstage] at hplain
          contradiction
      | false =>
          simp only [hstage, true_or, if_true, Option.some.injEq] at hu
          subst hu
          simp only [Line.record, hstage]
          constructor
          · apply hguarded
          · apply plain_update hs.plain rfl
          · apply hs.waiting
          · apply hs.order
          · apply hs.tickets
          · apply parked_update hs.queued (by simp [hstage])
            intro hx
            contradiction
          · apply handed_update hs.handed
            · simp [hstage]
            · intro j hj
              contradiction
          · apply resumed_same hs.resumed
            rw [hstage]
            rfl

/-- A parked awaiter is destroyed. -/
theorem Orderly.destroy (hs : Orderly s) (h : s.step (.destroy i) = some t) :
  Orderly t
  := by
  simp only [Line.step, Option.ite_none_right_eq_some, Option.some.injEq] at h
  obtain ⟨hmem, rfl⟩ := h
  have hsublist : (s.waiters.filter (· ≠ i)).Sublist s.waiters := List.filter_sublist
  have hlinked := hs.guarded.linked
  constructor
  · constructor
    · constructor
      · intro j hj
        apply hlinked.queued j (List.mem_of_mem_filter hj)
      · apply hlinked.waiting
      · apply hlinked.queued_once.sublist hsublist
      · apply hlinked.waiting_once
      · apply hlinked.has
      · apply hlinked.pending_once
    · apply hs.guarded.exclusive
    · apply hs.guarded.without
  · apply hs.plain
  · intro _
    apply hs.waiting
    intro hnil
    simp [hnil] at hmem
  · apply List.Pairwise.sublist _ hs.order
    simp only [List.append_sublist_append_left, List.append_sublist_append_right]
    apply hsublist.map
  · have hperm := (perm_destroy s.destroyed s.ticket hlinked.queued_once hmem).append_left s.entered
    rw [← List.append_assoc, ← List.append_assoc] at hperm
    apply hperm.trans hs.tickets
  · intro j
    by_cases hj : j = i
    · simp [hj, hlinked.queued i hmem]
    · simpa [hj] using hs.queued j
  · apply hs.handed
  · apply hs.resumed

/-- Every step preserves `Orderly`. -/
theorem Orderly.step {e : Event ι} (hs : Orderly s) (h : s.step e = some t) :
  Orderly t
  := by
  cases e with
  | destroy i => apply hs.destroy h
  | step a =>
      cases a with
      | lock i => apply hs.lock h
      | try_lock i => apply hs.tryLock h
      | unlock i => apply hs.unlock h
      | wait i k => exact k.elim
      | notify i kind k => exact k.elim
      | proceed i => apply hs.proceed h

/-- Whoever has been granted the mutex can be resumed. -/
theorem Orderly.resumable (hs : Orderly s) (hi : (s.stage i).unresumed = 1) :
  ∃ j t, s.step (.step (.proceed j)) = some t ∧ t.resumes i = s.resumes i + 1
  := by
  cases hstage : s.stage i with
  | acquired =>
      use i
      simp [Line.step, Sync.step, Sync.proceed, hstage, Line.record, Line.resume]
  | granted j =>
      have hj := hs.handed j i hstage
      use j
      simp [Line.step, Sync.step, Sync.proceed, hj, Line.record, Line.resume]
  | running | queued | handing _ _ | releasing _ | waiting _ | taken _ | notified _ | calling _ _
  | notifying _ | waking _ _ | scheduled _ => simp [hstage, Stage.unresumed] at hi

/-- What a mutex promises. -/
structure InTurn (s : Line ι) : Prop where
  /-- At most one coroutine owns the mutex, and `_locked` says whether one does. -/
  exclusive : Exclusive s.locked s.owns
  waiting : s.waiters ≠ [] → s.locked = true
  /-- The tickets that have entered, then those of the waiters, then the next one: whoever waits
  enters before all that come later. -/
  order : (s.entered ++ s.waiters.map s.ticket ++ [s.arrived]).Pairwise (· < ·)
  /-- Every ticket has entered, is waiting, or is that of a destroyed awaiter. -/
  tickets : (s.entered ++ s.waiters.map s.ticket ++ s.destroyed.map s.ticket).Perm
    (List.range s.arrived)
  /-- The parked coroutines are those in the list, and those whose awaiters were destroyed. -/
  queued : ∀ i, s.stage i = .queued ↔ i ∈ s.waiters ∨ i ∈ s.destroyed
  /-- A coroutine is resumed as often as it is granted the mutex, except that a resumption may be
  outstanding, which is then the next step of some coroutine. -/
  resumed : ∀ i, s.resumes i + (s.stage i).unresumed = s.grants i
  resumable : ∀ i, (s.stage i).unresumed = 1 →
    ∃ j t, s.step (.step (.proceed j)) = some t ∧ t.resumes i = s.resumes i + 1

/-- In every run of `lock`, `try_lock` and `unlock`, in which parked awaiters may be destroyed, the
mutex is owned exclusively and taken in turn. -/
theorem inTurn_of_run {es : List (Event ι)} (h : Run Line.step Free (Line.initial ι) es s) :
  InTurn s
  := by
  have hs : Orderly s := by
    apply h.invariant Orderly _ Orderly.initial
    intro s e t hs _ he
    apply hs.step he
  constructor
  · apply hs.guarded.exclusive
  · apply hs.waiting
  · apply hs.order
  · apply hs.tickets
  · apply hs.queued
  · apply hs.resumed
  · intro i
    apply hs.resumable

/-- Three coroutines wait behind the first.  The awaiter in the middle is destroyed, and the mutex
goes to the other two in their order. -/
theorem inTurn_four :
  ∃ es s, Run Line.step Free (Line.initial (Fin 4)) es s ∧ s.entered = [0, 1, 3] ∧
    s.grants 1 = 1 ∧ s.resumes 1 = 1 ∧ InTurn s
  := by
  obtain ⟨s, hrun, hentered, hgrants, hresumes⟩ : ∃ s, Run Line.step Free (Line.initial (Fin 4))
      [.step (.try_lock 0), .step (.lock 1), .step (.lock 2), .step (.lock 3), .destroy 2,
        .step (.unlock 0), .step (.proceed 0), .step (.try_lock 0), .step (.proceed 1),
        .step (.unlock 1), .step (.proceed 1)] s ∧
      s.entered = [0, 1, 3] ∧ s.grants 1 = 1 ∧ s.resumes 1 = 1 := by
    apply exists_run_of_exec
    decide
  exact ⟨_, s, hrun, hentered, hgrants, hresumes, inTurn_of_run hrun⟩

end Koroutine.Sync
