import Koroutine.Channel.Bounds
import Koroutine.Transition.Fifo

/-!
# The order of an open channel

While a channel is not closed and no awaiter is destroyed it is two queues: one of values, which
every write enters and every hand-off leaves, and one of parked readers.  The first is made up of
the buffer, followed by the values of the parked writers.
-/

open Transition

namespace Koroutine.Channel

variable {V : Type*} {capacity : ℕ}

/-- The channel is not closed and no awaiter is destroyed. -/
def Undisturbed (_ : State V) : Label V → Prop
  | .try_push_reader _ | .try_push_writer _ | .resume _ | .await_resume _ => True
  | .close | .clean_up | .remove_reader _ | .remove_writer _ => False

/-- What such a step does to an open channel. -/
inductive Effect (capacity : ℕ) (s : State V) : Label V → State V → Prop
  | refill {r : Reader} {v : V} {buffer : List V} {w : Writer V} {writers : List (Writer V)}
      (hnew : s.suspended (.reader r) = false) (hb : s.buffer = v :: buffer)
      (hw : s.writer_list = w :: writers) :
      Effect capacity s (.try_push_reader r) (s.refill r v buffer w writers)
  | take {r : Reader} {v : V} {buffer : List V} (hnew : s.suspended (.reader r) = false)
      (hb : s.buffer = v :: buffer) (hw : s.writer_list = []) :
      Effect capacity s (.try_push_reader r) (s.take r v buffer)
  | takeFrom {r : Reader} {w : Writer V} {writers : List (Writer V)}
      (hnew : s.suspended (.reader r) = false) (hb : s.buffer = [])
      (hw : s.writer_list = w :: writers) :
      Effect capacity s (.try_push_reader r) (s.takeFrom r w writers)
  | parkReader {r : Reader} (hnew : s.suspended (.reader r) = false) (hb : s.buffer = [])
      (hw : s.writer_list = []) :
      Effect capacity s (.try_push_reader r) (s.parkReader r)
  | handTo {w : Writer V} {r : Reader} {readers : List Reader}
      (hnew : s.suspended (.writer w.id) = false) (hr : s.reader_list = r :: readers) :
      Effect capacity s (.try_push_writer w) (s.handTo w r readers)
  | put {w : Writer V} (hnew : s.suspended (.writer w.id) = false) (hr : s.reader_list = [])
      (hroom : s.buffer.length < capacity) :
      Effect capacity s (.try_push_writer w) (s.put w)
  | parkWriter {w : Writer V} (hnew : s.suspended (.writer w.id) = false)
      (hr : s.reader_list = []) (hfull : ¬ s.buffer.length < capacity) :
      Effect capacity s (.try_push_writer w) (s.parkWriter w)
  | resume {k : ℕ} {c : Call V} {calls : List (Call V)} (hk : s.threads[k]? = some (c :: calls)) :
      Effect capacity s (.resume k) ({ s with threads := s.threads.set k calls }.call c)
  | awaitResume {b : Awaiter} (hresumed : 0 < s.resumes b) (hnone : s.outcome b = none) :
      Effect capacity s (.await_resume b)
        { s with outcome := Function.update s.outcome b (some (s.awaitResume b)) }

theorem effect_step {s t : State V} {a : Label V} (hactive : s.is_active = true)
    (ha : Undisturbed s a) (h : step capacity s a = some t) :
  Effect capacity s a t
  := by
  cases a with
  | close | clean_up | remove_reader r | remove_writer w => contradiction
  | try_push_reader r =>
      simp only [step, tryPushReader, hactive, Bool.true_eq_false, if_false,
        Option.ite_none_left_eq_some, Option.some.injEq] at h
      obtain ⟨hnew, rfl⟩ := h
      rw [Bool.not_eq_true] at hnew
      split
      · rename_i hb hw
        apply Effect.refill hnew hb hw
      · rename_i hb hw
        apply Effect.take hnew hb hw
      · rename_i hb hw
        apply Effect.takeFrom hnew hb hw
      · rename_i hb hw
        apply Effect.parkReader hnew hb hw
  | try_push_writer w =>
      simp only [step, tryPushWriter, hactive, Bool.true_eq_false, if_false,
        Option.ite_none_left_eq_some, Option.some.injEq] at h
      obtain ⟨hnew, rfl⟩ := h
      rw [Bool.not_eq_true] at hnew
      split
      · rename_i hr
        apply Effect.handTo hnew hr
      · rename_i hr
        split
        · rename_i hroom
          apply Effect.put hnew hr hroom
        · rename_i hfull
          apply Effect.parkWriter hnew hr hfull
  | resume k =>
      simp only [step] at h
      split at h
      · rename_i c calls hk
        obtain rfl := Option.some.inj h
        apply Effect.resume hk
      · contradiction
  | await_resume b =>
      simp only [step, Option.ite_none_right_eq_some, Option.some.injEq] at h
      obtain ⟨⟨hresumed, hnone⟩, rfl⟩ := h
      apply Effect.awaitResume hresumed hnone

/-- The values, as a queue: pushed by writes, popped by hand-offs. -/
def values (s : State V) : Fifo V where
  pushed := s.written.map Writer.value
  popped := s.handed.map Prod.snd
  queue := s.buffer ++ s.writer_list.map Writer.value

/-- The parked readers, as a queue. -/
def readers (s : State V) : Fifo Reader where
  pushed := s.parked
  popped := s.served
  queue := s.reader_list

/-- The awaiters that `resume` is still to be called on, by some thread. -/
def State.due (s : State V) : List Awaiter := s.threads.flatten.map Call.awaiter

/-- The parked awaiters. -/
def State.waiting (s : State V) : List Awaiter :=
  s.reader_list.map .reader ++ s.writer_list.map fun w => .writer w.id

/-- How often the awaiter is parked, due to be resumed, or has been resumed. -/
def State.claims (s : State V) (a : Awaiter) : ℕ :=
  s.resumes a + s.due.count a + s.waiting.count a

/-- Nobody waits for what is there: a parked reader finds nothing to read, a parked writer no room.
The parked writers are the last to have written.  An awaiter that has suspended is parked, due to
be resumed, or has been resumed, once. -/
structure Orderly (capacity : ℕ) (s : State V) : Prop where
  active : s.is_active = true
  readers_wait : s.reader_list ≠ [] → s.buffer = [] ∧ s.writer_list = []
  writers_wait : s.writer_list ≠ [] → s.buffer.length = capacity
  room : s.buffer.length ≤ capacity
  last : s.writer_list <:+ s.written
  once : ∀ a, s.claims a = (s.suspended a).toNat

theorem Orderly.initial :
  Orderly capacity (initial V)
  := by
  constructor <;> simp [Channel.initial, State.claims, State.due, State.waiting]

/-! ### What the steps do to the claims -/

/-- The calls due are one fewer after a call of thread `k`. -/
theorem count_due_set {c : Call V} {calls : List (Call V)} (a : Awaiter) :
  ∀ {threads : List (List (Call V))} {k : ℕ}, threads[k]? = some (c :: calls) →
    ((threads.set k calls).flatten.map Call.awaiter).count a + [c.awaiter].count a =
      (threads.flatten.map Call.awaiter).count a
  | [], k, h => by simp at h
  | t :: threads, 0, h => by
      obtain rfl : t = c :: calls := by simpa using h
      simp only [List.set_cons_zero, List.flatten_cons, List.map_append, List.map_cons,
        List.count_append, List.count_cons, List.count_nil]
      omega
  | t :: threads, k + 1, h => by
      have htail : threads[k]? = some (c :: calls) := by simpa using h
      have ih := count_due_set a htail
      simp only [List.set_cons_succ, List.flatten_cons, List.map_append, List.count_append]
      omega

/-- A call resumes its awaiter, which is one claim less in the threads and one resumption more. -/
theorem claims_call {s : State V} {k : ℕ} {c : Call V} {calls : List (Call V)}
    (h : s.threads[k]? = some (c :: calls)) (a : Awaiter) :
  ({ s with threads := s.threads.set k calls }.call c).claims a = s.claims a
  := by
  have hdue := count_due_set a h
  have hresumes : ({ s with threads := s.threads.set k calls }.call c).resumes a =
      s.resumes a + [c.awaiter].count a := by
    by_cases ha : a = c.awaiter
    · subst ha
      cases c <;> simp [State.call, Call.awaiter]
    · have hne : c.awaiter ≠ a := fun heq => ha heq.symm
      cases c <;> simp_all [State.call, Call.awaiter]
  have hsame : ({ s with threads := s.threads.set k calls }.call c).due =
      (s.threads.set k calls).flatten.map Call.awaiter ∧
      ({ s with threads := s.threads.set k calls }.call c).waiting = s.waiting := by
    cases c <;> exact ⟨rfl, rfl⟩
  unfold State.claims
  rw [hresumes, hsame.1, hsame.2, State.due]
  omega

/-- An awaiter that suspends for the first time has suspended once more. -/
theorem toNat_update {suspended : Awaiter → Bool} {a : Awaiter} (hnew : suspended a = false)
    (b : Awaiter) :
  (Function.update suspended a true b).toNat = (suspended b).toNat + [a].count b
  := by
  by_cases hb : b = a
  · subst hb
    simp [hnew]
  · have hne : a ≠ b := fun heq => hb heq.symm
    simp [Function.update_of_ne hb, hne]

/-! ### The steps of an open channel -/

theorem Orderly.bounded {s : State V} (hs : Orderly capacity s) :
  Bounded capacity s
  := ⟨hs.room, hs.readers_wait, hs.writers_wait⟩

/-- An awaiter that suspends claims once: it is parked, or due to be resumed.  A parked one that it
serves is due to be resumed instead. -/
theorem Effect.claims {s t : State V} {a : Label V} (h : Effect capacity s a t) (b : Awaiter) :
  t.claims b = s.claims b + a.suspends.toList.count b
  := by
  cases h with
  | refill _ _ hw =>
      simp only [State.claims, State.due, State.waiting, State.refill, Label.suspends,
        Option.toList, Call.awaiter, hw, List.flatten_append, List.flatten_singleton,
        List.map_append, List.map_cons, List.map_nil, List.count_append, List.count_cons,
        List.count_nil]
      omega
  | take =>
      simp only [State.claims, State.due, State.waiting, State.take, Label.suspends,
        Option.toList, Call.awaiter, List.flatten_append, List.flatten_singleton,
        List.map_append, List.map_cons, List.map_nil, List.count_append, List.count_cons,
        List.count_nil]
      omega
  | takeFrom _ _ hw =>
      simp only [State.claims, State.due, State.waiting, State.takeFrom, Label.suspends,
        Option.toList, Call.awaiter, hw, List.flatten_append, List.flatten_singleton,
        List.map_append, List.map_cons, List.map_nil, List.count_append, List.count_cons,
        List.count_nil]
      omega
  | parkReader =>
      simp only [State.claims, State.due, State.waiting, State.parkReader, Label.suspends,
        Option.toList, List.map_append, List.map_cons, List.map_nil, List.count_append,
        List.count_cons, List.count_nil]
      omega
  | handTo _ hr =>
      simp only [State.claims, State.due, State.waiting, State.handTo, Label.suspends,
        Option.toList, Call.awaiter, hr, List.flatten_append, List.flatten_singleton,
        List.map_append, List.map_cons, List.map_nil, List.count_append, List.count_cons,
        List.count_nil]
      omega
  | put =>
      simp only [State.claims, State.due, State.waiting, State.put, Label.suspends,
        Option.toList, Call.awaiter, List.flatten_append, List.flatten_singleton,
        List.map_append, List.map_cons, List.map_nil, List.count_append, List.count_cons,
        List.count_nil]
      omega
  | parkWriter =>
      simp only [State.claims, State.due, State.waiting, State.parkWriter, Label.suspends,
        Option.toList, List.map_append, List.map_cons, List.map_nil, List.count_append,
        List.count_cons, List.count_nil]
      omega
  | resume hk =>
      rw [claims_call hk]
      rfl
  | awaitResume => rfl

/-- An awaiter suspends at most once. -/
theorem Effect.suspended {s t : State V} {a : Label V} (h : Effect capacity s a t) (b : Awaiter) :
  (t.suspended b).toNat = (s.suspended b).toNat + a.suspends.toList.count b
  := by
  cases h with
  | refill hnew | take hnew | takeFrom hnew | parkReader hnew | handTo hnew | put hnew
  | parkWriter hnew => apply toNat_update hnew
  | @resume k c calls hk => cases c <;> rfl
  | awaitResume => rfl

/-- An awaiter that has suspended is parked, due to be resumed, or has been resumed, once. -/
theorem Effect.once {s t : State V} {a : Label V} (h : Effect capacity s a t)
    (honce : ∀ b, s.claims b = (s.suspended b).toNat) (b : Awaiter) :
  t.claims b = (t.suspended b).toNat
  := by
  rw [h.claims, h.suspended, honce]

/-- The parked writers stay the last to have written. -/
theorem Effect.last {s t : State V} {a : Label V} (h : Effect capacity s a t)
    (hs : Orderly capacity s) :
  t.writer_list <:+ t.written
  := by
  have hlast := hs.last
  cases h with
  | refill hnew hb hw | takeFrom hnew hb hw =>
      rw [hw] at hlast
      apply (List.suffix_cons _ _).trans hlast
  | take | parkReader | awaitResume => apply hlast
  | handTo hnew hr => simp [State.handTo, hs.readers_wait (by simp [hr])]
  | put hnew hr hroom =>
      have hnone : s.writer_list = [] := by
        by_contra hne
        have := hs.writers_wait hne
        omega
      simp [State.put, hnone]
  | parkWriter hnew hr hfull =>
      obtain ⟨placed, hplaced⟩ := hlast
      use placed
      rw [State.parkWriter, ← hplaced, List.append_assoc]
  | @resume k c calls hk => cases c <;> apply hlast

theorem Effect.is_active {s t : State V} {a : Label V} (h : Effect capacity s a t) :
  t.is_active = s.is_active
  := by
  cases h with
  | @resume k c calls hk => cases c <;> rfl
  | _ => rfl

/-- Every undisturbed step preserves `Orderly`. -/
theorem Orderly.step {s t : State V} {a : Label V} (hs : Orderly capacity s)
    (ha : Undisturbed s a) (h : step capacity s a = some t) :
  Orderly capacity t
  := by
  have hbounded : Bounded capacity t := hs.bounded.step h
  have heffect : Effect capacity s a t := effect_step hs.active ha h
  constructor
  · rw [heffect.is_active, hs.active]
  · apply hbounded.readers_wait
  · apply hbounded.writers_wait
  · apply hbounded.room
  · apply heffect.last hs
  · apply heffect.once hs.once

/-! ### The two queues -/

/-- A step of an open channel pushes a value, or pops one, or both, or neither. -/
theorem Effect.values {s t : State V} {a : Label V} (h : Effect capacity s a t)
    (hs : Bounded capacity s) :
  ∃ bs, Run Fifo.step Free (values s) bs (values t)
  := by
  cases h with
  | refill hnew hb hw =>
      use [.pop]
      apply run_of_exec
      simp [exec, Fifo.step, Channel.values, State.refill, hb, hw]
  | take hnew hb hw =>
      use [.pop]
      apply run_of_exec
      simp [exec, Fifo.step, Channel.values, State.take, hb, hw]
  | takeFrom hnew hb hw =>
      use [.pop]
      apply run_of_exec
      simp [exec, Fifo.step, Channel.values, State.takeFrom, hb, hw]
  | parkReader | awaitResume =>
      apply Run.stutter
      rfl
  | @handTo w r readers hnew hr =>
      obtain ⟨hb, hw⟩ : s.buffer = [] ∧ s.writer_list = [] := by
        apply hs.readers_wait
        simp [hr]
      use [.push w.value, .pop]
      apply run_of_exec
      simp [exec, Fifo.step, Channel.values, State.handTo, hb, hw]
  | @put w hnew hr hroom =>
      have hw : s.writer_list = [] := by
        by_contra hne
        have := hs.writers_wait hne
        omega
      use [.push w.value]
      apply run_of_exec
      simp [exec, Fifo.step, Channel.values, State.put, hw]
  | @parkWriter w hnew hr hfull =>
      use [.push w.value]
      apply run_of_exec
      simp [exec, Fifo.step, Channel.values, State.parkWriter]
  | @resume k c calls hk =>
      apply Run.stutter
      cases c <;> rfl

/-- Every undisturbed step pushes a value, or pops one, or both, or neither. -/
theorem values_step {s t : State V} {a : Label V} (hs : Orderly capacity s)
    (ha : Undisturbed s a) (h : step capacity s a = some t) :
  ∃ bs, Run Fifo.step Free (values s) bs (values t)
  := (effect_step hs.active ha h).values hs.bounded

/-- Every undisturbed step parks a reader, or serves the first parked one, or neither. -/
theorem readers_step {s t : State V} {a : Label V} (hs : Orderly capacity s)
    (ha : Undisturbed s a) (h : step capacity s a = some t) :
  ∃ bs, Run Fifo.step Free (readers s) bs (readers t)
  := by
  cases effect_step hs.active ha h with
  | refill | take | takeFrom | put | parkWriter | awaitResume =>
      apply Run.stutter
      rfl
  | @parkReader r hnew hb hw =>
      use [.push r]
      apply run_of_exec
      rfl
  | handTo hnew hr =>
      use [.pop]
      apply run_of_exec
      simp [exec, Fifo.step, Channel.readers, State.handTo, hr]
  | @resume k c calls hk =>
      apply Run.stutter
      cases c <;> rfl

/-! ### What readers obtain -/

/-- A reader is called with a value that has been handed to it, and obtains such a value. -/
structure Delivered (s : State V) : Prop where
  due : ∀ calls ∈ s.threads, ∀ r v, Call.reader r v ∈ calls → (r, v) ∈ s.handed
  received : ∀ r, 0 < s.resumes (.reader r) → ∃ v, s.result r = some v ∧ (r, v) ∈ s.handed
  obtained : ∀ r o, s.outcome (.reader r) = some o → ∃ v, o = r.obtain v ∧ (r, v) ∈ s.handed

theorem Delivered.initial :
  Delivered (initial V)
  := by
  constructor <;> simp [Channel.initial]

/-- New calls are made with values just handed over. -/
theorem Delivered.extend {s t : State V} {delivered : List (Reader × V)} {calls : List (Call V)}
    (hs : Delivered s) (hhanded : t.handed = s.handed ++ delivered)
    (hthreads : t.threads = s.threads ++ [calls])
    (hcalls : ∀ r v, Call.reader r v ∈ calls → (r, v) ∈ delivered)
    (hresumes : t.resumes = s.resumes) (hresult : t.result = s.result)
    (houtcome : t.outcome = s.outcome) :
  Delivered t
  := by
  constructor
  · intro cs hcs r v hv
    rw [hhanded, List.mem_append]
    rw [hthreads, List.mem_append, List.mem_singleton] at hcs
    obtain hold | rfl := hcs
    · left
      apply hs.due cs hold r v hv
    · right
      apply hcalls r v hv
  · intro r hr
    rw [hresumes] at hr
    obtain ⟨v, hv, hmem⟩ := hs.received r hr
    use v
    rw [hresult, hhanded, List.mem_append]
    exact ⟨hv, .inl hmem⟩
  · intro r o ho
    rw [houtcome] at ho
    obtain ⟨v, hv, hmem⟩ := hs.obtained r o ho
    use v
    rw [hhanded, List.mem_append]
    exact ⟨hv, .inl hmem⟩

/-- A call gives its reader the value it is made with. -/
theorem Delivered.call {s : State V} {k : ℕ} {c : Call V} {calls : List (Call V)}
    (hs : Delivered s) (hk : s.threads[k]? = some (c :: calls)) :
  Delivered ({ s with threads := s.threads.set k calls }.call c)
  := by
  have hmem := List.mem_of_getElem? hk
  have hdue : ∀ cs ∈ s.threads.set k calls, ∀ r v, Call.reader r v ∈ cs → (r, v) ∈ s.handed := by
    intro cs hcs r v hv
    obtain hold | rfl := List.mem_or_eq_of_mem_set hcs
    · apply hs.due cs hold r v hv
    · apply hs.due _ hmem r v
      simp [hv]
  cases c with
  | writer w =>
      constructor
      · apply hdue
      · intro r hr
        apply hs.received r
        simpa [State.call] using hr
      · apply hs.obtained
  | reader r₀ v₀ =>
      constructor
      · apply hdue
      · intro r hr
        by_cases hr₀ : r = r₀
        · subst hr₀
          use v₀
          constructor
          · simp [State.call]
          · apply hs.due _ hmem
            simp
        · obtain ⟨v, hv, hv'⟩ := hs.received r (by simpa [State.call, hr₀] using hr)
          use v
          simpa [State.call, hr₀, hv] using hv'
      · apply hs.obtained

/-- Every undisturbed step preserves `Delivered`. -/
theorem Delivered.step {s t : State V} {a : Label V} (hs : Delivered s)
    (hactive : s.is_active = true) (ha : Undisturbed s a) (h : step capacity s a = some t) :
  Delivered t
  := by
  cases effect_step hactive ha h with
  | refill | take | takeFrom | handTo =>
      refine hs.extend rfl rfl ?_ rfl rfl rfl
      simp
  | put =>
      refine hs.extend (List.append_nil _).symm rfl ?_ rfl rfl rfl
      simp
  | parkReader | parkWriter => exact ⟨hs.due, hs.received, hs.obtained⟩
  | resume hk => apply hs.call hk
  | @awaitResume b hresumed hnone =>
      constructor
      · apply hs.due
      · apply hs.received
      · intro r o ho
        by_cases hr : Awaiter.reader r = b
        · subst hr
          obtain ⟨v, hv, hmem⟩ := hs.received r hresumed
          use v
          simp only [Function.update_self, State.awaitResume, hactive, Bool.true_eq_false,
            if_false, hv, Option.some.injEq] at ho
          exact ⟨ho.symm, hmem⟩
        · apply hs.obtained r o
          simpa [hr] using ho

/-! ### One value each -/

variable {s t : State V}

/-- A reader is handed one value, a writer writes one, and while the channel is open a writer
completes normally. -/
structure Given (s : State V) : Prop where
  readers : (s.handed.map Prod.fst ++ s.reader_list).Nodup
  readers_suspended : ∀ r ∈ s.handed.map Prod.fst ++ s.reader_list,
    s.suspended (.reader r) = true
  writers : (s.written.map Writer.id).Nodup
  writers_suspended : ∀ w ∈ s.written, s.suspended (.writer w.id) = true
  done : ∀ w o, s.outcome (.writer w) = some o → o = .done

theorem Given.initial :
  Given (initial V)
  := by
  constructor <;> simp [Channel.initial]

/-- A reader that suspends is handed a value or parked. -/
theorem Given.reader {r : Reader} (hs : Given s) (hnew : s.suspended (.reader r) = false)
    (hsuspended : t.suspended = Function.update s.suspended (.reader r) true)
    (hreaders : (t.handed.map Prod.fst ++ t.reader_list).Perm
      (r :: (s.handed.map Prod.fst ++ s.reader_list)))
    (hwritten : t.written = s.written) (houtcome : t.outcome = s.outcome) :
  Given t
  := by
  constructor
  · rw [hreaders.nodup_iff, List.nodup_cons]
    constructor
    · intro hmem
      rw [hs.readers_suspended r hmem] at hnew
      contradiction
    · apply hs.readers
  · intro r' hr'
    rw [hsuspended]
    obtain rfl | hold := List.mem_cons.mp (hreaders.mem_iff.mp hr')
    · simp
    · by_cases heq : Awaiter.reader r' = .reader r
      · simp [heq]
      · rw [Function.update_of_ne heq, hs.readers_suspended r' hold]
  · rw [hwritten]
    apply hs.writers
  · intro w hw
    rw [hwritten] at hw
    rw [hsuspended, Function.update_of_ne (by simp), hs.writers_suspended w hw]
  · rw [houtcome]
    apply hs.done

/-- A writer that suspends hands its value to a parked reader, or leaves the readers as they
are. -/
theorem Given.writer {w : Writer V} (hs : Given s) (hnew : s.suspended (.writer w.id) = false)
    (hsuspended : t.suspended = Function.update s.suspended (.writer w.id) true)
    (hreaders : t.handed.map Prod.fst ++ t.reader_list = s.handed.map Prod.fst ++ s.reader_list)
    (hwritten : t.written = s.written ++ [w]) (houtcome : t.outcome = s.outcome) :
  Given t
  := by
  constructor
  · rw [hreaders]
    apply hs.readers
  · intro r hr
    rw [hreaders] at hr
    rw [hsuspended, Function.update_of_ne (by simp), hs.readers_suspended r hr]
  · rw [hwritten, List.map_append, List.map_singleton]
    apply hs.writers.append (List.nodup_singleton _)
    rw [List.disjoint_singleton]
    intro hmem
    obtain ⟨w', hw', heq⟩ := List.mem_map.mp hmem
    rw [← heq, hs.writers_suspended w' hw'] at hnew
    contradiction
  · intro w' hw'
    rw [hwritten, List.mem_append, List.mem_singleton] at hw'
    rw [hsuspended]
    by_cases heq : w'.id = w.id
    · simp [heq]
    · obtain hold | rfl := hw'
      · rw [Function.update_of_ne (by simp [heq]), hs.writers_suspended w' hold]
      · contradiction
  · rw [houtcome]
    apply hs.done

/-- Every undisturbed step preserves `Given`. -/
theorem Given.step {a : Label V} (hs : Given s) (hactive : s.is_active = true)
    (ha : Undisturbed s a) (h : step capacity s a = some t) :
  Given t
  := by
  cases effect_step hactive ha h with
  | refill hnew | take hnew | takeFrom hnew =>
      apply hs.reader hnew
      case hreaders => simp [State.refill, State.take, State.takeFrom]
      all_goals rfl
  | parkReader hnew =>
      apply hs.reader hnew
      case hreaders =>
        rw [State.parkReader, ← List.append_assoc]
        apply List.perm_append_singleton
      all_goals rfl
  | handTo hnew hr =>
      apply hs.writer hnew
      case hreaders => simp [State.handTo, hr]
      all_goals rfl
  | put hnew | parkWriter hnew => exact hs.writer hnew rfl rfl rfl rfl
  | @resume k c calls hk =>
      cases c <;>
        exact ⟨hs.readers, hs.readers_suspended, hs.writers, hs.writers_suspended, hs.done⟩
  | @awaitResume b hresumed hnone =>
      constructor
      · apply hs.readers
      · apply hs.readers_suspended
      · apply hs.writers
      · apply hs.writers_suspended
      · intro w o ho
        by_cases hw : Awaiter.writer w = b
        · subst hw
          simpa [State.awaitResume, hactive, eq_comm] using ho
        · apply hs.done w o
          simpa [hw] using ho

/-- A reader that has been handed a value is not parked. -/
theorem Given.not_waiting {r : Reader} {v : V} (hs : Given s) (hmem : (r, v) ∈ s.handed) :
  .reader r ∉ s.waiting
  := by
  have hnot : r ∉ s.reader_list := by
    apply (List.disjoint_of_nodup_append hs.readers)
    apply List.mem_map.mpr ⟨(r, v), hmem, rfl⟩
  simpa [State.waiting] using hnot

/-- A reader is handed one value. -/
theorem Given.eq_of_handed {r : Reader} {v v' : V} (hs : Given s) (h : (r, v) ∈ s.handed)
    (h' : (r, v') ∈ s.handed) :
  v = v'
  := by
  have hnodup : (s.handed.map Prod.fst).Nodup := hs.readers.of_append_left
  have heq : (r, v) = (r, v') := List.inj_on_of_nodup_map hnodup h h' rfl
  exact (Prod.mk.inj heq).2

/-- An awaiter that has suspended and is not parked has been resumed, or a thread is about to resume
it. -/
theorem Orderly.resumed_or_due {a : Awaiter} (hs : Orderly capacity s)
    (hsuspended : s.suspended a = true) (hnot : a ∉ s.waiting) :
  0 < s.resumes a ∨ a ∈ s.due
  := by
  have honce := hs.once a
  rw [State.claims, hsuspended, List.count_eq_zero.mpr hnot] at honce
  by_cases hresumes : 0 < s.resumes a
  · left
    apply hresumes
  · right
    apply List.count_pos_iff.mp
    simp only [Bool.toNat_true] at honce
    omega

/-- A value that has been handed over is about to be given to its reader, or has been. -/
theorem Given.received (hs : Given s) (horderly : Orderly capacity s) (hd : Delivered s)
    {r : Reader} {v : V} (hmem : (r, v) ∈ s.handed) :
  Call.reader r v ∈ s.threads.flatten ∨ s.result r = some v
  := by
  have hsuspended : s.suspended (.reader r) = true := by
    apply hs.readers_suspended
    apply List.mem_append_left
    apply List.mem_map.mpr ⟨(r, v), hmem, rfl⟩
  obtain hresumed | hdue := horderly.resumed_or_due hsuspended (hs.not_waiting hmem)
  · right
    obtain ⟨v', hv', hmem'⟩ := hd.received r hresumed
    rw [hv', hs.eq_of_handed hmem' hmem]
  · left
    obtain ⟨c, hc, hawaiter⟩ := List.mem_map.mp hdue
    obtain ⟨calls, hcalls, hmem'⟩ := List.mem_flatten.mp hc
    cases c with
    | writer w => contradiction
    | reader r' v' =>
        obtain rfl : r' = r := by simpa [Call.awaiter] using hawaiter
        rwa [← hs.eq_of_handed (hd.due calls hcalls r' v' hmem') hmem]

/-! ### The order of values and readers -/

/-- How many writes have been resumed. -/
def State.completed (s : State V) : ℕ :=
  (s.written.filter fun w => 0 < s.resumes (.writer w.id)).length

/-- What an open channel promises. -/
structure InOrder (capacity : ℕ) (s : State V) : Prop where
  /-- The values handed over, those in the buffer and those of the parked writers are the values
  written, in the order in which the writes took the lock. -/
  values : s.handed.map Prod.snd ++ s.buffer ++ s.writer_list.map Writer.value =
    s.written.map Writer.value
  /-- Parked readers are served in the order in which they were parked. -/
  readers : s.served ++ s.reader_list = s.parked
  /-- A value that has been handed over is about to be given to its reader, or has been. -/
  received : ∀ r v, (r, v) ∈ s.handed →
    Call.reader r v ∈ s.threads.flatten ∨ s.result r = some v
  /-- What a reader obtains is a value handed to it. -/
  obtained : ∀ r o, s.outcome (.reader r) = some o → ∃ v, o = r.obtain v ∧ (r, v) ∈ s.handed
  /-- Every awaiter is resumed at most once. -/
  once : ∀ a, s.resumes a ≤ 1
  /-- A writer that has been resumed is among the first, whose values are handed over or in the
  buffer. -/
  placed : ∀ i w, s.written[i]? = some w → 0 < s.resumes (.writer w.id) →
    i < s.handed.length + s.buffer.length
  /-- At most `capacity` more writes are completed than values handed over. -/
  completed : s.completed ≤ s.handed.length + capacity

/-- A writer that is parked has not been resumed. -/
theorem Orderly.not_resumed {s : State V} {w : Writer V} (hs : Orderly capacity s)
    (hw : w ∈ s.writer_list) :
  s.resumes (.writer w.id) = 0
  := by
  have honce := hs.once (.writer w.id)
  have hwaiting : Awaiter.writer w.id ∈ s.waiting := by
    apply List.mem_append_right
    apply List.mem_map.mpr
    use w
  have hpos := List.count_pos_iff.mpr hwaiting
  have hle := (s.suspended (.writer w.id)).toNat_le
  unfold State.claims at honce
  omega

/-- The writes are those that have been placed, in a reader's hand or in the buffer, followed by
those of the parked writers. -/
theorem Orderly.exists_placed {s : State V} (hs : Orderly capacity s) (hv : (values s).Conserved) :
  ∃ placed, placed ++ s.writer_list = s.written ∧
    placed.length = s.handed.length + s.buffer.length
  := by
  obtain ⟨placed, hplaced⟩ := hs.last
  use placed, hplaced
  have hlengths := congrArg List.length hv
  simp only [values, ← hplaced, List.length_append, List.length_map] at hlengths
  omega

/-- In an orderly channel whose two queues are conserved everything is in order. -/
theorem Orderly.inOrder {s : State V} (hs : Orderly capacity s) (hv : (values s).Conserved)
    (hr : (readers s).Conserved) (hd : Delivered s) (hg : Given s) :
  InOrder capacity s
  := by
  obtain ⟨placed, hplaced, hlength⟩ := hs.exists_placed hv
  constructor
  · rw [List.append_assoc]
    apply hv
  · apply hr
  · intro r v hmem
    apply hg.received hs hd hmem
  · apply hd.obtained
  · intro a
    have honce := hs.once a
    have hle := (s.suspended a).toNat_le
    unfold State.claims at honce
    omega
  · intro i w hw hresumed
    by_contra hi
    have hmem : w ∈ s.writer_list := by
      rw [← hplaced, List.getElem?_append_right (by omega)] at hw
      apply List.mem_of_getElem? hw
    have := hs.not_resumed hmem
    omega
  · have hparked : (s.writer_list.filter fun w => 0 < s.resumes (.writer w.id)) = [] := by
      apply List.filter_eq_nil_iff.mpr
      intro w hw
      simp [hs.not_resumed hw]
    have hle := List.length_filter_le (fun w => 0 < s.resumes (.writer w.id)) placed
    have hroom := hs.room
    rw [State.completed, ← hplaced, List.filter_append, hparked, List.append_nil]
    omega

/-- In every run in which the channel is not closed and no awaiter is destroyed, the channel stays
orderly, and no value is lost or duplicated. -/
theorem orderly_of_undisturbed {t : State V} {as : List (Label V)}
    (h : Run (step capacity) (Meets Undisturbed) (initial V) as t) :
  Orderly capacity t ∧ (values t).Conserved
  := by
  have hstep : ∀ (s : State V) (a : Label V) (u : State V), Orderly capacity s →
      Meets Undisturbed s a u → step capacity s a = some u → Orderly capacity u := by
    intro s a u hs ha e
    apply hs.step ha e
  obtain ⟨bs, hvalues⟩ := h.simulate values (Orderly capacity) hstep
    (fun s a u hs ha e => values_step hs ha e) Orderly.initial
  constructor
  · apply h.invariant _ hstep Orderly.initial
  · apply Fifo.conserved_of_run hvalues
    rfl

/-- In such a run every reader is handed one value. -/
theorem given_of_undisturbed {as : List (Label V)}
    (h : Run (step capacity) (Meets Undisturbed) (initial V) as s) :
  Orderly capacity s ∧ Delivered s ∧ Given s
  := by
  apply h.invariant (fun s => Orderly capacity s ∧ Delivered s ∧ Given s)
  · rintro s a t ⟨horderly, hdelivered, hgiven⟩ ha e
    exact ⟨horderly.step ha e, hdelivered.step horderly.active ha e,
      hgiven.step horderly.active ha e⟩
  · exact ⟨Orderly.initial, Delivered.initial, Given.initial⟩

/-- In every run in which the channel is not closed and no awaiter is destroyed, values and readers
are served in order. -/
theorem inOrder_of_undisturbed {t : State V} {as : List (Label V)}
    (h : Run (step capacity) (Meets Undisturbed) (initial V) as t) :
  InOrder capacity t
  := by
  have hstep : ∀ (s : State V) (a : Label V) (u : State V), Orderly capacity s →
      Meets Undisturbed s a u → step capacity s a = some u → Orderly capacity u := by
    intro s a u hs ha e
    apply hs.step ha e
  obtain ⟨horderly, hvalues⟩ := orderly_of_undisturbed h
  obtain ⟨-, hdelivered, hgiven⟩ := given_of_undisturbed h
  obtain ⟨cs, hreaders⟩ := h.simulate readers (Orderly capacity) hstep
    (fun s a u hs ha e => readers_step hs ha e) Orderly.initial
  apply horderly.inOrder hvalues
  · apply Fifo.conserved_of_run hreaders
    rfl
  · apply hdelivered
  · apply hgiven

instance (s : State V) : (a : Label V) → Decidable (Undisturbed s a)
  | .try_push_reader _ | .try_push_writer _ | .resume _ | .await_resume _ => .isTrue trivial
  | .close | .clean_up | .remove_reader _ | .remove_writer _ => .isFalse id

/-- Three values through a channel of capacity one: the second write is parked until the buffer is
read, the third value is handed to a parked reader. -/
theorem inOrder_three :
  ∃ as t, Run (step 1) (Meets Undisturbed) (initial ℕ) as t ∧
    t.handed = [(0, 10), (1, 11), (2, 12)] ∧ InOrder 1 t
  := by
  obtain ⟨t, hrun, hhanded⟩ : ∃ t, Run (step 1) (Meets Undisturbed) (initial ℕ)
      [.try_push_writer ⟨0, 10⟩, .try_push_writer ⟨1, 11⟩, .resume 0, .try_push_reader 0, .resume 1,
        .try_push_reader 1, .try_push_reader 2, .resume 1, .await_resume (.reader 0), .resume 2,
        .try_push_writer ⟨2, 12⟩, .resume 3, .await_resume (.reader 2), .resume 3] t ∧
      t.handed = [(0, 10), (1, 11), (2, 12)] := by
    apply exists_run_of_exec_guarded
    decide
  exact ⟨_, t, hrun, hhanded, inOrder_of_undisturbed hrun⟩

end Koroutine.Channel
