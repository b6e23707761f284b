import Koroutine.Channel.Handover

/-!
# `AsyncStandardStream`

A `write` on the standard output or error puts its bytes as one block into `output_channel_`, and
returns their number.  `run_printer`, a coroutine that the first write starts, reads the blocks and
submits a `WRITE` operation for each.  The operation may write less than it is given, or fail; the
printer does not use the number it returns, and ends when it throws.

The stream is neither closed nor destroyed, and no coroutine is destroyed while it is suspended in a
`write`.
-/

open Transition

namespace Koroutine

namespace StandardStream

/-- A `std::string`. -/
abbrev Block := List UInt8

/-- Where `run_printer` is. -/
inductive Printer
  /-- Not created. -/
  | absent
  /-- About to read from the channel. -/
  | looping
  /-- Suspended in the read. -/
  | reading (r : ℕ)
  /-- It has a block. -/
  | holding (data : Block)
  /-- Suspended in the `WRITE` operation. -/
  | writing (data : Block)
  /-- About to be resumed; the operation wrote so many bytes, or failed. -/
  | written (data : Block) (actual_size : Option ℕ)
  /-- Ended. -/
  | stopped
  deriving DecidableEq

/-- The channel, the printer, how often it has read, and the bytes written to the descriptor. -/
structure State where
  output_channel : Channel.State Block
  printer : Printer
  reads : ℕ
  output : List UInt8

/-- The steps: the channel and the printer are created; a `write` suspends in the channel's, a
thread in the channel calls `resume`, and a `write` goes on; the printer suspends in `read`, goes
on, submits its operation, which is completed, and goes on. -/
inductive Label
  | create
  | write (w : Channel.Writer Block)
  | resume (k : ℕ)
  | await_write (w : ℕ)
  | read
  | await_read
  | submit
  | complete (actual_size : Option ℕ)
  | await_submit
  deriving DecidableEq

/-- `Channel<std::string>(1024)` -/
def capacity : ℕ := 1024

/-- A new stream. -/
def initial : State where
  output_channel := Channel.initial Block
  printer := .absent
  reads := 0
  output := []

/-- A step of the channel. -/
def State.channelStep (s : State) (a : Channel.Label Block) : Option State :=
  (Channel.step capacity s.output_channel a).map fun channel => { s with output_channel := channel }

/-- The printer goes on with what it has read; an exception ends it. -/
def Printer.obtain : Option (Channel.Outcome Block) → Printer
  | some (.value data) => .holding data
  | _ => .stopped

/-- The step function. -/
def step (s : State) : Label → Option State
  -- under `init_mutex_`
  | .create => if s.printer = .absent then some { s with printer := .looping } else none
  | .write w => if s.printer = .absent then none else s.channelStep (.try_push_writer w)
  | .resume k => s.channelStep (.resume k)
  | .await_write w => s.channelStep (.await_resume (.writer w))
  | .read =>
      match s.printer with
      | .looping =>
          (s.channelStep (.try_push_reader s.reads)).map fun t =>
            { t with printer := .reading s.reads, reads := s.reads + 1 }
      | _ => none
  | .await_read =>
      match s.printer with
      | .reading r =>
          (s.channelStep (.await_resume (.reader r))).map fun t =>
            { t with printer := .obtain (t.output_channel.outcome (.reader r)) }
      | _ => none
  | .submit =>
      match s.printer with
      | .holding data => some { s with printer := .writing data }
      | _ => none
  | .complete actual_size =>
      match s.printer with
      | .writing data =>
          if actual_size.getD 0 ≤ data.length then
            some { s with
              printer := .written data actual_size
              output := s.output ++ data.take (actual_size.getD 0) }
          else none
      | _ => none
  | .await_submit =>
      match s.printer with
      | .written _ actual_size =>
          -- `before_resume` throws, or returns a number that is not used
          some { s with printer := if actual_size.isSome then .looping else .stopped }
      | _ => none

/-! ### What is conserved -/

/-- The block that is handed to a reader. -/
def handed (c : Channel.State Block) (r : Channel.Reader) : Block := (c.handed.lookup r).getD []

/-- The bytes of the block the printer is working on that are not written. -/
def State.hand (s : State) : Block :=
  match s.printer with
  | .absent | .looping | .stopped => []
  | .reading r => handed s.output_channel r
  | .holding data | .writing data => data
  | .written data actual_size => data.drop (actual_size.getD 0)

/-- The blocks in the channel. -/
def State.queued (s : State) : List Block :=
  s.output_channel.buffer ++ s.output_channel.writer_list.map Channel.Writer.value

/-- The blocks of the writes that have been accepted, in that order. -/
def State.accepted (s : State) : List Block := s.output_channel.written.map Channel.Writer.value

/-- No byte of an accepted write is lost. -/
structure Conserved (s : State) : Prop where
  bytes : s.output ++ s.hand ++ s.queued.flatten = s.accepted.flatten
  /-- A write that has returned its size was accepted. -/
  returned : ∀ w, s.output_channel.outcome (.writer w) = some .done →
    ∃ w' ∈ s.output_channel.written, w'.id = w

/-- The printer goes on from a `WRITE` operation that wrote the whole block. -/
def WritesAll (s : State) : Label → Prop
  | .await_submit => ∀ data actual_size, s.printer = .written data actual_size →
      data.length ≤ actual_size.getD 0
  | _ => True

variable {s t : State} {a : Label} {c d : Channel.State Block} {r : Channel.Reader} {n : ℕ}
  {v : Block}

/-! ### The channel -/

/-- What holds of a channel that is not disturbed. -/
structure Steady (c : Channel.State Block) : Prop where
  orderly : Channel.Orderly capacity c
  conserved : (Channel.values c).Conserved
  given : Channel.Given c
  delivered : Channel.Delivered c
  /-- A write that has suspended was accepted. -/
  accepted : ∀ i, c.suspended (.writer i) = true → ∃ w ∈ c.written, w.id = i
  returned : ∀ i, c.outcome (.writer i) ≠ none → c.suspended (.writer i) = true

theorem Steady.initial :
  Steady (Channel.initial Block)
  := by
  constructor
  · apply Channel.Orderly.initial
  · rfl
  · apply Channel.Given.initial
  · apply Channel.Delivered.initial
  all_goals simp [Channel.initial]

/-- An awaiter that has been resumed has suspended. -/
theorem Steady.suspended_of_resumed {b : Channel.Awaiter} (hc : Steady c) (h : 0 < c.resumes b) :
  c.suspended b = true
  := by
  have honce := hc.orderly.once b
  unfold Channel.State.claims at honce
  cases hsuspended : c.suspended b with
  | true => rfl
  | false =>
      rw [hsuspended, Bool.toNat_false] at honce
      omega

/-- A write that suspends is accepted. -/
theorem Steady.accepted_write {w : Channel.Writer Block} (hc : Steady c)
    (hsuspended : d.suspended = Function.update c.suspended (.writer w.id) true)
    (hwritten : d.written = c.written ++ [w]) (i : ℕ) (h : d.suspended (.writer i) = true) :
  ∃ w ∈ d.written, w.id = i
  := by
  rw [hwritten]
  by_cases hi : i = w.id
  · use w
    simp [hi]
  · rw [hsuspended, Function.update_of_ne (by simpa using hi)] at h
    obtain ⟨w', hmem, hid⟩ := hc.accepted i h
    use w'
    simp [hmem, hid]

theorem Steady.step {b : Channel.Label Block} (hc : Steady c) (hb : Channel.Undisturbed c b)
    (h : Channel.step capacity c b = some d) :
  Steady d
  := by
  obtain ⟨bs, hvalues⟩ := Channel.values_step hc.orderly hb h
  have heffect := Channel.effect_step hc.orderly.active hb h
  constructor
  · apply hc.orderly.step hb h
  · apply Fifo.conserved_of_run hvalues hc.conserved
  · apply hc.given.step hc.orderly.active hb h
  · apply hc.delivered.step hc.orderly.active hb h
  · cases heffect with
    | refill | take | takeFrom | parkReader =>
        intro i hi
        apply hc.accepted i
        simpa [Channel.State.refill, Channel.State.take, Channel.State.takeFrom,
          Channel.State.parkReader] using hi
    | handTo | put | parkWriter => exact hc.accepted_write rfl rfl
    | @resume k call calls hk => cases call <;> apply hc.accepted
    | awaitResume => apply hc.accepted
  · cases heffect with
    | refill | take | takeFrom | parkReader =>
        intro i hi
        have hbefore := hc.returned i hi
        simpa [Channel.State.refill, Channel.State.take, Channel.State.takeFrom,
          Channel.State.parkReader] using hbefore
    | @handTo w | @put w | @parkWriter w =>
        intro i hi
        have hbefore := hc.returned i hi
        by_cases heq : i = w.id <;> simp_all [Channel.State.handTo, Channel.State.put,
          Channel.State.parkWriter]
    | @resume k call calls hk => cases call <;> apply hc.returned
    | @awaitResume b hresumed hnone =>
        intro i hi
        by_cases heq : Channel.Awaiter.writer i = b
        · rw [← heq] at hresumed
          apply hc.suspended_of_resumed hresumed
        · apply hc.returned i
          simpa [heq] using hi

theorem handed_of_not_mem (h : r ∉ c.handed.map Prod.fst) :
  handed c r = []
  := by
  have hnone : c.handed.lookup r = none := by
    apply List.lookup_eq_none_iff.mpr
    intro p hp
    have hne : p.1 ≠ r := by
      rintro rfl
      apply h (List.mem_map_of_mem hp)
    simpa using hne.symm
  rw [handed, hnone, Option.getD_none]

theorem handed_append (h : r ∉ c.handed.map Prod.fst) (hd : d.handed = c.handed ++ [(r, v)]) :
  handed d r = v
  := by
  have hnone : c.handed.lookup r = none := by
    apply List.lookup_eq_none_iff.mpr
    intro p hp
    have hne : p.1 ≠ r := by
      rintro rfl
      apply h (List.mem_map_of_mem hp)
    simpa using hne.symm
  simp [handed, hd, List.lookup_append, hnone]

/-- A reader is handed one block. -/
theorem Steady.handed_of_mem (hc : Steady c) (h : (r, v) ∈ c.handed) :
  handed c r = v
  := by
  have hkeys : (c.handed.map Prod.fst).Nodup := hc.given.readers.of_append_left
  obtain ⟨before, after, hsplit⟩ := List.append_of_mem h
  have hnew : ∀ p ∈ before, (r != p.1) = true := by
    intro p hp
    apply bne_iff_ne.mpr
    intro heq
    rw [hsplit, List.map_append, List.map_cons] at hkeys
    apply (List.disjoint_of_nodup_append hkeys) (List.mem_map_of_mem hp)
    rw [← heq]
    apply List.mem_cons_self
  have hsome : c.handed.lookup r = some v := List.lookup_eq_some_iff.mpr ⟨before, after, hsplit, hnew⟩
  rw [handed, hsome, Option.getD_some]

/-- A reader that is parked has not been handed a block. -/
theorem Steady.not_mem_of_parked (hc : Steady c) (h : r ∈ c.reader_list) :
  r ∉ c.handed.map Prod.fst
  := by
  intro hmem
  apply (List.disjoint_of_nodup_append hc.given.readers) hmem h

/-- A reader that has been resumed is not parked. -/
theorem Steady.not_parked (hc : Steady c) (h : 0 < c.resumes (.reader r)) :
  r ∉ c.reader_list
  := by
  intro hmem
  have honce := hc.orderly.once (.reader r)
  have hle := (c.suspended (.reader r)).toNat_le
  have hwaiting : Channel.Awaiter.reader r ∈ c.waiting := by
    apply List.mem_append_left
    apply List.mem_map_of_mem hmem
  have hpos := List.count_pos_iff.mpr hwaiting
  unfold Channel.State.claims at honce
  omega

/-! ### The printer -/

/-- What has been handed over is written, or in the printer's hand, and the printer alone reads. -/
structure Printing (s : State) : Prop where
  channel : Steady s.output_channel
  bytes : s.output ++ s.hand = (s.output_channel.handed.map Prod.snd).flatten
  parked : ∀ r ∈ s.output_channel.reader_list, ∃ n : ℕ, r = n ∧ s.printer = .reading n

theorem Printing.initial :
  Printing initial
  := by
  constructor
  · apply Steady.initial
  · rfl
  · simp [StandardStream.initial, Channel.initial]

theorem channelStep_eq_some {b : Channel.Label Block} :
  s.channelStep b = some t ↔ ∃ d, Channel.step capacity s.output_channel b = some d ∧
    { s with output_channel := d } = t
  := by rw [State.channelStep, Option.map_eq_some_iff]

/-- A step of the channel hands nothing over, and parks no reader. -/
theorem Printing.keep (hs : Printing s) (hd : Steady d) (hhanded : d.handed = s.output_channel.handed)
    (hreaders : d.reader_list = s.output_channel.reader_list) :
  Printing { s with output_channel := d }
  := by
  constructor
  · apply hd
  · have hsame : handed d = handed s.output_channel := by
      funext r
      rw [handed, handed, hhanded]
    have hbytes := hs.bytes
    unfold State.hand at hbytes ⊢
    rw [hhanded, hsame]
    apply hbytes
  · rw [hreaders]
    apply hs.parked

theorem Printing.write {w : Channel.Writer Block} (hs : Printing s)
    (h : Channel.step capacity s.output_channel (.try_push_writer w) = some d) :
  Printing { s with output_channel := d }
  := by
  have hundisturbed : Channel.Undisturbed s.output_channel (.try_push_writer w) := trivial
  have hd := hs.channel.step hundisturbed h
  cases Channel.effect_step hs.channel.orderly.active hundisturbed h with
  | @handTo w r readers hnew hr =>
      have hmem : r ∈ s.output_channel.reader_list := by simp [hr]
      obtain ⟨n, rfl, hprinter⟩ := hs.parked r hmem
      have hfresh := hs.channel.not_mem_of_parked hmem
      constructor
      · apply hd
      · have hbytes := hs.bytes
        have hsome := handed_append (d := s.output_channel.handTo w n readers) hfresh rfl
        simp only [State.hand, hprinter, handed_of_not_mem hfresh, List.append_nil] at hbytes
        simp only [State.hand, hprinter, hsome, hbytes]
        simp [Channel.State.handTo]
      · intro r' hr'
        apply hs.parked
        rw [hr]
        apply List.mem_cons_of_mem _ hr'
  | put | parkWriter => exact hs.keep hd rfl rfl

/-- The printer reads. -/
theorem Printing.read (hs : Printing s) (hprinter : s.printer = .looping)
    (h : Channel.step capacity s.output_channel (.try_push_reader s.reads) = some d) :
  Printing { s with output_channel := d, printer := .reading s.reads, reads := s.reads + 1 }
  := by
  have hundisturbed : Channel.Undisturbed s.output_channel (.try_push_reader s.reads) := trivial
  have hd := hs.channel.step hundisturbed h
  have hnone : s.output_channel.reader_list = [] := by
    by_contra hne
    obtain ⟨r, hr⟩ := List.exists_mem_of_ne_nil _ hne
    obtain ⟨n, -, hreading⟩ := hs.parked r hr
    simp [hprinter] at hreading
  have hbytes := hs.bytes
  simp only [State.hand, hprinter, List.append_nil] at hbytes
  have hfresh : s.output_channel.suspended (.reader s.reads) = false →
      (s.reads : Channel.Reader) ∉ s.output_channel.handed.map Prod.fst := by
    intro hnew hmem
    have hsuspended := hs.channel.given.readers_suspended _ (List.mem_append_left _ hmem)
    simp [hnew] at hsuspended
  -- a block is handed over
  have hgiven : ∀ v, s.output_channel.suspended (.reader s.reads) = false →
      d.handed = s.output_channel.handed ++ [(⟨s.reads, false⟩, v)] →
      d.reader_list = s.output_channel.reader_list →
      Printing { s with output_channel := d, printer := .reading s.reads, reads := s.reads + 1 } := by
    intro v hnew hhanded hreaders
    constructor
    · apply hd
    · simp only [State.hand, handed_append (hfresh hnew) hhanded, hbytes, hhanded]
      simp
    · simp [hreaders, hnone]
  cases Channel.effect_step hs.channel.orderly.active hundisturbed h with
  | refill hnew | take hnew | takeFrom hnew => exact hgiven _ hnew rfl rfl
  | parkReader hnew =>
      constructor
      · apply hd
      · have hempty := handed_of_not_mem (c := s.output_channel.parkReader s.reads) (hfresh hnew)
        simp only [State.hand, hempty, List.append_nil, hbytes]
        rfl
      · intro r hr
        use s.reads
        simpa [Channel.State.parkReader, hnone] using hr

/-- The printer goes on with the block it has read. -/
theorem Printing.await_read (hs : Printing s) (hprinter : s.printer = .reading n)
    (h : Channel.step capacity s.output_channel (.await_resume (.reader n)) = some d) :
  Printing { s with output_channel := d, printer := .obtain (d.outcome (.reader n)) }
  := by
  have hundisturbed : Channel.Undisturbed s.output_channel (.await_resume (.reader n)) := trivial
  have hd := hs.channel.step hundisturbed h
  have hbytes := hs.bytes
  cases Channel.effect_step hs.channel.orderly.active hundisturbed h with
  | awaitResume hresumed hnone =>
      obtain ⟨v, hv, hmem⟩ := hd.delivered.obtained n _ (Function.update_self ..)
      constructor
      · apply hd
      · simp only [State.hand, hprinter, hs.channel.handed_of_mem hmem] at hbytes
        simp only [State.hand, Function.update_self, hv, Channel.Reader.obtain, Bool.false_eq_true,
          if_false, Printer.obtain]
        apply hbytes
      · intro r' hr'
        obtain ⟨n', rfl, hreading⟩ := hs.parked r' hr'
        rw [hprinter] at hreading
        obtain rfl := Printer.reading.inj hreading
        have hnot := hs.channel.not_parked hresumed
        contradiction

/-- The printer does something else, and neither was nor is reading. -/
theorem Printing.goTo {printer : Printer} {output : List UInt8} (hs : Printing s)
    (hnot : ∀ r, s.printer ≠ .reading r)
    (hbytes : output ++ { s with printer := printer }.hand = s.output ++ s.hand) :
  Printing { s with printer := printer, output := output }
  := by
  constructor
  · apply hs.channel
  · rw [← hs.bytes, ← hbytes]
    rfl
  · intro r hr
    obtain ⟨n, -, hreading⟩ := hs.parked r hr
    have hnot' := hnot n
    contradiction

/-- Going on from a `WRITE` operation the printer has no block. -/
theorem hand_resumed {looping : Bool} :
  State.hand { s with printer := if looping then .looping else .stopped } = []
  := by cases looping <;> rfl

theorem Printing.step (hs : Printing s) (ha : WritesAll s a) (h : step s a = some t) :
  Printing t
  := by
  cases a with
  | create =>
      simp only [StandardStream.step, Option.ite_none_right_eq_some, Option.some.injEq] at h
      obtain ⟨habsent, rfl⟩ := h
      apply hs.goTo
      · simp [habsent]
      · simp [State.hand, habsent]
  | write w =>
      simp only [StandardStream.step, Option.ite_none_left_eq_some] at h
      obtain ⟨d, hd, rfl⟩ := channelStep_eq_some.mp h.2
      apply hs.write hd
  | resume k =>
      obtain ⟨d, hd, rfl⟩ := channelStep_eq_some.mp h
      have hundisturbed : Channel.Undisturbed s.output_channel (.resume k) := trivial
      have hsteady := hs.channel.step hundisturbed hd
      cases Channel.effect_step hs.channel.orderly.active hundisturbed hd with
      | @resume _ call calls hk => cases call <;> exact hs.keep hsteady rfl rfl
  | await_write w =>
      obtain ⟨d, hd, rfl⟩ := channelStep_eq_some.mp h
      have hundisturbed : Channel.Undisturbed s.output_channel (.await_resume (.writer w)) := trivial
      have hsteady := hs.channel.step hundisturbed hd
      cases Channel.effect_step hs.channel.orderly.active hundisturbed hd with
      | awaitResume => exact hs.keep hsteady rfl rfl
  | read =>
      simp only [StandardStream.step] at h
      split at h
      next hprinter =>
        obtain ⟨u, hu, rfl⟩ := Option.map_eq_some_iff.mp h
        obtain ⟨d, hd, rfl⟩ := channelStep_eq_some.mp hu
        apply hs.read hprinter hd
      · contradiction
  | await_read =>
      simp only [StandardStream.step] at h
      split at h
      next hprinter =>
        obtain ⟨u, hu, rfl⟩ := Option.map_eq_some_iff.mp h
        obtain ⟨d, hd, rfl⟩ := channelStep_eq_some.mp hu
        apply hs.await_read hprinter hd
      · contradiction
  | submit =>
      simp only [StandardStream.step] at h
      split at h
      next hprinter =>
        cases h
        apply hs.goTo
        · simp [hprinter]
        · simp [State.hand, hprinter]
      · contradiction
  | complete actual_size =>
      simp only [StandardStream.step] at h
      split at h
      next data hprinter =>
        obtain ⟨hle, h⟩ := Option.ite_none_right_eq_some.mp h
        cases h
        apply hs.goTo
        · simp [hprinter]
        · simp [State.hand, hprinter]
      · contradiction
  | await_submit =>
      simp only [StandardStream.step] at h
      split at h
      next data actual_size hprinter =>
        cases h
        apply hs.goTo
        · simp [hprinter]
        · have hall : data.length ≤ actual_size.getD 0 := ha data actual_size hprinter
          rw [hand_resumed]
          simp only [State.hand, hprinter, List.drop_eq_nil_of_le hall]
      · contradiction

/-! ### The result -/

theorem Printing.conserved (hs : Printing s) :
  Conserved s
  := by
  constructor
  · have hchannel : s.output_channel.handed.map Prod.snd ++ s.queued = s.accepted := hs.channel.conserved
    rw [hs.bytes, ← hchannel, List.flatten_append]
  · intro w hw
    apply hs.channel.accepted
    apply hs.channel.returned
    simp [hw]

theorem not_conserved (hs : Printing s) (ha : ¬ WritesAll s a) (h : step s a = some t) :
  ¬ Conserved t
  := by
  intro ht
  have hconserved := hs.conserved
  cases a with
  | await_submit =>
      simp only [WritesAll, not_forall, Nat.not_le] at ha
      obtain ⟨data, actual_size, hprinter, hpartial⟩ := ha
      simp only [StandardStream.step, hprinter, Option.some.injEq] at h
      subst h
      have hbefore := congrArg List.length hconserved.bytes
      have hafter := congrArg List.length ht.bytes
      rw [hand_resumed] at hafter
      simp only [State.hand, hprinter, State.queued, State.accepted, List.length_append,
        List.length_drop, List.length_nil] at hbefore hafter
      omega
  | _ => simp [WritesAll] at ha

/-- In a run no byte of an accepted write is ever lost, if and only if the printer goes on from no
`WRITE` operation that wrote less than the whole block. -/
theorem conserved_iff_writes_all {as : List Label} :
  Run step (Visits Conserved) initial as s ↔ Run step (Meets WritesAll) initial as s
  := by
  apply Run.visits_iff_meets Printing
  · intro s a t hs ha e
    apply hs.step ha e
  · intro s hs
    apply hs.conserved
  · intro s a t hs ha e
    apply not_conserved hs ha e
  · apply Printing.initial

/-- A write of two bytes has returned its size, the operation wrote one of them, and the other is
gone. -/
theorem byte_lost :
  ∃ as s, Run step Free initial as s ∧ s.accepted = [[104, 105]] ∧
    s.output_channel.outcome (.writer 0) = some .done ∧ s.output = [104] ∧ s.hand = [] ∧ s.queued = []
  := by
  use [.create, .read, .write ⟨0, [104, 105]⟩, .resume 0, .resume 0, .await_write 0, .await_read,
    .submit, .complete (some 1), .await_submit]
  apply exists_run_of_exec
  decide

end StandardStream

end Koroutine
