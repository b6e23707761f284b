import Koroutine.Sequence.Source

/-!
# The streams of `httplib.h`

A `Stream` is a source of bytes with a virtual `getline`.  The base class reads one byte at a time,
and `BufferedStream` reads ahead into a buffer and overrides both functions.  `SocketStream` gives
what its socket has received, in whatever pieces it comes; `BufferStream` gives a string.

A client of a stream cannot tell one kind from another but by how much its reads bring
(`client_serves`): all of them hand out the bytes of the source in order, and the same lines.
-/

open Sequence

namespace Koroutine

namespace Httplib

abbrev Bytes := List UInt8

/-- `'\n'` -/
def lf : UInt8 := 10

/-- `'\r'` -/
def cr : UInt8 := 13

def crlf : Bytes := [cr, lf]

/-- A line with its `'\n'`, and what follows it. -/
def cutLine (l : Bytes) : Bytes × Bytes := cutAfter (· == lf) l

@[simp]
theorem cutLine_nil :
  cutLine [] = ([], [])
  := rfl

theorem cutLine_append_self (l : Bytes) :
  (cutLine l).1 ++ (cutLine l).2 = l
  := cutAfter_append_self l

theorem cutLine_fst_eq_nil {l : Bytes} :
  (cutLine l).1 = [] ↔ l = []
  := cutAfter_fst_eq_nil

theorem cutLine_append_of_mem {a b : Bytes} (h : lf ∈ a) :
  cutLine (a ++ b) = ((cutLine a).1, (cutLine a).2 ++ b)
  := cutAfter_append_of_mem h (by simp)

theorem cutLine_append_of_notMem {a b : Bytes} (h : lf ∉ a) :
  cutLine (a ++ b) = (a ++ (cutLine b).1, (cutLine b).2)
  := by
  apply cutAfter_append
  intro x hx
  rw [beq_eq_false_iff_ne]
  rintro rfl
  exact h hx

theorem cutLine_append_lf {a b : Bytes} (h : lf ∉ a) :
  cutLine (a ++ lf :: b) = (a ++ [lf], b)
  := by
  rw [cutLine_append_of_notMem h]
  simp [cutLine, cutAfter]

/-- `Stream`: a source of bytes with lines.  `getline` is true unless the line is empty. -/
structure Stream (σ : Type) extends Source UInt8 σ where
  getline : σ → (Bool × Bytes) × σ
  getline_fst : ∀ s : σ, (getline s).1 = (!(cutLine (rest s)).1.isEmpty, (cutLine (rest s)).1)
  getline_snd : ∀ s : σ, rest (getline s).2 = (cutLine (rest s)).2

variable {σ : Type}

namespace Stream

variable {S : Stream σ} {s t : σ} {line : Bytes}

end Stream

/-! ### The base class -/

namespace Stream

/-- The loop of `Stream::getline`. -/
def getlineLoop (S : Source UInt8 σ) (s : σ) (out : Bytes) : Bytes × σ :=
  match _h : S.read s 1 with
  | (none, t) | (some [], t) => (out, t)
  | (some (c :: _), t) => if c = lf then (out ++ [c], t) else getlineLoop S t (out ++ [c])
  termination_by (S.rest s).length
  decreasing_by exact Source.rest_length_lt (by assumption)

variable {S : Source UInt8 σ} {s t : σ} {out data : Bytes} {c : UInt8}

theorem getlineLoop_end (h : S.read s 1 = (none, t) ∨ S.read s 1 = (some [], t)) :
  getlineLoop S s out = (out, t)
  := by
  rw [getlineLoop]
  split <;> simp_all

theorem getlineLoop_byte (h : S.read s 1 = (some (c :: data), t)) :
  getlineLoop S s out = if c = lf then (out ++ [c], t) else getlineLoop S t (out ++ [c])
  := by
  rw [getlineLoop]
  split <;> simp_all

/-- The loop collects the rest of the line. -/
theorem getlineLoop_spec (S : Source UInt8 σ) (s : σ) (out : Bytes) :
  (getlineLoop S s out).1 = out ++ (cutLine (S.rest s)).1
    ∧ S.rest (getlineLoop S s out).2 = (cutLine (S.rest s)).2
  := by
  induction hn : (S.rest s).length using Nat.strong_induction_on generalizing s out with
  | _ n ih =>
      subst hn
      rcases h : S.read s 1 with ⟨_ | _ | ⟨c, data⟩, t⟩
      · rw [getlineLoop_end (.inl h)]
        simp [cutLine, S.read_failed h]
      · rw [getlineLoop_end (.inr h)]
        simp [cutLine, Source.rest_eq_nil h Nat.one_pos]
      · have hlength := S.read_length h
        have hdata : data = [] := by
          rw [List.length_cons] at hlength
          exact List.length_eq_zero_iff.mp (by omega)
        have hrest : S.rest s = c :: S.rest t := by
          rw [S.read_rest h, hdata]
          rfl
        rw [getlineLoop_byte h, hrest, cutLine, cutAfter]
        by_cases hc : c = lf
        · simp [hc]
        · have hloop := ih _ (Source.rest_length_lt h) t (out ++ [c]) rfl
          simp [hc, hloop, cutLine]

/-- A stream of the base class: `getline` as `Stream` has it. -/
def ofSource (S : Source UInt8 σ) : Stream σ where
  toSource := S
  getline s := ((!(getlineLoop S s []).1.isEmpty, (getlineLoop S s []).1), (getlineLoop S s []).2)
  getline_fst s := by
    simp [getlineLoop_spec S s []]
  getline_snd s := (getlineLoop_spec S s []).2

end Stream

/-- A socket whose peer sends no more: what is still to be received, how much of it the reads to come
find, and whether they fail when all of it has been received. -/
structure Socket where
  received : Bytes
  arrivals : List ℕ
  broken : Bool

namespace SocketStream

def read (s : Socket) (size : ℕ) : Option Bytes × Socket :=
  if s.received = [] then (if s.broken then none else some [], s)
  else
    let n := min size (max 1 (s.arrivals.headD size))
    (some (s.received.take n), { s with received := s.received.drop n, arrivals := s.arrivals.tail })

def source : Source UInt8 Socket where
  read := read
  rest s := s.received
  read_length := by
    intro s t n data h
    unfold read at h
    split at h
    · split at h <;> simp_all
    · obtain ⟨rfl, rfl⟩ := by simpa using h
      rw [List.length_take]
      omega
  read_rest := by
    intro s t n data h
    unfold read at h
    split at h
    · split at h <;> simp_all
    · obtain ⟨rfl, rfl⟩ := by simpa using h
      simp
  read_end := by
    intro s t n hn h
    unfold read at h
    split at h
    · assumption
    · next hreceived =>
      rw [Prod.mk.injEq, Option.some_inj, List.take_eq_nil_iff] at h
      rcases h.1 with hmin | hnil
      · omega
      · exact absurd hnil hreceived
  read_failed := by
    intro s t n h
    unfold read at h
    split at h
    · split at h <;> simp_all
    · simp at h

end SocketStream

def SocketStream : Stream Socket := Stream.ofSource SocketStream.source

/-! ### `BufferStream` -/

/-- `BufferStream`, which reads what has been written to it. -/
structure BufferStream where
  buffer : Bytes
  position : ℕ
  position_le : position ≤ buffer.length

namespace BufferStream

def read (s : BufferStream) (size : ℕ) : Option Bytes × BufferStream :=
  let len_read := min size (s.buffer.length - s.position)
  have h := s.position_le
  (some ((s.buffer.drop s.position).take len_read),
    ⟨s.buffer, s.position + len_read, by omega⟩)

def write (s : BufferStream) (data : Bytes) : BufferStream :=
  have h := s.position_le
  ⟨s.buffer ++ data, s.position, by rw [List.length_append]; omega⟩

def source : Source UInt8 BufferStream where
  read := read
  rest s := s.buffer.drop s.position
  read_length := by
    intro s t n data h
    obtain ⟨rfl, rfl⟩ := by simpa [read] using h
    simp only [List.length_take]
    omega
  read_rest := by
    intro s t n data h
    obtain ⟨rfl, rfl⟩ := by simpa [read] using h
    rw [← List.drop_drop, List.take_append_drop]
  read_end := by
    intro s t n hn h
    simp only [read, Prod.mk.injEq, Option.some_inj, List.take_eq_nil_iff] at h
    rcases h.1 with hmin | hnil
    · apply List.drop_eq_nil_of_le
      omega
    · apply hnil
  read_failed := by
    intro s t n h
    simp [read] at h

def stream : Stream BufferStream := Stream.ofSource source

end BufferStream

/-! ### `BufferedStream` -/

/-- `BufferedStream`: the inner stream, the bytes of the buffer up to `end_`, and the position in
them. -/
structure Buffered (σ : Type) where
  inner : σ
  buffer : Bytes
  pos : ℕ

namespace BufferedStream

/-- The bytes between `pos_` and `end_`. -/
def ahead (b : Buffered σ) : Bytes := b.buffer.drop b.pos

def rest (S : Source UInt8 σ) (b : Buffered σ) : Bytes := ahead b ++ S.rest b.inner

def read (S : Source UInt8 σ) (buf_size : ℕ) (b : Buffered σ) (size : ℕ) :
    Option Bytes × Buffered σ :=
  if b.pos < b.buffer.length then
    let copy_len := min size (b.buffer.length - b.pos)
    (some ((ahead b).take copy_len), { b with pos := b.pos + copy_len })
  else if size ≥ buf_size then
    ((S.read b.inner size).1, { b with inner := (S.read b.inner size).2 })
  else
    match S.read b.inner buf_size with
    | (none, t) => (none, ⟨t, [], 0⟩)
    | (some [], t) => (some [], ⟨t, [], 0⟩)
    | (some data, t) =>
        let copy_len := min size data.length
        (some (data.take copy_len), ⟨t, data, copy_len⟩)

/-- The loop of `getline`: a line that ends in the buffer, or all of the buffer, or a new buffer. -/
def getlineLoop (S : Source UInt8 σ) (buf_size : ℕ) (b : Buffered σ) (out : Bytes) :
    (Bool × Bytes) × Buffered σ :=
  if _hpos : b.pos < b.buffer.length then
    let line := (cutLine (ahead b)).1
    if lf ∈ ahead b then ((true, out ++ line), { b with pos := b.pos + line.length })
    else getlineLoop S buf_size { b with pos := b.buffer.length } (out ++ ahead b)
  else
    match _h : S.read b.inner buf_size with
    | (none, t) | (some [], t) => ((!out.isEmpty, out), ⟨t, [], 0⟩)
    | (some (c :: data), t) => getlineLoop S buf_size ⟨t, c :: data, 0⟩ out
  termination_by 2 * (S.rest b.inner).length + (b.buffer.length - b.pos)
  decreasing_by
    · omega
    · have hrest := S.read_rest (by assumption)
      simp [hrest]
      omega

variable {S : Source UInt8 σ} {buf_size size : ℕ} {b : Buffered σ} {t : σ} {out data : Bytes}

theorem ahead_eq_nil (h : ¬ b.pos < b.buffer.length) :
  ahead b = []
  := List.drop_eq_nil_of_le (by omega)

@[simp]
theorem ahead_zero {l : Bytes} :
  ahead (⟨t, l, 0⟩ : Buffered σ) = l
  := rfl

theorem ahead_of_read (n : ℕ) :
  ahead { b with pos := b.pos + n } = (ahead b).drop n
  := List.drop_drop.symm

theorem ahead_of_line :
  ahead { b with pos := b.pos + (cutLine (ahead b)).1.length } = (cutLine (ahead b)).2
  := by
  have hline := cutLine_append_self (ahead b)
  calc ahead { b with pos := b.pos + (cutLine (ahead b)).1.length }
      = ((cutLine (ahead b)).1 ++ (cutLine (ahead b)).2).drop (cutLine (ahead b)).1.length := by
        rw [ahead_of_read, hline]
    _ = (cutLine (ahead b)).2 := List.drop_left

theorem getlineLoop_found (hpos : b.pos < b.buffer.length) (hlf : lf ∈ ahead b) :
  getlineLoop S buf_size b out =
    ((true, out ++ (cutLine (ahead b)).1),
      { b with pos := b.pos + (cutLine (ahead b)).1.length })
  := by
  rw [getlineLoop, dif_pos hpos, if_pos hlf]

theorem getlineLoop_all (hpos : b.pos < b.buffer.length) (hlf : lf ∉ ahead b) :
  getlineLoop S buf_size b out =
    getlineLoop S buf_size { b with pos := b.buffer.length } (out ++ ahead b)
  := by
  rw [getlineLoop, dif_pos hpos, if_neg hlf]

theorem getlineLoop_end (hpos : ¬ b.pos < b.buffer.length)
    (h : S.read b.inner buf_size = (none, t) ∨ S.read b.inner buf_size = (some [], t)) :
  getlineLoop S buf_size b out = ((!out.isEmpty, out), ⟨t, [], 0⟩)
  := by
  rw [getlineLoop, dif_neg hpos]
  split <;> simp_all

theorem getlineLoop_refill {c : UInt8} (hpos : ¬ b.pos < b.buffer.length)
    (h : S.read b.inner buf_size = (some (c :: data), t)) :
  getlineLoop S buf_size b out = getlineLoop S buf_size ⟨t, c :: data, 0⟩ out
  := by
  rw [getlineLoop, dif_neg hpos]
  split <;> simp_all

/-- The loop collects the rest of the line, however the bytes come into the buffer. -/
theorem getlineLoop_spec (hsize : 0 < buf_size) (b : Buffered σ) (out : Bytes) :
  (getlineLoop S buf_size b out).1 =
      (!(out ++ (cutLine (rest S b)).1).isEmpty, out ++ (cutLine (rest S b)).1)
    ∧ rest S (getlineLoop S buf_size b out).2 = (cutLine (rest S b)).2
  := by
  induction hn : 2 * (S.rest b.inner).length + (b.buffer.length - b.pos)
    using Nat.strong_induction_on generalizing b out with
  | _ n ih =>
      subst hn
      by_cases hpos : b.pos < b.buffer.length
      · by_cases hlf : lf ∈ ahead b
        · have hne : (cutLine (ahead b)).1 ≠ [] := by
            rw [Ne, cutLine_fst_eq_nil]
            exact List.ne_nil_of_mem hlf
          rw [getlineLoop_found hpos hlf, rest, cutLine_append_of_mem hlf]
          constructor
          · simp [hne]
          · rw [rest, ahead_of_line]
        · have hloop := ih _ (by simp; omega) { b with pos := b.buffer.length } (out ++ ahead b) rfl
          have hrest : rest S { b with pos := b.buffer.length } = S.rest b.inner := by
            simp [rest, ahead]
          rw [getlineLoop_all hpos hlf, rest, cutLine_append_of_notMem hlf]
          rw [hrest] at hloop
          simpa using hloop
      · rcases h : S.read b.inner buf_size with ⟨_ | _ | ⟨c, data⟩, t⟩
        · have hend := S.read_failed h
          rw [getlineLoop_end hpos (.inl h)]
          simp [rest, ahead_eq_nil hpos, hend, cutLine]
        · have hend := Source.rest_eq_nil h hsize
          rw [getlineLoop_end hpos (.inr h)]
          simp [rest, ahead_eq_nil hpos, hend, cutLine]
        · have hrest := S.read_rest h
          have hloop := ih _ (by simp [hrest]; omega) ⟨t, c :: data, 0⟩ out rfl
          have hsame : rest S ⟨t, c :: data, 0⟩ = rest S b := by
            simp [rest, ahead_eq_nil hpos, hrest]
          rw [getlineLoop_refill hpos h]
          rw [hsame] at hloop
          apply hloop

/-- A read gives bytes of the buffer, reads past an empty buffer when it asks for many, or fills the
buffer. -/
theorem read_buffer (hpos : b.pos < b.buffer.length) :
  read S buf_size b size =
    (some ((ahead b).take (min size (b.buffer.length - b.pos))),
      { b with pos := b.pos + min size (b.buffer.length - b.pos) })
  := if_pos hpos

theorem read_through (hpos : ¬ b.pos < b.buffer.length) (hsize : size ≥ buf_size) :
  read S buf_size b size =
    ((S.read b.inner size).1, { b with inner := (S.read b.inner size).2 })
  := by
  rw [read, if_neg hpos, if_pos hsize]

theorem read_refill (hpos : ¬ b.pos < b.buffer.length) (hsize : ¬ size ≥ buf_size) :
  read S buf_size b size =
    ((S.read b.inner buf_size).1.map (·.take size),
      ⟨(S.read b.inner buf_size).2, (S.read b.inner buf_size).1.getD [],
        min size ((S.read b.inner buf_size).1.getD []).length⟩)
  := by
  rw [read, if_neg hpos, if_neg hsize]
  rcases S.read b.inner buf_size with ⟨_ | _ | ⟨c, data⟩, t⟩
  · simp
  · simp
  · simp [List.take_eq_take_min]

/-- What a read has done. -/
inductive Reads (S : Source UInt8 σ) (size : ℕ) (b : Buffered σ) :
    Option Bytes → Buffered σ → Prop
  | some (data : Bytes) (b' : Buffered σ) (length : data.length ≤ size)
      (taken : rest S b = data ++ rest S b') (ended : 0 < size → data = [] → rest S b' = []) :
      Reads S size b (some data) b'
  | none (b' : Buffered σ) (before : rest S b = []) (after : rest S b' = []) :
      Reads S size b none b'

theorem reads (hbuf : 0 < buf_size) (b : Buffered σ) (size : ℕ) :
  Reads S size b (read S buf_size b size).1 (read S buf_size b size).2
  := by
  by_cases hpos : b.pos < b.buffer.length
  · rw [read_buffer hpos]
    have hahead : ahead b ≠ [] := by
      rw [ahead, Ne, List.drop_eq_nil_iff]
      omega
    constructor
    · rw [List.length_take]
      omega
    · rw [rest, rest, ahead_of_read, ← List.append_assoc, List.take_append_drop]
    · intro hsize hnil
      rcases List.take_eq_nil_iff.mp hnil with hmin | hnil
      · omega
      · exact absurd hnil hahead
  · have hahead := ahead_eq_nil hpos
    by_cases hsize : size ≥ buf_size
    · rw [read_through hpos hsize]
      rcases h : S.read b.inner size with ⟨_ | data, t⟩
      · have hend := S.read_failed h
        constructor
        · simp [rest, hahead, hend]
        · simpa [rest, ahead_eq_nil, hpos] using hend.2
      · have hrest := S.read_rest h
        have ht : ahead { b with inner := t } = [] := hahead
        constructor
        · exact S.read_length h
        · simp [rest, hahead, ht, hrest]
        · rintro hpositive rfl
          simp [rest, ht, Source.rest_eq_nil h hpositive]
    · rw [read_refill hpos hsize]
      rcases h : S.read b.inner buf_size with ⟨_ | data, t⟩
      · have hend := S.read_failed h
        constructor
        · simp [rest, hahead, hend]
        · simp [rest, ahead, hend]
      · have hrest := S.read_rest h
        have hafter : ahead (⟨t, data, min size data.length⟩ : Buffered σ) = data.drop size :=
          List.drop_eq_drop_min.symm
        constructor
        · rw [List.length_take]
          omega
        · have hsplit : data ++ S.rest t = data.take size ++ (data.drop size ++ S.rest t) := by
            rw [← List.append_assoc, List.take_append_drop]
          simpa [rest, hahead, hrest, hafter] using hsplit
        · intro hpositive hnil
          have hdata : data = [] := by
            rcases List.take_eq_nil_iff.mp hnil with hzero | hdata
            · omega
            · apply hdata
          subst hdata
          simp [rest, ahead, Source.rest_eq_nil h hbuf]

/-- `BufferedStream` over an inner source. -/
def stream (S : Source UInt8 σ) (buf_size : ℕ) (hbuf : 0 < buf_size) : Stream (Buffered σ) where
  read := read S buf_size
  rest := rest S
  read_length := by
    intro b b' size data h
    have hreads := reads (S := S) hbuf b size
    rw [h] at hreads
    cases hreads with
    | some _ _ hlength => exact hlength
  read_rest := by
    intro b b' size data h
    have hreads := reads (S := S) hbuf b size
    rw [h] at hreads
    cases hreads with
    | some _ _ _ htaken => exact htaken
  read_end := by
    intro b b' size hsize h
    have hreads := reads (S := S) hbuf b size
    rw [h] at hreads
    cases hreads with
    | some _ _ _ htaken hended => simpa [hended hsize rfl] using htaken
  read_failed := by
    intro b b' size h
    have hreads := reads (S := S) hbuf b size
    rw [h] at hreads
    cases hreads with
    | none _ hbefore hafter => exact ⟨hbefore, hafter⟩
  getline b := getlineLoop S buf_size b []
  getline_fst b := by
    rw [(getlineLoop_spec hbuf b []).1]
    simp
  getline_snd b := (getlineLoop_spec hbuf b []).2

end BufferedStream

/-! ### Clients -/

/-- What is asked of a stream. -/
inductive Call
  | read (size : ℕ)
  | getline

inductive Answer
  | read (data : Option Bytes)
  | getline (ok : Bool) (line : Bytes)

namespace Stream

variable {S : Stream σ} {s t : σ}

def call (S : Stream σ) (s : σ) : Call → Answer × σ
  | .read size => (.read (S.read s size).1, (S.read s size).2)
  | .getline => (.getline (S.getline s).1.1 (S.getline s).1.2, (S.getline s).2)

/-- Successive calls of a client. -/
def client (S : Stream σ) : List Call → σ → List Answer × σ
  | [], s => ([], s)
  | c :: calls, s =>
      ((S.call s c).1 :: (S.client calls (S.call s c).2).1, (S.client calls (S.call s c).2).2)

end Stream

/-- What a call may answer, and what it leaves, when so many bytes are to come. -/
inductive Served : Bytes → Call → Answer → Bytes → Prop
  | read (size : ℕ) (data after : Bytes) (length : data.length ≤ size)
      (ended : 0 < size → data = [] → after = []) :
      Served (data ++ after) (.read size) (.read (some data)) after
  | failed (size : ℕ) : Served [] (.read size) (.read none) []
  | line (line after : Bytes) (lf_notMem : lf ∉ line) :
      Served (line ++ lf :: after) .getline (.getline true (line ++ [lf])) after
  | last (line : Bytes) (lf_notMem : lf ∉ line) (ne_nil : line ≠ []) :
      Served line .getline (.getline true line) []
  | ended : Served [] .getline (.getline false []) []

/-- What a client is answered. -/
inductive Serves : Bytes → List Call → List Answer → Bytes → Prop
  | nil (bytes : Bytes) : Serves bytes [] [] bytes
  | cons {before between after : Bytes} {c : Call} {a : Answer} {calls : List Call}
      {answers : List Answer} (first : Served before c a between)
      (rest : Serves between calls answers after) : Serves before (c :: calls) (a :: answers) after

theorem exists_line (l : Bytes) :
  (lf ∉ l ∧ cutLine l = (l, []))
    ∨ ∃ line after, lf ∉ line ∧ l = line ++ lf :: after ∧ cutLine l = (line ++ [lf], after)
  := by
  by_cases hlf : lf ∈ l
  · obtain ⟨line, after, rfl, hline⟩ := List.eq_append_cons_of_mem hlf
    exact .inr ⟨line, after, hline, rfl, cutLine_append_lf hline⟩
  · have hcut := cutLine_append_of_notMem (b := []) hlf
    rw [List.append_nil, cutLine_nil, List.append_nil] at hcut
    exact .inl ⟨hlf, hcut⟩

namespace Stream

theorem served (S : Stream σ) (s : σ) (c : Call) :
  Served (S.rest s) c (S.call s c).1 (S.rest (S.call s c).2)
  := by
  cases c with
  | read size =>
      rcases h : S.read s size with ⟨_ | data, t⟩
      · simp only [call, h, S.read_failed h]
        apply Served.failed
      · simp only [call, h, S.read_rest h]
        apply Served.read
        · exact S.read_length h
        · rintro hsize rfl
          exact (Source.rest_eq_nil h hsize).2
  | getline =>
      have hfst := S.getline_fst s
      have hsnd := S.getline_snd s
      rcases exists_line (S.rest s) with ⟨hlf, hcut⟩ | ⟨line, after, hlf, hrest, hcut⟩
      · simp only [call, hfst, hsnd, hcut]
        cases hs : S.rest s with
        | nil => apply Served.ended
        | cons c l =>
            rw [hs] at hlf
            apply Served.last _ hlf (by simp)
      · have hne : (!(line ++ [lf]).isEmpty) = true := by simp
        simp only [call, hfst, hsnd, hcut, hne]
        rw [hrest]
        apply Served.line line after hlf

theorem serves (S : Stream σ) (calls : List Call) (s : σ) :
  Serves (S.rest s) calls (S.client calls s).1 (S.rest (S.client calls s).2)
  := by
  induction calls generalizing s with
  | nil => apply Serves.nil
  | cons c calls ih => exact .cons (S.served s c) (ih _)

/-- The lines depend on the bytes alone. -/
theorem lines_eq {σ' : Type} {S : Stream σ} {S' : Stream σ'} {s : σ} {s' : σ'}
    (h : S.rest s = S'.rest s') (n : ℕ) :
  (S.client (List.replicate n .getline) s).1 = (S'.client (List.replicate n .getline) s').1
  := by
  induction n generalizing s s' with
  | zero => rfl
  | succ n ih =>
      have hrest : S.rest (S.getline s).2 = S'.rest (S'.getline s').2 := by
        rw [S.getline_snd, S'.getline_snd, h]
      simp only [List.replicate_succ, client, call, S.getline_fst, S'.getline_fst, h]
      rw [ih hrest]

end Stream

/-- A buffered stream hands out the bytes that its source was going to hand out, in order and each
once, whatever mixture of reads and lines it is asked for and however the source cuts them; and the
lines it gives are those that the base class reads byte by byte. -/
theorem BufferedStream.client_serves (S : Source UInt8 σ) (buf_size : ℕ) (hbuf : 0 < buf_size)
    (s : σ) (calls : List Call) (n : ℕ) :
  Serves (S.rest s) calls ((stream S buf_size hbuf).client calls ⟨s, [], 0⟩).1
      (BufferedStream.rest S ((stream S buf_size hbuf).client calls ⟨s, [], 0⟩).2)
    ∧ ∀ (b : Buffered σ), BufferedStream.rest S b = S.rest s →
        ((stream S buf_size hbuf).client (List.replicate n .getline) b).1 =
          ((Stream.ofSource S).client (List.replicate n .getline) s).1
  := by
  constructor
  · apply Stream.serves (stream S buf_size hbuf) calls ⟨s, [], 0⟩
  · intro b hb
    have hrest : (stream S buf_size hbuf).rest b = (Stream.ofSource S).rest s := hb
    exact Stream.lines_eq hrest n

theorem BufferedStream.client_serves_socket :
  Serves [65, 10, 66] [.getline, .read 5, .getline]
      ((stream SocketStream.source 4096 (by decide)).client [.getline, .read 5, .getline]
        ⟨⟨[65, 10, 66], [1, 2], true⟩, [], 0⟩).1
      (BufferedStream.rest SocketStream.source
        ((stream SocketStream.source 4096 (by decide)).client [.getline, .read 5, .getline]
          ⟨⟨[65, 10, 66], [1, 2], true⟩, [], 0⟩).2)
  := (client_serves SocketStream.source 4096 (by decide) ⟨[65, 10, 66], [1, 2], true⟩
    [.getline, .read 5, .getline] 0).1

end Httplib
end Koroutine
