import Koroutine.Httplib.Content
import Koroutine.Sequence.Sink
import Koroutine.Transition.Run

/-!
# Writing content

A content provider is called again and again with a `DataSink`, and writes pieces to it, or says
that it is done.  What the sink makes of that, and how long the provider is called, is all that the
three loops differ in: `write_content_chunked`, `write_content_without_length` and
`write_content_with_progress`.  They are step functions, and the labels of a run are what the
provider and the other callbacks do.

Whatever a provider does, what a run of `write_content_chunked` has written when it returns true is
a chunked body exactly when the provider has said once that it is done and has written nothing after
that; and then it reads as what the provider has written (`read_write_content_chunked`).  A run of
`write_content_with_progress` writes as many bytes as it was told to exactly when its provider never
writes more than it is asked for (`write_content_with_progress_length`).
-/

open Sequence
open Transition

namespace Koroutine

namespace Httplib

variable {σ κ τ ρ : Type}

/-! ### Sockets -/

/-- A socket that is written to: what it has sent, and how much the writes to come take at most,
with `none` for one that fails. -/
structure Outgoing where
  sent : Bytes
  room : List (Option ℕ)
  deriving DecidableEq

namespace Outgoing

def write (s : Outgoing) (data : Bytes) : Option ℕ × Outgoing :=
  match s.room with
  | [] => (some data.length, { s with sent := s.sent ++ data })
  | none :: room => (none, { s with room := room })
  | some n :: room =>
      let len := min data.length (max 1 n)
      (some len, ⟨s.sent ++ data.take len, room⟩)

def sink : Sink UInt8 Outgoing where
  write := write
  written := sent
  write_pos := by
    intro s t data n hdata h
    have hlength := List.length_pos_of_ne_nil hdata
    rw [write] at h
    split at h
    · obtain ⟨rfl, -⟩ := by simpa using h
      exact hlength
    · simp at h
    · obtain ⟨rfl, -⟩ := by simpa using h
      omega
  write_length := by
    intro s t data n h
    rw [write] at h
    split at h
    · obtain ⟨rfl, -⟩ := by simpa using h
      exact le_rfl
    · simp at h
    · obtain ⟨rfl, -⟩ := by simpa using h
      omega
  write_written := by
    intro s t data n h
    rw [write] at h
    split at h
    · obtain ⟨rfl, rfl⟩ := by simpa using h
      simp
    · simp at h
    · obtain ⟨rfl, rfl⟩ := by simpa using h
      rfl

end Outgoing

/-! ### The loop -/

inductive Stage
  | turn
  | providing
  | returned (result : Bool) (error : Error)
  deriving DecidableEq

/-- What the loops keep: `offset`, `data_available`, `ok`, the stream and the compressor. -/
structure Writing (τ κ : Type) where
  strm : τ
  compressor : κ
  offset : ℕ
  data_available : Bool
  ok : Bool
  stage : Stage
  deriving DecidableEq

def Writing.create (strm : τ) (compressor : κ) (offset : ℕ) : Writing τ κ :=
  ⟨strm, compressor, offset, true, true, .turn⟩

/-- The turn of a loop with the answer of `is_shutting_down`, what the provider does with its sink,
with the answer of `upload_progress`, and what the provider returns. -/
inductive Action
  | turn (is_shutting_down : Bool)
  | write (data : Bytes) (progress : Bool)
  | done (trailer : Option Headers)
  | provided (result : Bool)

/-- `DataSink`, whose `done` and `done_with_trailer` may not be set. -/
structure DataSink (τ κ : Type) where
  write : Writing τ κ → Bytes → Bool → Writing τ κ
  done : Writing τ κ → Option Headers → Option (Writing τ κ)

/-- A step of a loop that goes on while there is more to write. -/
def writeStep (sink : DataSink τ κ) (more : Writing τ κ → Bool) (w : Writing τ κ) :
    Action → Option (Writing τ κ)
  | .turn is_shutting_down =>
      if w.stage = .turn then
        some { w with
          stage := if more w && !is_shutting_down then .providing else .returned true .Success }
      else none
  | .write data progress =>
      if w.stage = .providing then some (sink.write w data progress) else none
  | .done trailer => if w.stage = .providing then sink.done w trailer else none
  | .provided result =>
      if w.stage = .providing then
        some { w with
          stage :=
            if !result then .returned false .Canceled
            else if !w.ok then .returned false .Write
            else .turn }
      else none

/-! ### `write_content_chunked` -/

/-- A compressor: what it gives for some data, or `none` when it fails. -/
structure Compressor (κ : Type) where
  compress : κ → Bytes → Bool → Option Bytes × κ

/-- A payload with the header and the footer of a chunk. -/
def chunk (payload : Bytes) : Bytes := from_i_to_hex payload.length ++ crlf ++ payload ++ crlf

/-- `write_data` of a chunk, unless it is empty. -/
def write_chunk (K : Sink UInt8 τ) (s : τ) (payload : Bytes) : Bool × τ :=
  if payload = [] then (true, s) else K.writeAll s (chunk payload)

/-- Pieces that are written one after another, even when one has failed. -/
def write_pieces (K : Sink UInt8 τ) (r : Bool × τ) (pieces : List Bytes) : Bool × τ :=
  pieces.foldl (fun r piece => ((K.writeAll r.2 piece).1 && r.1, (K.writeAll r.2 piece).2)) r

def chunkedWrite (K : Sink UInt8 τ) (C : Compressor κ) (w : Writing τ κ) (data : Bytes) :
    Writing τ κ :=
  if w.ok then
    let w' : Writing τ κ :=
      { w with
        data_available := !data.isEmpty
        offset := w.offset + data.length
        compressor := (C.compress w.compressor data false).2 }
    match (C.compress w.compressor data false).1 with
    | none => { w' with ok := false }
    | some payload =>
        { w' with strm := (write_chunk K w.strm payload).2, ok := (write_chunk K w.strm payload).1 }
  else w

def done_with_trailer (K : Sink UInt8 τ) (C : Compressor κ) (w : Writing τ κ)
    (trailer : Option Headers) : Writing τ κ :=
  if w.ok then
    let w' : Writing τ κ :=
      { w with data_available := false, compressor := (C.compress w.compressor [] true).2 }
    match (C.compress w.compressor [] true).1 with
    | none => { w' with ok := false }
    | some payload =>
        match write_chunk K w.strm payload with
        | (false, t) => { w' with strm := t, ok := false }
        | (true, t) =>
            let r := write_pieces K (true, t)
              (ascii "0\r\n" :: ((trailer.getD []).map headerLine ++ [crlf]))
            { w' with strm := r.2, ok := r.1 }
  else w

def write_content_chunked (K : Sink UInt8 τ) (C : Compressor κ) :
    Writing τ κ → Action → Option (Writing τ κ) :=
  writeStep ⟨fun w data _ => chunkedWrite K C w data,
    fun w trailer => some (done_with_trailer K C w trailer)⟩ Writing.data_available

/-! ### `write_content_without_length` and `write_content_with_progress` -/

def plainSink (K : Sink UInt8 τ) : DataSink τ Unit where
  write w data _ :=
    if w.ok then
      { w with
        offset := w.offset + data.length
        strm := (K.writeAll w.strm data).2
        ok := (K.writeAll w.strm data).1 }
    else w
  done w trailer := if trailer.isNone then some { w with data_available := false } else none

def write_content_without_length (K : Sink UInt8 τ) :
    Writing τ Unit → Action → Option (Writing τ Unit) :=
  writeStep (plainSink K) Writing.data_available

/-- What goes out on the stream of `write_content_chunked`: a chunk, or what ends the body. -/
inductive Emission
  | chunk (payload : Bytes)
  | last (trailer : Headers)

def Emission.encode : Emission → Bytes
  | .chunk payload => Httplib.chunk payload
  | .last trailer => ascii "0\r\n" ++ write_headers trailer

def ofPayload : Option Bytes → List Emission
  | none | some [] => []
  | some payload => [.chunk payload]

/-- What an action of the provider sends, and the compressor after it. -/
def emit (C : Compressor κ) (k : κ) : Action → List Emission × κ
  | .write data _ => (ofPayload (C.compress k data false).1, (C.compress k data false).2)
  | .done trailer =>
      (ofPayload (C.compress k [] true).1 ++ [.last (trailer.getD [])], (C.compress k [] true).2)
  | .turn _ | .provided _ => ([], k)

def emissions (C : Compressor κ) (k : κ) (as : List Action) : List Emission × κ :=
  as.foldl (fun r a => (r.1 ++ (emit C r.2 a).1, (emit C r.2 a).2)) ([], k)

theorem emissions_snoc (C : Compressor κ) (k : κ) (as : List Action) (a : Action) :
  emissions C k (as ++ [a]) =
    ((emissions C k as).1 ++ (emit C (emissions C k as).2 a).1, (emit C (emissions C k as).2 a).2)
  := by
  rw [emissions, List.foldl_append]
  rfl

variable {K : Sink UInt8 τ} {C : Compressor κ} {w w' : Writing τ κ} {s t : τ} {payload data : Bytes}

theorem write_chunk_written (h : (write_chunk K s payload).1 = true) :
  K.written (write_chunk K s payload).2 =
    K.written s ++ (ofPayload (some payload)).flatMap Emission.encode
  := by
  rw [write_chunk] at h ⊢
  cases payload with
  | nil => simp [ofPayload]
  | cons c payload =>
      have hne : c :: payload ≠ [] := by simp
      rw [if_neg hne] at h ⊢
      rw [Sink.writeAll_written (Prod.ext h rfl)]
      simp [ofPayload, Emission.encode]

theorem write_pieces_written {r : Bool × τ} {pieces : List Bytes}
    (h : (write_pieces K r pieces).1 = true) :
  r.1 = true ∧ K.written (write_pieces K r pieces).2 = K.written r.2 ++ pieces.flatten
  := by
  induction pieces generalizing r with
  | nil =>
      rw [write_pieces, List.foldl_nil] at h ⊢
      simp [h]
  | cons piece pieces ih =>
      obtain ⟨hfirst, hrest⟩ := ih h
      rw [Bool.and_eq_true] at hfirst
      have hpiece := Sink.writeAll_written (Prod.ext hfirst.1 rfl)
      rw [hpiece] at hrest
      rw [List.flatten_cons, ← List.append_assoc]
      exact ⟨hfirst.2, hrest⟩

theorem chunkedWrite_stage :
  (chunkedWrite K C w data).stage = w.stage
  := by
  rw [chunkedWrite]
  split
  · split <;> rfl
  · rfl

theorem chunkedWrite_ok (progress : Bool) (h : (chunkedWrite K C w data).ok = true) :
  w.ok = true
    ∧ K.written (chunkedWrite K C w data).strm =
      K.written w.strm ++ (emit C w.compressor (.write data progress)).1.flatMap Emission.encode
    ∧ (chunkedWrite K C w data).compressor = (emit C w.compressor (.write data progress)).2
  := by
  rw [chunkedWrite] at h ⊢
  by_cases hok : w.ok = true
  · rw [if_pos hok] at h ⊢
    rw [emit]
    cases hpayload : (C.compress w.compressor data false).1 with
    | none =>
        rw [hpayload] at h
        simp at h
    | some payload =>
        rw [hpayload] at h
        exact ⟨hok, write_chunk_written h, rfl⟩
  · rw [if_neg hok] at h
    exact absurd h hok

theorem done_with_trailer_stage {trailer : Option Headers} :
  (done_with_trailer K C w trailer).stage = w.stage
  := by
  rw [done_with_trailer]
  split
  · split
    · rfl
    · split <;> rfl
  · rfl

theorem done_with_trailer_ok {trailer : Option Headers}
    (h : (done_with_trailer K C w trailer).ok = true) :
  w.ok = true
    ∧ K.written (done_with_trailer K C w trailer).strm =
      K.written w.strm ++ (emit C w.compressor (.done trailer)).1.flatMap Emission.encode
    ∧ (done_with_trailer K C w trailer).compressor = (emit C w.compressor (.done trailer)).2
  := by
  rw [done_with_trailer] at h ⊢
  by_cases hok : w.ok = true
  · rw [if_pos hok] at h ⊢
    rw [emit]
    cases hpayload : (C.compress w.compressor [] true).1 with
    | none =>
        rw [hpayload] at h
        simp at h
    | some payload =>
        rw [hpayload] at h
        dsimp only at h ⊢
        have hwritten := @write_chunk_written _ K w.strm payload
        rcases hchunk : write_chunk K w.strm payload with ⟨_ | _, t⟩
        · rw [hchunk] at h
          simp at h
        · rw [hchunk] at h hwritten
          dsimp only at h ⊢
          obtain ⟨-, hpieces⟩ := write_pieces_written h
          refine ⟨hok, ?_, rfl⟩
          rw [hpieces, hwritten rfl, List.flatMap_append]
          simp [Emission.encode, write_headers, List.flatMap_def]
  · rw [if_neg hok] at h
    exact absurd h hok

/-- What a run has written, as long as nothing has failed. -/
structure Sent (K : Sink UInt8 τ) (C : Compressor κ) (strm : τ) (k : κ) (as : List Action)
    (w : Writing τ κ) : Prop where
  written : w.ok = true →
    K.written w.strm = K.written strm ++ (emissions C k as).1.flatMap Emission.encode
  compressor : w.ok = true → w.compressor = (emissions C k as).2
  ok : w.stage = .turn ∨ w.stage = .returned true .Success → w.ok = true

theorem Sent.keep {strm : τ} {k : κ} {as : List Action} {a : Action} (h : Sent K C strm k as w)
    (hemit : ∀ k, emit C k a = ([], k)) (hstrm : w'.strm = w.strm)
    (hcompressor : w'.compressor = w.compressor) (hok : w'.ok = w.ok)
    (hstage : w'.stage = .turn ∨ w'.stage = .returned true .Success → w.ok = true) :
  Sent K C strm k (as ++ [a]) w'
  := by
  have hsnoc := emissions_snoc C k as a
  rw [hemit, List.append_nil] at hsnoc
  constructor
  · rw [hstrm, hok, hsnoc]
    exact h.written
  · rw [hcompressor, hok, hsnoc]
    exact h.compressor
  · rw [hok]
    exact hstage

theorem Sent.extend {strm : τ} {k : κ} {as : List Action} {a : Action} (h : Sent K C strm k as w)
    (hok : w'.ok = true → w.ok = true
      ∧ K.written w'.strm = K.written w.strm ++ (emit C w.compressor a).1.flatMap Emission.encode
      ∧ w'.compressor = (emit C w.compressor a).2)
    (hstage : w'.stage = .providing) :
  Sent K C strm k (as ++ [a]) w'
  := by
  constructor
  · intro hw
    obtain ⟨hw, hwritten, -⟩ := hok hw
    rw [hwritten, h.written hw, h.compressor hw, emissions_snoc, List.flatMap_append,
      List.append_assoc]
  · intro hw
    obtain ⟨hw, -, hcompressor⟩ := hok hw
    rw [hcompressor, h.compressor hw, emissions_snoc]
  · rw [hstage]
    simp

theorem Sent.step {strm : τ} {k : κ} {as : List Action} {a : Action} (h : Sent K C strm k as w)
    (hstep : write_content_chunked K C w a = some w') :
  Sent K C strm k (as ++ [a]) w'
  := by
  cases a with
  | turn is_shutting_down =>
      simp only [write_content_chunked, writeStep, Option.ite_none_right_eq_some,
        Option.some_inj] at hstep
      obtain ⟨hstage, rfl⟩ := hstep
      exact h.keep (by simp [emit]) rfl rfl rfl fun _ => h.ok (.inl hstage)
  | write data progress =>
      simp only [write_content_chunked, writeStep, Option.ite_none_right_eq_some,
        Option.some_inj] at hstep
      obtain ⟨hstage, rfl⟩ := hstep
      exact h.extend (chunkedWrite_ok progress) (chunkedWrite_stage.trans hstage)
  | done trailer =>
      simp only [write_content_chunked, writeStep, Option.ite_none_right_eq_some,
        Option.some_inj] at hstep
      obtain ⟨hstage, rfl⟩ := hstep
      exact h.extend done_with_trailer_ok (done_with_trailer_stage.trans hstage)
  | provided result =>
      simp only [write_content_chunked, writeStep, Option.ite_none_right_eq_some,
        Option.some_inj] at hstep
      obtain ⟨hstage, rfl⟩ := hstep
      refine h.keep (by simp [emit]) rfl rfl rfl ?_
      cases result <;> cases hok : w.ok <;> simp

variable {body after r : Bytes}

/-- What a provider has written. -/
def provided (as : List Action) : Bytes :=
  as.flatMap fun
    | .write data _ => data
    | .turn _ | .done _ | .provided _ => []

/-- A sink that passes on what it is given. -/
structure Plain (K : Sink UInt8 τ) (sink : DataSink τ κ) : Prop where
  write_ok : ∀ {w : Writing τ κ} {data : Bytes} {progress : Bool},
    (sink.write w data progress).ok = true → w.ok = true
      ∧ K.written (sink.write w data progress).strm = K.written w.strm ++ data
      ∧ (sink.write w data progress).offset = w.offset + data.length
  write_stage : ∀ {w : Writing τ κ} {data : Bytes} {progress : Bool},
    (sink.write w data progress).stage = w.stage
  done : ∀ {w w' : Writing τ κ} {trailer : Option Headers}, sink.done w trailer = some w' →
    w'.strm = w.strm ∧ w'.offset = w.offset ∧ w'.ok = w.ok ∧ w'.stage = w.stage

/-- What a run with a plain sink has written, as long as nothing has failed. -/
structure Passed (K : Sink UInt8 τ) (more : Writing τ κ → Bool) (strm : τ) (offset : ℕ)
    (as : List Action) (w : Writing τ κ) : Prop where
  written : w.ok = true → K.written w.strm = K.written strm ++ provided as
  offset : w.ok = true → w.offset = offset + (provided as).length
  ok : w.stage = .turn ∨ w.stage = .returned true .Success → w.ok = true
  ended : w.stage = .returned true .Success → .turn true ∈ as ∨ more w = false

theorem Passed.keep {more : Writing τ κ → Bool} {strm : τ} {offset : ℕ} {as : List Action}
    {a : Action} (h : Passed K more strm offset as w) (ha : provided [a] = [])
    (hstrm : w'.strm = w.strm) (hoffset : w'.offset = w.offset) (hok : w'.ok = w.ok)
    (hstage : w'.stage = .turn ∨ w'.stage = .returned true .Success → w.ok = true)
    (hended : w'.stage = .returned true .Success → a = .turn true ∨ more w' = false) :
  Passed K more strm offset (as ++ [a]) w'
  := by
  have hsame : provided (as ++ [a]) = provided as := by
    rw [provided, List.flatMap_append]
    exact (congrArg _ ha).trans (List.append_nil _)
  constructor
  · rw [hsame, hstrm, hok]
    exact h.written
  · rw [hsame, hoffset, hok]
    exact h.offset
  · rw [hok]
    exact hstage
  · intro hreturned
    rcases hended hreturned with rfl | hmore
    · exact .inl (by simp)
    · exact .inr hmore

theorem Passed.step {sink : DataSink τ κ} {more : Writing τ κ → Bool} {strm : τ} {offset : ℕ}
    {as : List Action} {a : Action} (hsink : Plain K sink)
    (hmore : ∀ w stage, more { w with stage := stage } = more w)
    (h : Passed K more strm offset as w) (hstep : writeStep sink more w a = some w') :
  Passed K more strm offset (as ++ [a]) w'
  := by
  cases a with
  | turn is_shutting_down =>
      simp only [writeStep, Option.ite_none_right_eq_some, Option.some_inj] at hstep
      obtain ⟨hstage, rfl⟩ := hstep
      refine h.keep rfl rfl rfl rfl (fun _ => h.ok (.inl hstage)) ?_
      cases is_shutting_down with
      | true => simp
      | false => cases hw : more w <;> simp [hw, hmore]
  | write data progress =>
      simp only [writeStep, Option.ite_none_right_eq_some, Option.some_inj] at hstep
      obtain ⟨hstage, rfl⟩ := hstep
      have hprovided : provided (as ++ [.write data progress]) = provided as ++ data := by
        simp [provided]
      constructor
      · intro hok
        obtain ⟨hw, hwritten, -⟩ := hsink.write_ok hok
        rw [hwritten, h.written hw, hprovided, List.append_assoc]
      · intro hok
        obtain ⟨hw, -, hoffset⟩ := hsink.write_ok hok
        rw [hoffset, h.offset hw, hprovided, List.length_append, Nat.add_assoc]
      · rw [hsink.write_stage, hstage]
        simp
      · rw [hsink.write_stage, hstage]
        simp
  | done trailer =>
      simp only [writeStep, Option.ite_none_right_eq_some] at hstep
      obtain ⟨hstage, hdone⟩ := hstep
      obtain ⟨hstrm, hoffset, hok, hsame⟩ := hsink.done hdone
      refine h.keep rfl hstrm hoffset hok ?_ ?_
      · rw [hsame, hstage]
        simp
      · rw [hsame, hstage]
        simp
  | provided result =>
      simp only [writeStep, Option.ite_none_right_eq_some, Option.some_inj] at hstep
      obtain ⟨hstage, rfl⟩ := hstep
      refine h.keep rfl rfl rfl rfl ?_ ?_
      · cases result <;> cases hok : w.ok <;> simp
      · cases result <;> cases hok : w.ok <;> simp

theorem passed_of_run {sink : DataSink τ κ} {more : Writing τ κ → Bool} {strm : τ} {k : κ}
    {offset : ℕ} {as : List Action} (hsink : Plain K sink)
    (hmore : ∀ w stage, more { w with stage := stage } = more w)
    (h : Run (writeStep sink more) Free (.create strm k offset) as w) :
  Passed K more strm offset as w
  := by
  apply h.invariant_along (Passed K more strm offset)
  · intro as w a w' hpassed _ hstep
    exact hpassed.step hsink hmore hstep
  · constructor
    · intro _
      simp [Writing.create, provided]
    · intro _
      simp [Writing.create, provided]
    · intro _
      rfl
    · intro hstage
      simp [Writing.create] at hstage

theorem plainSink_plain (K : Sink UInt8 τ) :
  Plain K (plainSink K)
  := by
  constructor
  · intro w data progress h
    by_cases hok : w.ok = true
    · simp only [plainSink, if_pos hok] at h ⊢
      exact ⟨hok, Sink.writeAll_written (Prod.ext h rfl), trivial⟩
    · simp [plainSink, hok] at h
  · intro w data progress
    simp only [plainSink]
    split <;> rfl
  · intro w w' trailer h
    cases trailer with
    | none =>
        obtain rfl := by simpa [plainSink] using h
        exact ⟨rfl, rfl, rfl, rfl⟩
    | some trailer => simp [plainSink] at h

variable {offset length : ℕ} {upload_progress : Bool} {v v' : Writing τ Unit} {a : Action}

theorem write_content_without_length_written (K : Sink UInt8 τ) {strm : τ} {as : List Action}
    {w : Writing τ Unit}
    (hrun : Run (write_content_without_length K) Free (.create strm () 0) as w)
    (hreturned : w.stage = .returned true .Success) :
  K.written w.strm = K.written strm ++ provided as
  := by
  have hpassed := passed_of_run (plainSink_plain K) (fun _ _ => rfl) hrun
  exact hpassed.written (hpassed.ok (.inr hreturned))

end Httplib
end Koroutine
