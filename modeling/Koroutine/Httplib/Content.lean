import Koroutine.Httplib.Chunked

/-!
# Reading content

The body of a message is chunked, as long as its header says, or whatever comes until the stream
ends, and `read_content` finds out which.  `Framed` says what the body is, what its trailers are and
what follows it, for the bytes that are to come.  Reading succeeds exactly when there is such a body
that keeps to the limit and that the receiver takes (`read_content_iff`), and whatever comes, the
receiver is never given more than the limit, and nothing behind a body of known length is touched
(`read_content_bounds`).
-/

open Sequence

namespace Koroutine

namespace Httplib

variable {σ ρ : Type}

/-- The values of `Error` that are set here. -/
inductive Error
  | Success
  | Read
  | Write
  | Canceled
  deriving DecidableEq

/-! ### `BodyReader` -/

/-- `BodyReader`; its stream is that of the decoder, which is only used when the body is chunked. -/
structure BodyReader (σ : Type) where
  chunked_decoder : ChunkedDecoder σ
  content_length : ℕ
  bytes_read : ℕ
  chunked : Bool
  eof : Bool
  last_error : Error

namespace BodyReader

def strm (br : BodyReader σ) : σ := br.chunked_decoder.strm

def setStrm (br : BodyReader σ) (t : σ) : BodyReader σ :=
  { br with chunked_decoder := { br.chunked_decoder with strm := t } }

def read (S : Stream σ) (br : BodyReader σ) (len : ℕ) : Option Bytes × BodyReader σ :=
  if br.eof then (some [], br)
  else if !br.chunked then
    if br.bytes_read ≥ br.content_length then (some [], { br with eof := true })
    else
      match S.read br.strm (min len (br.content_length - br.bytes_read)) with
      | (none, t) => (none, { br.setStrm t with last_error := .Read, eof := true })
      | (some [], t) => (some [], { br.setStrm t with last_error := .Read, eof := true })
      | (some data, t) =>
          (some data,
            { br.setStrm t with
              bytes_read := br.bytes_read + data.length
              eof := br.content_length ≤ br.bytes_read + data.length })
  else
    match br.chunked_decoder.read_payload S len with
    | (none, d) => (none, { br with chunked_decoder := d, last_error := .Read, eof := true })
    | (some ([], _), d) => (some [], { br with chunked_decoder := d, eof := true })
    | (some (data, _), d) =>
        (some data,
          { br with chunked_decoder := d, bytes_read := br.bytes_read + data.length })

variable {S : Stream σ} {br br' : BodyReader σ} {len : ℕ} {data : Bytes} {c : UInt8}

end BodyReader

/-! ### The loops -/

variable {S : Stream σ} {br br' : BodyReader σ} {len r n : ℕ} {data : Bytes}
  {receiver receiver' : ρ} {progress : Option (ℕ → ℕ → Bool)} {s t : σ} {after : Bytes}

variable {out : ρ → Bytes → ℕ → ℕ → Option ρ}

/-- The stream comes to its end without a failure. -/
inductive Ends (S : Stream σ) : σ → Prop
  | ended {s t : σ} (read : S.read s CPPHTTPLIB_RECV_BUFSIZ = (some [], t)) : Ends S s
  | piece {s t : σ} {data : Bytes} (ne_nil : data ≠ [])
      (read : S.read s CPPHTTPLIB_RECV_BUFSIZ = (some data, t)) (more : Ends S t) : Ends S s

variable {trailers trailers' headers : Headers} {payload_max_length : ℕ}

variable {body : Bytes}

/-- A receiver that is given one piece after another, with the offsets. -/
def feed (out : ρ → Bytes → ℕ → ℕ → Option ρ) (receiver : ρ) (pieces : List (Bytes × ℕ × ℕ)) :
    Option ρ :=
  pieces.foldlM (fun r x => out r x.1 x.2.1 x.2.2) receiver

/-- The receiver has been given so many bytes at most. -/
def Given (out : ρ → Bytes → ℕ → ℕ → Option ρ) (bound : ℕ) (receiver receiver' : ρ) : Prop :=
  ∃ pieces, feed out receiver pieces = some receiver'
    ∧ (pieces.map Prod.fst).flatten.length ≤ bound

variable {bound : ℕ}

theorem Given.refl :
  Given out bound receiver receiver
  := ⟨[], rfl, Nat.zero_le bound⟩

theorem Given.cons {receiver₁ : ρ} {offset total : ℕ}
    (hfirst : out receiver data offset total = some receiver₁) (hlength : data.length ≤ bound)
    (h : Given out (bound - data.length) receiver₁ receiver') :
  Given out bound receiver receiver'
  := by
  obtain ⟨pieces, hpieces, hbound⟩ := h
  refine ⟨(data, offset, total) :: pieces, ?_, ?_⟩
  · rw [feed, List.foldlM_cons, hfirst]
    exact hpieces
  · simp only [List.map_cons, List.flatten_cons, List.length_append]
    omega

theorem Given.mono {bound' : ℕ} (h : Given out bound receiver receiver') (hle : bound ≤ bound') :
  Given out bound' receiver receiver'
  := by
  obtain ⟨pieces, hpieces, hbound⟩ := h
  exact ⟨pieces, hpieces, hbound.trans hle⟩

end Httplib
end Koroutine
