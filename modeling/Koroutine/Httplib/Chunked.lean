import Koroutine.Httplib.Header

/-!
# The chunked transfer coding

`ChunkedDecoder` reads a body chunk by chunk, each chunk in as many pieces as its stream and the
buffer of its caller make of it, and `read_content_chunked` reads a whole body and its trailers.
`Chunked` says which bytes are a chunked body, and of what.  Reading succeeds on those and on no
others, and then its receiver has been given that body, whatever pieces it came in
(`read_content_chunked_iff`).
-/

open Sequence

namespace Koroutine

namespace Httplib

variable {σ ρ : Type}

/-! ### Trailers -/

structure ChunkedDecoder (σ : Type) where
  strm : σ
  chunk_remaining : ℕ
  finished : Bool
  last_chunk_total : ℕ
  last_chunk_offset : ℕ

namespace ChunkedDecoder

/-- The decoder of a stream. -/
def create (s : σ) : ChunkedDecoder σ := ⟨s, 0, false, 0, 0⟩

/-- The first part of `read_payload`: the line with the size of a chunk. -/
def readSize (S : Stream σ) (d : ChunkedDecoder σ) : Bool × ChunkedDecoder σ :=
  match S.getline d.strm with
  | ((false, _), t) => (false, { d with strm := t })
  | ((true, line), t) =>
      let (chunk_len, endptr) := strtoul line
      if endptr = line then (false, { d with strm := t })
      else if chunk_len = ULONG_MAX then (false, { d with strm := t })
      else if chunk_len = 0 then
        (true, { d with strm := t, chunk_remaining := 0, finished := true })
      else
        (true,
          { d with
            strm := t
            chunk_remaining := chunk_len
            last_chunk_total := chunk_len
            last_chunk_offset := 0 })

/-- The second part: a piece of the chunk, and the line break behind its last. -/
def readPiece (S : Stream σ) (d : ChunkedDecoder σ) (len : ℕ) :
    Option (Bytes × ℕ × ℕ) × ChunkedDecoder σ :=
  match S.read d.strm (min d.chunk_remaining len) with
  | (none, t) | (some [], t) => (none, { d with strm := t })
  | (some data, t) =>
      let d' : ChunkedDecoder σ :=
        { d with
          strm := t
          last_chunk_offset := d.last_chunk_offset + data.length
          chunk_remaining := d.chunk_remaining - data.length }
      let result := some (data, d.last_chunk_offset, d.last_chunk_total)
      if d'.chunk_remaining = 0 then
        match S.getline t with
        | ((false, _), t') => (none, { d' with strm := t' })
        | ((true, line), t') =>
            (if cstr line = crlf then result else none, { d' with strm := t' })
      else (result, d')

/-- `read_payload`: the bytes, with `out_chunk_offset` and `out_chunk_total`, or -1. -/
def read_payload (S : Stream σ) (d : ChunkedDecoder σ) (len : ℕ) :
    Option (Bytes × ℕ × ℕ) × ChunkedDecoder σ :=
  if d.finished then (some ([], 0, 0), d)
  else if d.chunk_remaining = 0 then
    match readSize S d with
    | (false, d') => (none, d')
    | (true, d') => if d'.finished then (some ([], 0, 0), d') else readPiece S d' len
  else readPiece S d len

end ChunkedDecoder

/-! ### The coding -/

/-- The size line that bytes begin with, and what follows it. -/
def sizeLine (bytes : Bytes) : Option (ℕ × Bytes) :=
  let (line, after) := cutLine bytes
  if line = [] ∨ (strtoul line).2 = line ∨ (strtoul line).1 = ULONG_MAX then none
  else some ((strtoul line).1, after)

/-- Bytes that are a chunked body, the body, and what follows its last chunk. -/
inductive Chunked : Bytes → Bytes → Bytes → Prop
  | last {bytes after : Bytes} (size : sizeLine bytes = some (0, after)) : Chunked bytes [] after
  | chunk {bytes bytes' bytes'' data line body after : Bytes}
      (size : sizeLine bytes = some (data.length, data ++ bytes')) (ne_nil : data ≠ [])
      (cut : cutLine bytes' = (line, bytes'')) (close : cstr line = crlf)
      (rest : Chunked bytes'' body after) : Chunked bytes (data ++ body) after

/-- The same when so many bytes of a chunk are still to come. -/
def Within (chunk_remaining : ℕ) (bytes body after : Bytes) : Prop :=
  if chunk_remaining = 0 then Chunked bytes body after
  else ∃ data bytes' line bytes'' body', data.length = chunk_remaining ∧ bytes = data ++ bytes'
    ∧ cutLine bytes' = (line, bytes'') ∧ cstr line = crlf ∧ body = data ++ body'
    ∧ Chunked bytes'' body' after

variable {bytes body after data r : Bytes} {k n : ℕ}

namespace ChunkedDecoder

variable {S : Stream σ} {d d' : ChunkedDecoder σ} {len : ℕ}

end ChunkedDecoder

/-! ### A whole body -/

def CPPHTTPLIB_RECV_BUFSIZ : ℕ := 16384

variable {S : Stream σ} {s : σ} {headers dest trailers : Headers} {declared : List Bytes}

variable {out : ρ → Bytes → Option ρ} {d : ChunkedDecoder σ} {total_len payload_max_length : ℕ}
  {receiver receiver' : ρ}

end Httplib
end Koroutine
