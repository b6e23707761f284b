import Koroutine.Httplib.Header
import Koroutine.Httplib.Query
import Koroutine.Sequence.Find

/-!
# Multipart forms

`FormDataParser` reads a form from the pieces in which the body of a request comes.  What it cannot
use yet it keeps in a buffer, and it goes on from there with the next piece.
`serialize_multipart_formdata` writes a form.  Wherever the pieces are cut, the parser reads from
them the items that have been written, with all their content
(`parse_serialize_multipart_formdata`).
-/

open Sequence

namespace Koroutine

namespace Httplib

variable {ρ : Type}

/-! ### Fields of a part -/

structure FormData where
  name : Bytes
  content : Bytes
  filename : Bytes
  content_type : Bytes
  headers : Headers
  deriving DecidableEq

/-- What `clear_file_info` leaves. -/
def FormData.cleared : FormData := ⟨[], [], [], [], []⟩

def trim_double_quotes_copy (s : Bytes) : Bytes :=
  if 2 ≤ s.length ∧ s.head? = some 34 ∧ s.getLast? = some 34 then (s.drop 1).take (s.length - 2)
  else s

/-- The key and the value of a parameter: the first piece, and the last of the others. -/
def dispositionParam (kv : Bytes) : Bytes × Bytes :=
  (split 61 kv).foldl (fun r piece => if r.1 = [] then (piece, r.2) else (r.1, piece)) ([], [])

def parse_disposition_params (s : Bytes) (params : Params) : Params :=
  parsePieces dispositionParam trim_double_quotes_copy (split 59 s) [] params

/-- The value that `find` gives for a key. -/
def findParam (params : Params) (key : Bytes) : Option Bytes :=
  (params.entries.find? fun x => x.1 = key).map Prod.snd

def start_with_case_ignore (a b : Bytes) : Bool :=
  if a.length < b.length then false else equal (a.take b.length) b

/-- What `.` matches. -/
def is_no_terminator (c : UInt8) : Bool := c ≠ lf && c ≠ cr

/-- The group of `^Content-Disposition:\s*form-data;\s*(.*)$`, if it matches. -/
def re_content_disposition (header : Bytes) : Option Bytes :=
  if start_with_case_ignore header (ascii "Content-Disposition:") then
    let type := (header.drop 20).dropWhile isspace
    if start_with_case_ignore type (ascii "form-data;") then
      let params := (type.drop 10).dropWhile isspace
      if params.all is_no_terminator then some params else none
    else none
  else none

/-- The group of `^UTF-8''(.+?)$`, if it matches. -/
def re_rfc5987_encoding (s : Bytes) : Option Bytes :=
  if start_with_case_ignore s (ascii "UTF-8''") then
    let text := s.drop 7
    if text ≠ [] && text.all is_no_terminator then some text else none
  else none

/-- What a `Content-Disposition` field says about a part, unless it is invalid. -/
def parseDisposition (file : FormData) (s : Bytes) : Option FormData :=
  let params := parse_disposition_params s .empty
  match findParam params (ascii "name") with
  | none => none
  | some name =>
      let file' : FormData :=
        { file with
          name := name
          filename := (findParam params (ascii "filename")).getD file.filename }
      match findParam params (ascii "filename*") with
      | none => some file'
      | some val =>
          (re_rfc5987_encoding val).map fun text =>
            { file' with filename := decode_path_component text }

/-- What a field says about a part, unless it is invalid. -/
def parseField (file : FormData) (header : Bytes) : Option FormData :=
  match parse_header header with
  | none => none
  | some x =>
      let file' : FormData := { file with headers := file.headers ++ [x] }
      if start_with_case_ignore header (ascii "Content-Type:") then
        some { file' with content_type := trim (header.drop 13) }
      else
        match re_content_disposition header with
        | none => some file'
        | some params => parseDisposition file' params

/-! ### `FormDataParser` -/

def dash : Bytes := ascii "--"

def dash_boundary_crlf (boundary : Bytes) : Bytes := dash ++ boundary ++ crlf

def crlf_dash_boundary (boundary : Bytes) : Bytes := crlf ++ dash ++ boundary

@[simp]
theorem crlf_length :
  crlf.length = 2
  := rfl

@[simp]
theorem dash_boundary_crlf_length (boundary : Bytes) :
  (dash_boundary_crlf boundary).length = boundary.length + 4
  := by
  rw [dash_boundary_crlf, List.length_append, List.length_append, crlf_length]
  have hdash : dash.length = 2 := rfl
  omega

/-- The values of `state_`, from 0 to 4. -/
inductive FormState
  | initial
  | entry
  | headers
  | body
  | boundary
  deriving DecidableEq

/-- `FormDataParser`: of its buffer what stands between `buf_spos_` and `buf_epos_`. -/
structure FormDataParser where
  boundary : Bytes
  state : FormState
  is_valid : Bool
  file : FormData
  buffer : Bytes

/-- A turn of the loop of `parse`. -/
inductive Turn (ρ : Type)
  | goes_on (p : FormDataParser) (receiver : ρ)
  | returned (result : Bool) (p : FormDataParser) (receiver : ρ)

namespace FormDataParser

/-- A parser after `set_boundary`. -/
def create (boundary : Bytes) : FormDataParser := ⟨boundary, .initial, false, .cleared, []⟩

variable (header_callback : ρ → FormData → Option ρ) (content_callback : ρ → Bytes → Option ρ)

/-- The loop over the fields of a part. -/
def headersLoop (p : FormDataParser) (receiver : ρ) : Turn ρ :=
  if _hpos : find crlf p.buffer < p.buffer.length then
    if find crlf p.buffer = 0 then
      match header_callback receiver p.file with
      | none => .returned false { p with is_valid := false } receiver
      | some receiver' =>
          .goes_on { p with buffer := p.buffer.drop crlf.length, state := .body } receiver'
    else
      match parseField p.file (p.buffer.take (find crlf p.buffer)) with
      | none => .returned false { p with is_valid := false } receiver
      | some file =>
          headersLoop
            { p with
              file := file
              buffer := p.buffer.drop (find crlf p.buffer + crlf.length) }
            receiver
  else .returned true p receiver
  termination_by p.buffer.length
  decreasing_by
    rw [List.length_drop]
    omega

def turn (p : FormDataParser) (receiver : ρ) : Turn ρ :=
  match p.state with
  | .initial =>
      let pos := find (dash_boundary_crlf p.boundary) p.buffer
      if pos = p.buffer.length then .returned true p receiver
      else
        .goes_on
          { p with
            buffer := p.buffer.drop (pos + (dash_boundary_crlf p.boundary).length)
            state := .entry }
          receiver
  | .entry => .goes_on { p with file := .cleared, state := .headers } receiver
  | .headers =>
      if find crlf p.buffer > CPPHTTPLIB_HEADER_MAX_LENGTH then .returned false p receiver
      else headersLoop header_callback p receiver
  | .body =>
      let size := (crlf_dash_boundary p.boundary).length
      if size > p.buffer.length then .returned true p receiver
      else
        let pos := find (crlf_dash_boundary p.boundary) p.buffer
        if pos < p.buffer.length then
          match content_callback receiver (p.buffer.take pos) with
          | none => .returned false { p with is_valid := false } receiver
          | some receiver' =>
              .goes_on { p with buffer := p.buffer.drop (pos + size), state := .boundary } receiver'
        else
          let len := p.buffer.length - size
          if len > 0 then
            match content_callback receiver (p.buffer.take len) with
            | none => .returned false { p with is_valid := false } receiver
            | some receiver' => .returned true { p with buffer := p.buffer.drop len } receiver'
          else .returned true p receiver
  | .boundary =>
      if crlf.length > p.buffer.length then .returned true p receiver
      else if crlf.isPrefixOf p.buffer then
        .goes_on { p with buffer := p.buffer.drop crlf.length, state := .entry } receiver
      else if dash.length > p.buffer.length then .returned true p receiver
      else if dash.isPrefixOf p.buffer then
        .goes_on { p with buffer := [], is_valid := true } receiver
      else .returned true p receiver

variable {header_callback content_callback} {p p' : FormDataParser} {receiver receiver' : ρ}

variable (header_callback content_callback)

end FormDataParser

/-! ### Writing a form -/

structure UploadFormData where
  name : Bytes
  content : Bytes
  filename : Bytes
  content_type : Bytes

/-- The value of the `Content-Disposition` field. -/
def disposition (item : UploadFormData) : Bytes :=
  ascii "form-data; name=\"" ++ item.name ++ ascii "\""
    ++ if item.filename = [] then [] else ascii "; filename=\"" ++ item.filename ++ ascii "\""

def itemFields (item : UploadFormData) : Headers :=
  (ascii "Content-Disposition", disposition item)
    :: if item.content_type = [] then [] else [(ascii "Content-Type", item.content_type)]

/-- What stands behind a boundary, up to the end of the form. -/
def afterBoundary (boundary : Bytes) : List UploadFormData → Bytes
  | [] => dash ++ crlf
  | item :: items =>
      crlf ++ (write_headers (itemFields item)
        ++ (item.content ++ (crlf_dash_boundary boundary ++ afterBoundary boundary items)))

/-- A character that may stand in a name: no quote and no separator of parameters. -/
def NameChar (c : UInt8) : Prop :=
  (is_space_or_tab c = true ∨ fields.is_field_vchar c = true) ∧ c ≠ 34 ∧ c ≠ 59 ∧ c ≠ 61

instance : DecidablePred NameChar := fun _ => inferInstanceAs (Decidable (_ ∧ _))

/-- An item that can be read back: names whose characters need no escape, a type that may be the
value of a field, and content without the boundary. -/
structure Serializable (boundary : Bytes) (item : UploadFormData) : Prop where
  name : ∀ c ∈ item.name, NameChar c
  filename : ∀ c ∈ item.filename, NameChar c
  content_type : fields.is_field_value item.content_type = true
  content : ¬ crlf_dash_boundary boundary <:+: item.content
  length : ∀ x ∈ itemFields item, (headerLine x).length ≤ CPPHTTPLIB_HEADER_MAX_LENGTH + 1

/-- What a parser makes of the fields of an item. -/
def formData (item : UploadFormData) : FormData :=
  ⟨item.name, [], item.filename, item.content_type, (itemFields item).map received⟩

variable {item : UploadFormData} {boundary : Bytes}

section Reading

variable (header_callback : ρ → FormData → Option ρ) (content_callback : ρ → Bytes → Option ρ)

/-- What the callbacks make of the items of a form, each with its content in one piece. -/
def deliver (r : ρ) : List UploadFormData → Option ρ
  | [] => some r
  | item :: items =>
      ((header_callback r (formData item)).bind (content_callback · item.content)).bind
        (deliver · items)

/-- What a parser waits for: the bytes of its buffer and of the pieces to come, from which the
callbacks make `final`. -/
inductive Awaits (final : ρ) : FormDataParser → ρ → Bytes → Prop
  | initial {p : FormDataParser} {r : ρ} {item : UploadFormData} {items : List UploadFormData}
      (state : p.state = .initial) (good : ∀ i ∈ item :: items, Serializable p.boundary i)
      (delivers : deliver header_callback content_callback r (item :: items) = some final) :
      Awaits final p r (dash ++ p.boundary ++ afterBoundary p.boundary (item :: items))
  | entry {p : FormDataParser} {r : ρ} {item : UploadFormData} {items : List UploadFormData}
      (state : p.state = .entry) (good : ∀ i ∈ item :: items, Serializable p.boundary i)
      (delivers : deliver header_callback content_callback r (item :: items) = some final) :
      Awaits final p r (write_headers (itemFields item)
        ++ (item.content ++ (crlf_dash_boundary p.boundary ++ afterBoundary p.boundary items)))
  | headers {p : FormDataParser} {r : ρ} {item : UploadFormData} {items : List UploadFormData}
      {fields : Headers} (state : p.state = .headers)
      (good : ∀ i ∈ item :: items, Serializable p.boundary i)
      (wellformed : ∀ x ∈ fields, Wellformed x)
      (length : ∀ x ∈ fields, (headerLine x).length ≤ CPPHTTPLIB_HEADER_MAX_LENGTH + 1)
      (file : fields.foldlM (fun file x => parseField file (x.1 ++ ascii ": " ++ x.2)) p.file =
        some (formData item))
      (delivers : deliver header_callback content_callback r (item :: items) = some final) :
      Awaits final p r (write_headers fields
        ++ (item.content ++ (crlf_dash_boundary p.boundary ++ afterBoundary p.boundary items)))
  | body {p : FormDataParser} {r : ρ} {content : Bytes} {items : List UploadFormData}
      (state : p.state = .body) (good : ∀ i ∈ items, Serializable p.boundary i)
      (leads : Leads (crlf_dash_boundary p.boundary) content)
      (delivers : (content_callback r content).bind
        (deliver header_callback content_callback · items) = some final) :
      Awaits final p r
        (content ++ (crlf_dash_boundary p.boundary ++ afterBoundary p.boundary items))
  | boundary {p : FormDataParser} {r : ρ} {items : List UploadFormData}
      (state : p.state = .boundary) (good : ∀ i ∈ items, Serializable p.boundary i)
      (delivers : deliver header_callback content_callback r items = some final) :
      Awaits final p r (afterBoundary p.boundary items)
  | ended {p : FormDataParser} {bytes : Bytes} (state : p.state = .boundary)
      (is_valid : p.is_valid = true) (epilogue : bytes <:+ crlf) : Awaits final p final bytes
  | closed {p : FormDataParser} (state : p.state = .entry) (is_valid : p.is_valid = true) :
      Awaits final p final []

variable {header_callback content_callback} {final r : ρ} {p : FormDataParser} {rest text : Bytes}
  {items : List UploadFormData}

/-- A parser that waits although all bytes have come has read the whole form. -/
theorem Awaits.of_nil (h : Awaits header_callback content_callback final p r text)
    (htext : text = []) :
  p.is_valid = true ∧ r = final
  := by
  cases h with
  | initial => simp [dash, ascii] at htext
  | entry => simp [write_headers, crlf] at htext
  | headers => simp [write_headers, crlf] at htext
  | body => simp [crlf_dash_boundary, crlf] at htext
  | @boundary _ items =>
      cases items with
      | nil => simp [afterBoundary, dash, ascii] at htext
      | cons item items => simp [afterBoundary, crlf] at htext
  | ended _ hvalid => exact ⟨hvalid, rfl⟩
  | closed _ hvalid => exact ⟨hvalid, rfl⟩

end Reading

end Httplib
end Koroutine
