import Koroutine.Httplib.Text

/-!
# Percent encoding

The four encoders of `httplib.h` differ in the characters that they keep, and the decoders in what
they take for an escape: `decode_uri_component` and `decode_uri` want two digits,
`decode_path_component` also knows `%uXXXX`, and `decode_query_component` reads its two characters
with `strtoul` and may read `+` as a space.  Each decoder undoes the encoder of its name on every
string of bytes (`decode_encode`).
-/

namespace Koroutine

namespace Httplib

/-! ### Encoders -/

def percent (c : UInt8) : Bytes :=
  [37, upperCharset (c.toNat / 16), upperCharset (c.toNat % 16)]

/-- The loop of an encoder that keeps some characters. -/
def encodeBut (keep : UInt8 → Bool) (value : Bytes) : Bytes :=
  value.flatMap fun c => if keep c then [c] else percent c

def encode_uri_component : Bytes → Bytes :=
  encodeBut fun c => isalnum c || c ∈ ascii "-_.!~*'()"

def encode_uri : Bytes → Bytes :=
  encodeBut fun c => isalnum c || c ∈ ascii "-_.!~*'();/?:@&=+$,#"

def encode_path_component : Bytes → Bytes :=
  encodeBut fun c => isalnum c || c ∈ ascii "-._~!$&'()*+,;=:@"

/-- One character of `encode_query_component`. -/
def queryCharacter (space_as_plus : Bool) (c : UInt8) : Bytes :=
  if isalnum c || c ∈ ascii "-._~" then [c]
  else if c = 32 then (if space_as_plus then ascii "+" else ascii "%20")
  else if c = 43 then (if space_as_plus then ascii "%2B" else [c])
  else if c ∈ ascii "!$'()*,;:@/?" then [c]
  else percent c

def encode_query_component (component : Bytes) (space_as_plus : Bool) : Bytes :=
  component.flatMap (queryCharacter space_as_plus)

/-! ### Decoders -/

/-- The loop that `decode_uri_component` and `decode_uri` have in common. -/
def decodeLoop : Bytes → Bytes
  | [] => []
  | c :: l =>
      if c = 37 ∧ 2 ≤ l.length then
        match from_hex_to_i l 2 with
        | some val => UInt8.ofNat val :: decodeLoop (l.drop 2)
        | none => c :: decodeLoop l
      else c :: decodeLoop l
  termination_by l => l.length
  decreasing_by
    all_goals simp only [List.length_drop, List.length_cons]
    all_goals omega

def decode_uri_component (value : Bytes) : Bytes := decodeLoop value

def decode_uri (value : Bytes) : Bytes := decodeLoop value

/-- `to_utf8`: the bytes that it puts into the buffer. -/
def to_utf8 (code : ℕ) : Bytes :=
  if code < 0x0080 then [UInt8.ofNat (code &&& 0x7F)]
  else if code < 0x0800 then
    [UInt8.ofNat (0xC0 ||| ((code >>> 6) &&& 0x1F)), UInt8.ofNat (0x80 ||| (code &&& 0x3F))]
  else if code < 0xD800 then
    [UInt8.ofNat (0xE0 ||| ((code >>> 12) &&& 0xF)), UInt8.ofNat (0x80 ||| ((code >>> 6) &&& 0x3F)),
      UInt8.ofNat (0x80 ||| (code &&& 0x3F))]
  else if code < 0xE000 then []
  else if code < 0x10000 then
    [UInt8.ofNat (0xE0 ||| ((code >>> 12) &&& 0xF)), UInt8.ofNat (0x80 ||| ((code >>> 6) &&& 0x3F)),
      UInt8.ofNat (0x80 ||| (code &&& 0x3F))]
  else if code < 0x110000 then
    [UInt8.ofNat (0xF0 ||| ((code >>> 18) &&& 0x7)), UInt8.ofNat (0x80 ||| ((code >>> 12) &&& 0x3F)),
      UInt8.ofNat (0x80 ||| ((code >>> 6) &&& 0x3F)), UInt8.ofNat (0x80 ||| (code &&& 0x3F))]
  else []

def decode_path_component : Bytes → Bytes
  | [] => []
  | c :: l =>
      if c = 37 ∧ 1 ≤ l.length then
        if l.head? = some 117 then
          match from_hex_to_i l.tail 4 with
          | some val => to_utf8 val ++ decode_path_component (l.drop 5)
          | none => c :: decode_path_component l
        else
          match from_hex_to_i l 2 with
          | some val => UInt8.ofNat val :: decode_path_component (l.drop 2)
          | none => c :: decode_path_component l
      else c :: decode_path_component l
  termination_by l => l.length
  decreasing_by
    all_goals simp only [List.length_drop, List.length_cons]
    all_goals omega

def decode_query_component : Bytes → Bool → Bytes
  | [], _ => []
  | c :: l, plus_as_space =>
      if c = 37 ∧ 2 ≤ l.length then
        let (value, endptr) := strtoul (l.take 2)
        if endptr = [] then UInt8.ofNat value :: decode_query_component (l.drop 2) plus_as_space
        else c :: decode_query_component l plus_as_space
      else if c = 43 ∧ plus_as_space then 32 :: decode_query_component l plus_as_space
      else c :: decode_query_component l plus_as_space
  termination_by l => l.length
  decreasing_by
    all_goals simp only [List.length_drop, List.length_cons]
    all_goals omega

/-! ### Escapes -/

variable {c : UInt8} {l : Bytes} {plus_as_space : Bool}

theorem is_hex_percent (c : UInt8) :
  is_hex (upperCharset (c.toNat / 16)) = some (c.toNat / 16)
    ∧ is_hex (upperCharset (c.toNat % 16)) = some (c.toNat % 16)
  := by
  have hlt := c.toNat_lt
  constructor
  · apply is_hex_upperCharset
    omega
  · apply is_hex_upperCharset
    omega

theorem from_hex_to_i_percent (c : UInt8) (l : Bytes) :
  from_hex_to_i (upperCharset (c.toNat / 16) :: upperCharset (c.toNat % 16) :: l) 2 =
    some c.toNat
  := by
  simp [from_hex_to_i, from_hex_to_iLoop, is_hex_percent c, Nat.div_add_mod']

theorem strtoul_percent (c : UInt8) :
  strtoul [upperCharset (c.toNat / 16), upperCharset (c.toNat % 16)] = (c.toNat, [])
  := by
  have hlt := c.toNat_lt
  have hvalue : hexValue 0 [upperCharset (c.toNat / 16), upperCharset (c.toNat % 16)] =
      c.toNat := by
    simp [hexValue, is_hex_percent c, Nat.div_add_mod']
  have hdigits : ∀ d ∈ [upperCharset (c.toNat / 16), upperCharset (c.toNat % 16)],
      isxdigit d = true := by
    simp [isxdigit, is_hex_percent c]
  have hend : EndsNumber [] := by simp [EndsNumber]
  have hstrtoul := strtoul_of_digits hdigits hend (by simp) (by rw [hvalue, ULONG_MAX]; omega)
  rwa [List.append_nil, hvalue] at hstrtoul

theorem decodeLoop_kept (h : c ≠ 37) :
  decodeLoop (c :: l) = c :: decodeLoop l
  := by
  rw [decodeLoop, if_neg (by simp [h])]

theorem decodeLoop_percent :
  decodeLoop (percent c ++ l) = c :: decodeLoop l
  := by
  simp [percent, decodeLoop, from_hex_to_i_percent]

theorem decode_path_component_kept (h : c ≠ 37) :
  decode_path_component (c :: l) = c :: decode_path_component l
  := by
  rw [decode_path_component, if_neg (by simp [h])]

/-- An escape of two digits does not begin with `u`. -/
theorem decode_path_component_percent :
  decode_path_component (percent c ++ l) = c :: decode_path_component l
  := by
  have hdigit : upperCharset (c.toNat / 16) ≠ 117 := by
    intro h
    have hex := (is_hex_percent c).1
    rw [h] at hex
    exact absurd hex (by simp [is_hex, isdigit])
  simp [percent, decode_path_component, from_hex_to_i_percent, hdigit]

theorem decode_query_component_kept (h : c ≠ 37) (hplus : c ≠ 43 ∨ plus_as_space = false) :
  decode_query_component (c :: l) plus_as_space = c :: decode_query_component l plus_as_space
  := by
  rw [decode_query_component, if_neg (by simp [h]), if_neg (by grind)]

theorem decode_query_component_percent :
  decode_query_component (percent c ++ l) plus_as_space =
    c :: decode_query_component l plus_as_space
  := by
  simp [percent, decode_query_component, strtoul_percent]

/-! ### Decoding what has been encoded -/

/-- A decoder that undoes the encoding of each character undoes that of a string. -/
theorem decode_flatMap {decode : Bytes → Bytes} {encode : UInt8 → Bytes}
    (h : ∀ c l, decode (encode c ++ l) = c :: decode l) (value l : Bytes) :
  decode (value.flatMap encode ++ l) = value ++ decode l
  := by
  induction value with
  | nil => rfl
  | cons c value ih => rw [List.flatMap_cons, List.append_assoc, h, ih, List.cons_append]

theorem decode_encodeBut {decode : Bytes → Bytes} {keep : UInt8 → Bool} (hnil : decode [] = [])
    (hkeep : ∀ c l, keep c = true → decode (c :: l) = c :: decode l)
    (hpercent : ∀ c l, decode (percent c ++ l) = c :: decode l) (value : Bytes) :
  decode (encodeBut keep value) = value
  := by
  have hcharacter : ∀ c l,
      decode ((if keep c then [c] else percent c) ++ l) = c :: decode l := by
    intro c l
    split
    · next hc => exact hkeep c l hc
    · apply hpercent
  have hdecode := decode_flatMap hcharacter value []
  rwa [List.append_nil, hnil, List.append_nil] at hdecode

theorem queryCharacter_cases (space_as_plus : Bool) (c : UInt8) :
  (queryCharacter space_as_plus c = [c] ∧ c ≠ 37 ∧ (c ≠ 43 ∨ space_as_plus = false))
    ∨ (queryCharacter space_as_plus c = [43] ∧ c = 32 ∧ space_as_plus = true)
    ∨ queryCharacter space_as_plus c = percent c
  := by
  revert c
  cases space_as_plus
  all_goals apply forall_byte
  all_goals decide +kernel

theorem decode_queryCharacter :
  decode_query_component (queryCharacter plus_as_space c ++ l) plus_as_space =
    c :: decode_query_component l plus_as_space
  := by
  rcases queryCharacter_cases plus_as_space c with ⟨hc, hne, hplus⟩ | ⟨hc, rfl, rfl⟩ | hc
  · rw [hc]
    exact decode_query_component_kept hne hplus
  · rw [hc]
    simp [decode_query_component]
  · rw [hc, decode_query_component_percent]

theorem decode_encode_query_component (component : Bytes) (space_as_plus : Bool) :
  decode_query_component (encode_query_component component space_as_plus) space_as_plus =
    component
  := by
  have hdecode := @decode_flatMap (decode_query_component · space_as_plus)
    (queryCharacter space_as_plus) (fun c l => decode_queryCharacter) component []
  simpa [encode_query_component, decode_query_component] using hdecode

/-- Every encoder of URI text is undone by the decoder that goes with it, on all strings of bytes:
`%`, `+` and bytes above 127 included. -/
theorem decode_encode (value : Bytes) (space_as_plus : Bool) :
  decode_uri_component (encode_uri_component value) = value
    ∧ decode_uri (encode_uri value) = value
    ∧ decode_path_component (encode_path_component value) = value
    ∧ decode_query_component (encode_query_component value space_as_plus) space_as_plus = value
  := by
  refine ⟨?_, ?_, ?_, decode_encode_query_component value space_as_plus⟩
  · apply decode_encodeBut
    · rw [decode_uri_component, decodeLoop]
    · intro c l hc
      apply decodeLoop_kept
      rintro rfl
      exact absurd hc (by decide)
    · intro c l
      apply decodeLoop_percent
  · apply decode_encodeBut
    · rw [decode_uri, decodeLoop]
    · intro c l hc
      apply decodeLoop_kept
      rintro rfl
      exact absurd hc (by decide)
    · intro c l
      apply decodeLoop_percent
  · apply decode_encodeBut
    · rw [decode_path_component]
    · intro c l hc
      apply decode_path_component_kept
      rintro rfl
      exact absurd hc (by decide)
    · intro c l
      apply decode_path_component_percent

end Httplib
end Koroutine
