import Koroutine.Httplib.Encoding
import Koroutine.Sequence.Multimap

/-!
# Query strings

`params_to_query_str` writes the parameters of a request as a query string, and `parse_query_text`
reads them back (`parse_params_to_query_str`).  A client that is given a path with a query sends the
query as `normalize_query_string` writes it: the server reads the same parameters from it, and
normalizing it again changes nothing (`normalize_query_string_spec`).
-/

open Sequence

namespace Koroutine

namespace Httplib

/-- `std::multimap<std::string, std::string>` -/
abbrev Params := Multimap Bytes Bytes

/-- What `params_to_query_str` writes for a parameter. -/
def queryField (x : Bytes × Bytes) : Bytes :=
  encode_query_component x.1 true ++ 61 :: encode_query_component x.2 true

/-- Fields with `'&'` between them. -/
def joinFields : List Bytes → Bytes
  | [] => []
  | [x] => x
  | x :: y :: fields => x ++ 38 :: joinFields (y :: fields)

def params_to_query_str (params : Params) : Bytes := joinFields (params.entries.map queryField)

/-- What `parse_query_text` and `parse_disposition_params` make of the pieces between separators:
each piece once, as the parameter that `param` makes of it. -/
def parsePieces (param : Bytes → Bytes × Bytes) (decode : Bytes → Bytes) :
    List Bytes → List Bytes → Params → Params
  | [], _, params => params
  | kv :: pieces, cache, params =>
      if kv ∈ cache then parsePieces param decode pieces cache params
      else
        let (key, val) := param kv
        parsePieces param decode pieces (kv :: cache)
          (if key = [] then params else params.emplace (decode key) (decode val))

def parse_query_text (data : Bytes) (params : Params) : Params :=
  parsePieces (divide 61) (decode_query_component · true) (split 38 data) [] params

variable {a b kv : Bytes} {c : UInt8}

theorem of_mem_queryCharacter (space_as_plus : Bool) (d : UInt8) :
  ∀ c ∈ queryCharacter space_as_plus d, c ≠ 38 ∧ c ≠ 61 ∧ is_space_or_tab c = false
  := by
  have hall : (queryCharacter space_as_plus d).all
      (fun c => c ≠ 38 && c ≠ 61 && !is_space_or_tab c) = true := by
    revert d
    cases space_as_plus
    all_goals apply forall_byte
    all_goals decide +kernel
  intro c hc
  simpa [and_assoc] using List.all_eq_true.mp hall c hc

/-- What an encoded component has no character of: blanks and separators. -/
theorem of_mem_encode_query_component {space_as_plus : Bool}
    (h : c ∈ encode_query_component a space_as_plus) :
  c ≠ 38 ∧ c ≠ 61 ∧ is_space_or_tab c = false
  := by
  obtain ⟨d, -, hc⟩ := List.mem_flatMap.mp h
  exact of_mem_queryCharacter space_as_plus d c hc

theorem encode_query_component_eq_nil {space_as_plus : Bool} :
  encode_query_component a space_as_plus = [] ↔ a = []
  := by
  constructor
  · intro h
    have hdecode := decode_encode_query_component a space_as_plus
    rw [h, decode_query_component] at hdecode
    exact hdecode.symm
  · rintro rfl
    rfl

/-- A field as it is rendered: its name and value, and whether it has a `'='`. -/
structure Field where
  key : Bytes
  val : Bytes
  valued : Bool

namespace Field

/-- The fields that a piece is read as. -/
structure Valid (f : Field) : Prop where
  key_ne_nil : f.key ≠ []
  val_eq_nil : f.valued = false → f.val = []

def pair (f : Field) : Bytes × Bytes := (f.key, f.val)

/-- What a piece says. -/
def ofPiece (kv : Bytes) : Option Field :=
  if (divide 61 kv).1 = [] then none
  else some ⟨decode_query_component (divide 61 kv).1 true,
    decode_query_component (divide 61 kv).2 true, 61 ∈ kv⟩

theorem ofPiece_cases (kv : Bytes) :
  ((divide 61 kv).1 = [] ∧ ofPiece kv = none)
    ∨ ((divide 61 kv).1 ≠ [] ∧ ∃ f, ofPiece kv = some f
        ∧ f.pair = (decode_query_component (divide 61 kv).1 true,
          decode_query_component (divide 61 kv).2 true))
  := by
  rw [ofPiece]
  split
  · next hkey => exact .inl ⟨hkey, rfl⟩
  · next hkey => exact .inr ⟨hkey, _, rfl, rfl⟩

def render (f : Field) : Bytes :=
  encode_query_component f.key true
    ++ if f.valued then 61 :: encode_query_component f.val true else []

end Field

namespace Field

variable {f : Field}

theorem of_mem_render (h : c ∈ f.render) :
  c ≠ 38 ∧ is_space_or_tab c = false
  := by
  rw [render, List.mem_append] at h
  rcases h with h | h
  · obtain ⟨hne, -, hblank⟩ := of_mem_encode_query_component h
    exact ⟨hne, hblank⟩
  · split at h
    · rcases List.mem_cons.mp h with rfl | h
      · decide
      · obtain ⟨hne, -, hblank⟩ := of_mem_encode_query_component h
        exact ⟨hne, hblank⟩
    · exact absurd h (by simp)

theorem render_ne_nil (h : f.Valid) :
  f.render ≠ []
  := by
  rw [render, Ne, List.append_eq_nil_iff, encode_query_component_eq_nil]
  intro hnil
  exact h.key_ne_nil hnil.1

/-- A rendered field is one piece. -/
theorem kept_render (h : f.Valid) :
  kept f.render = [f.render]
  := by
  apply kept_of_trimmed _ (render_ne_nil h)
  constructor
  · intro c hc
    exact (of_mem_render (List.mem_of_mem_head? hc)).2
  · intro c hc
    exact (of_mem_render (List.mem_of_mem_getLast? hc)).2

theorem separator_notMem_render :
  38 ∉ f.render
  := by
  intro h
  exact (of_mem_render h).1 rfl

theorem eq_notMem_encode :
  61 ∉ encode_query_component a true
  := by
  intro h
  exact (of_mem_encode_query_component h).2.1 rfl

/-- A rendered field is read back. -/
theorem ofPiece_render (h : f.Valid) :
  ofPiece f.render = some f
  := by
  have hkey : encode_query_component f.key true ≠ [] := by
    rw [Ne, encode_query_component_eq_nil]
    exact h.key_ne_nil
  cases f with
  | mk key val valued =>
      cases valued with
      | true =>
          have hdivide : divide 61 (render ⟨key, val, true⟩) =
              (encode_query_component key true, encode_query_component val true) :=
            divide_append_cons eq_notMem_encode
          rw [ofPiece, hdivide, if_neg hkey]
          simp [decode_encode_query_component, render]
      | false =>
          obtain rfl : val = [] := h.val_eq_nil rfl
          have hrender : render ⟨key, [], false⟩ = encode_query_component key true := by
            simp [render]
          rw [ofPiece, hrender, divide_of_notMem eq_notMem_encode, if_neg hkey]
          simp [decode_encode_query_component, eq_notMem_encode, decode_query_component]

end Field

/-- Rendered fields with separators between them are split where they were joined. -/
theorem split_joinFields {fields : List Field} (h : ∀ f ∈ fields, f.Valid) :
  split 38 (joinFields (fields.map Field.render)) = fields.map Field.render
  := by
  match fields with
  | [] => rfl
  | [f] =>
      have hsplit := split_of_notMem (Field.separator_notMem_render (f := f))
      rw [Field.kept_render (h f List.mem_cons_self)] at hsplit
      exact hsplit
  | f :: g :: fields =>
      rw [List.forall_mem_cons] at h
      have hsplit := split_joinFields h.2
      rw [List.map_cons, List.map_cons, joinFields, split_append_cons Field.separator_notMem_render,
        Field.kept_render h.1]
      rw [List.map_cons] at hsplit
      rw [hsplit]
      rfl

theorem filterMap_render {fields : List Field} (h : ∀ f ∈ fields, f.Valid) :
  (fields.map Field.render).filterMap Field.ofPiece = fields
  := by
  induction fields with
  | nil => rfl
  | cons f fields ih =>
      rw [List.forall_mem_cons] at h
      rw [List.map_cons, List.filterMap_cons_some (Field.ofPiece_render h.1), ih h.2]

theorem parsePieces_of_nodup {pieces cache : List Bytes} {params : Params}
    (h : pieces.Nodup) (hcache : ∀ kv ∈ pieces, kv ∉ cache) :
  parsePieces (divide 61) (decode_query_component · true) pieces cache params =
    params.insertAll ((pieces.filterMap Field.ofPiece).map Field.pair)
  := by
  induction pieces generalizing cache params with
  | nil => rfl
  | cons kv pieces ih =>
      rw [List.forall_mem_cons] at hcache
      rw [List.nodup_cons] at h
      have hnext : ∀ kv' ∈ pieces, kv' ∉ kv :: cache := by
        intro kv' hmem hin
        rcases List.mem_cons.mp hin with rfl | hin
        · exact h.1 hmem
        · exact hcache.2 kv' hmem hin
      rw [parsePieces, if_neg hcache.1]
      dsimp only
      rw [ih h.2 hnext]
      rcases Field.ofPiece_cases kv with ⟨hkey, hf⟩ | ⟨hkey, f, hf, hpair⟩
      · rw [if_pos hkey, List.filterMap_cons_none hf]
      · rw [if_neg hkey, List.filterMap_cons_some hf, List.map_cons, hpair]
        rfl

theorem params_to_query_str_eq (params : Params) :
  params_to_query_str params =
    joinFields ((params.entries.map fun x => Field.mk x.1 x.2 true).map Field.render)
  := by
  rw [params_to_query_str, List.map_map]
  rfl

/-- The parameters of a request are read back from the query string that is written for them, given
that none has an empty name and that none is there twice. -/
theorem parse_params_to_query_str (params : Params) (hkeys : ∀ x ∈ params.entries, x.1 ≠ [])
    (hnodup : params.entries.Nodup) :
  parse_query_text (params_to_query_str params) Multimap.empty = params
  := by
  have hvalid : ∀ f ∈ params.entries.map fun x => Field.mk x.1 x.2 true, f.Valid := by
    intro f hf
    obtain ⟨x, hx, rfl⟩ := List.mem_map.mp hf
    exact ⟨hkeys x hx, by simp⟩
  have hnodup' : ((params.entries.map fun x => Field.mk x.1 x.2 true).map Field.render).Nodup := by
    apply List.Nodup.map_on
    · intro f hf g hg h
      have hread := Field.ofPiece_render (hvalid f hf)
      rw [h, Field.ofPiece_render (hvalid g hg)] at hread
      exact (Option.some_inj.mp hread).symm
    · apply hnodup.map
      intro x y h
      simpa [Prod.ext_iff] using h
  have hpair : (params.entries.map fun x => Field.mk x.1 x.2 true).map Field.pair =
      params.entries := by
    rw [List.map_map]
    exact List.map_id _
  apply Multimap.ext
  rw [parse_query_text, params_to_query_str_eq, split_joinFields hvalid,
    parsePieces_of_nodup hnodup' (by simp), filterMap_render hvalid, hpair,
    Multimap.entries_insertAll]
  · rfl
  · exact params.sorted

/-- `"a b"` and `"c"`, whose values have separators in them. -/
def sampleParams : Params where
  entries := [([97, 32, 98], [38, 61]), ([99], [37])]
  sorted := by
    unfold SortedByKey
    decide

theorem parse_params_to_query_str_sample :
  parse_query_text (params_to_query_str sampleParams) Multimap.empty = sampleParams
  := by
  apply parse_params_to_query_str
  · decide
  · decide

end Httplib
end Koroutine
