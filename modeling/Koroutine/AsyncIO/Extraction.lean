import Koroutine.Sequence.Words
import Mathlib.Data.Int.Notation
import Mathlib.Data.List.Chain

/-!
# `operator>>` of `StandardStream`

An extraction reads single bytes into a `char`, which is signed, skips white space and collects
bytes up to the next white space or the end of file.  The stream is what is left to read; at its end
`read` returns 0.
-/

open Sequence

namespace Koroutine

namespace StandardStream

/-- The value of a byte that is read into a signed `char`. -/
def char (b : UInt8) : ℤ :=
  if b.toNat < 128 then b.toNat else b.toNat - 256

/-- The value of `EOF`. -/
def eof : ℤ := -1

/-- `std::isspace`, which is undefined unless its argument is the value of an `unsigned char` or
`EOF`. -/
def isspace (c : ℤ) : Option Bool :=
  if c = eof ∨ 0 ≤ c ∧ c ≤ 255 then some (decide (c = 32 ∨ 9 ≤ c ∧ c ≤ 13)) else none

/-- The loop of `operator>>`: the value it ends with, and the bytes it leaves. -/
def extractLoop : List UInt8 → Bool → List UInt8 → Option (List UInt8 × List UInt8)
  -- n == 0
  | [], _, value => some (value, [])
  | c :: stream, skip_ws, value =>
      match isspace (char c) with
      | none => none
      | some true => if skip_ws then extractLoop stream skip_ws value else some (value, stream)
      | some false => extractLoop stream false (value ++ [c])

/-- `operator>>`, which clears the value first. -/
def extract (stream : List UInt8) : Option (List UInt8 × List UInt8) :=
  extractLoop stream true []

/-- Successive extractions: the value of each, and the bytes it leaves. -/
def extracts : ℕ → List UInt8 → Option (List (List UInt8 × List UInt8))
  | 0, _ => some []
  | k + 1, stream =>
      (extract stream).bind fun x => (extracts k x.2).map fun xs => x :: xs

/-! ### White space -/

/-- The white space of the "C" locale. -/
def blank (b : UInt8) : Bool :=
  decide (b.toNat = 32 ∨ 9 ≤ b.toNat ∧ b.toNat ≤ 13)

/-- The bytes whose `char` is in the domain of `isspace`. -/
def Classified (b : UInt8) : Prop :=
  b.toNat < 128 ∨ b.toNat = 255

theorem isspace_char {b : UInt8} (h : Classified b) :
  isspace (char b) = some (blank b)
  := by
  unfold Classified at h
  have hdomain : char b = eof ∨ 0 ≤ char b ∧ char b ≤ 255 := by
    unfold char eof
    omega
  have hspace : (char b = 32 ∨ 9 ≤ char b ∧ char b ≤ 13) ↔
      (b.toNat = 32 ∨ 9 ≤ b.toNat ∧ b.toNat ≤ 13) := by
    unfold char
    omega
  simp only [isspace, blank, if_pos hdomain, hspace]

theorem classified_of_isspace {b : UInt8} {space : Bool} (h : isspace (char b) = some space) :
  Classified b
  := by
  have hdomain : char b = eof ∨ 0 ≤ char b ∧ char b ≤ 255 := by
    by_contra hout
    simp [isspace, hout] at h
  have hbyte := b.toNat_lt
  unfold char eof at hdomain
  unfold Classified
  omega

/-! ### One extraction -/

variable {stream w rest value : List UInt8} {skip_ws : Bool}

theorem extractLoop_blank {b : UInt8} (hb : Classified b) (hblank : blank b = true) :
  extractLoop (b :: stream) true value = extractLoop stream true value
  := by
  simp [extractLoop, isspace_char hb, hblank]

theorem extractLoop_separator {b : UInt8} (hb : Classified b) (hblank : blank b = true) :
  extractLoop (b :: stream) false value = some (value, stream)
  := by
  simp [extractLoop, isspace_char hb, hblank]

theorem extractLoop_char {b : UInt8} (hb : Classified b) (hblank : blank b = false) :
  extractLoop (b :: stream) skip_ws value = extractLoop stream false (value ++ [b])
  := by
  simp [extractLoop, isspace_char hb, hblank]

/-- Leading white space is skipped. -/
theorem extractLoop_leading {l : List UInt8} (hl : ∀ b ∈ l, Classified b)
    (hblank : ∀ b ∈ l, blank b = true) :
  extractLoop (l ++ stream) true value = extractLoop stream true value
  := by
  induction l with
  | nil => rfl
  | cons b l ih =>
      rw [List.cons_append,
        extractLoop_blank (hl b List.mem_cons_self) (hblank b List.mem_cons_self)]
      apply ih
      · intro c hc
        apply hl c (List.mem_cons_of_mem _ hc)
      · intro c hc
        apply hblank c (List.mem_cons_of_mem _ hc)

/-- The bytes of a word are appended to the value. -/
theorem extractLoop_word (hw : ∀ b ∈ w, Classified b) (hchar : ∀ b ∈ w, blank b = false) :
  extractLoop (w ++ stream) false value = extractLoop stream false (value ++ w)
  := by
  induction w generalizing value with
  | nil => simp
  | cons b w ih =>
      rw [List.cons_append,
        extractLoop_char (hw b List.mem_cons_self) (hchar b List.mem_cons_self), ih]
      · simp
      · intro c hc
        apply hw c (List.mem_cons_of_mem _ hc)
      · intro c hc
        apply hchar c (List.mem_cons_of_mem _ hc)

/-- So are those of the word that is found first. -/
theorem extractLoop_first (hw : ∀ b ∈ w, Classified b) (hchar : ∀ b ∈ w, blank b = false)
    (hne : w ≠ []) :
  extractLoop (w ++ stream) true [] = extractLoop stream false w
  := by
  cases w with
  | nil => exact absurd rfl hne
  | cons b w =>
      rw [List.cons_append, extractLoop_char (hw b List.mem_cons_self) (hchar b List.mem_cons_self),
        extractLoop_word]
      · rfl
      · intro c hc
        apply hw c (List.mem_cons_of_mem _ hc)
      · intro c hc
        apply hchar c (List.mem_cons_of_mem _ hc)

/-- An extraction of bytes that can be classified cuts the first word off. -/
theorem extract_of_cut (hstream : ∀ b ∈ stream, Classified b) (h : Cut blank stream w rest) :
  extract stream = some (w, rest)
  := by
  unfold extract
  cases h with
  | blank hl =>
      have hskip : extractLoop (stream ++ []) true [] = extractLoop [] true [] :=
        extractLoop_leading hstream hl
      rw [List.append_nil] at hskip
      rw [hskip]
      rfl
  | @last l w hl hne hw =>
      have hbytes : ∀ b ∈ w, Classified b := by
        intro b hb
        apply hstream b (List.mem_append_right _ hb)
      rw [extractLoop_leading _ hl]
      · have hword : extractLoop (w ++ []) true [] = extractLoop [] false w :=
          extractLoop_first hbytes hw hne
        rw [List.append_nil] at hword
        rw [hword]
        rfl
      · intro b hb
        apply hstream b (List.mem_append_left _ hb)
  | @word l w a rest hl hne hw ha =>
      rw [List.append_assoc] at hstream ⊢
      rw [extractLoop_leading _ hl, extractLoop_first _ hw hne, extractLoop_separator _ ha]
      · apply hstream a
        simp
      · intro b hb
        apply hstream b
        simp [hb]
      · intro b hb
        apply hstream b
        simp [hb]

/-- What an extraction consumes can be classified. -/
theorem classified_of_extractLoop (h : extractLoop stream skip_ws value = some (w, rest)) :
  ∃ consumed, stream = consumed ++ rest ∧ (∀ b ∈ consumed, Classified b) ∧
    (stream ≠ [] → consumed ≠ [])
  := by
  induction stream generalizing skip_ws value with
  | nil =>
      obtain ⟨-, rfl⟩ : value = w ∧ [] = rest := by simpa [extractLoop] using h
      use []
      simp
  | cons b stream ih =>
      have hgo : ∀ {skip_ws value}, Classified b →
          extractLoop stream skip_ws value = some (w, rest) →
          ∃ consumed, b :: stream = consumed ++ rest ∧ (∀ b ∈ consumed, Classified b) ∧
            (b :: stream ≠ [] → consumed ≠ []) := by
        intro skip_ws value hb hrest
        obtain ⟨consumed, rfl, hconsumed, -⟩ := ih hrest
        use b :: consumed
        simpa [hb] using hconsumed
      unfold extractLoop at h
      split at h
      · contradiction
      · next hspace =>
          have hb := classified_of_isspace hspace
          split at h
          · apply hgo hb h
          · obtain ⟨-, rfl⟩ : value = w ∧ stream = rest := by simpa using h
            use [b]
            simpa using hb
      · next hspace => apply hgo (classified_of_isspace hspace) h

/-! ### Repeated extraction -/

/-- Repeated extraction yields the words of the stream in order and then empty strings, and each
extraction consumes the leading white space, the word, and at most one byte behind it. -/
def Tokenizes (stream : List UInt8) : Prop :=
  ∀ k, ∃ xs, extracts k stream = some xs ∧
    xs.map Prod.fst = (List.range k).map (fun i => ((words blank stream)[i]?).getD []) ∧
    List.IsChain (fun x y => Cut blank x.2 y.1 y.2) (([], stream) :: xs)

theorem tokenizes_of_classified (h : ∀ b ∈ stream, Classified b) :
  Tokenizes stream
  := by
  intro k
  induction k generalizing stream with
  | zero => exact ⟨[], rfl, rfl, List.isChain_singleton _⟩
  | succ k ih =>
      obtain ⟨w, rest, hcut⟩ := exists_cut blank stream
      have hextract := extract_of_cut h hcut
      have hrest : ∀ b ∈ rest, Classified b := by
        obtain ⟨consumed, rfl, -⟩ := classified_of_extractLoop hextract
        intro b hb
        apply h b (List.mem_append_right _ hb)
      obtain ⟨xs, hxs, hvalues, hchain⟩ := ih hrest
      use (w, rest) :: xs
      refine ⟨?_, ?_, ?_⟩
      · simp [extracts, hextract, hxs]
      · rw [List.map_cons, hvalues, List.range_succ_eq_map, List.map_cons, List.map_map]
        congr 1
        · simp [hcut.getD_words]
        · apply List.map_congr_left
          intro i _
          simp [hcut.getD_words]
      · rw [List.isChain_cons_cons]
        constructor
        · apply hcut
        · cases hchain with
          | singleton => apply List.isChain_singleton
          | cons_cons hfirst hchain => exact List.isChain_cons_cons.mpr ⟨hfirst, hchain⟩

/-- As many extractions as there are bytes read all of them. -/
theorem classified_of_extracts {k : ℕ} (hk : stream.length ≤ k)
    {xs : List (List UInt8 × List UInt8)} (h : extracts k stream = some xs) :
  ∀ b ∈ stream, Classified b
  := by
  induction k generalizing stream xs with
  | zero =>
      rw [List.eq_nil_of_length_eq_zero (Nat.le_zero.mp hk)]
      simp
  | succ k ih =>
      obtain ⟨⟨w, rest⟩, hfirst, hrest⟩ := Option.bind_eq_some_iff.mp h
      obtain ⟨ys, hys, -⟩ := Option.map_eq_some_iff.mp hrest
      obtain ⟨consumed, rfl, hconsumed, hne⟩ := classified_of_extractLoop hfirst
      have hlength : rest.length ≤ k := by
        cases consumed with
        | nil =>
            cases rest with
            | nil => apply Nat.zero_le
            | cons b rest => simp at hne
        | cons b consumed =>
            simp only [List.cons_append, List.length_cons, List.length_append] at hk
            omega
      intro b hb
      obtain hbefore | hafter := List.mem_append.mp hb
      · apply hconsumed b hbefore
      · apply ih hlength hys b hafter

/-- Repeated extraction splits a stream into its words exactly when every byte is below 128 or is
255, whose `char` has the value of `EOF`. -/
theorem tokenizes_iff (stream : List UInt8) :
  Tokenizes stream ↔ ∀ b ∈ stream, Classified b
  := by
  constructor
  · intro h
    obtain ⟨xs, hxs, -⟩ := h stream.length
    apply classified_of_extracts (le_refl _) hxs
  · apply tokenizes_of_classified

/-- The byte 0xE9 is passed to `isspace` as -23. -/
theorem not_tokenizes_above_127 :
  ¬ Tokenizes [0xE9]
  := by
  intro h
  obtain ⟨xs, hxs, -⟩ := h 1
  have hnone : extracts 1 [0xE9] = none := by decide
  rw [hnone] at hxs
  contradiction

end StandardStream

end Koroutine
