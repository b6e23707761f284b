import Koroutine.Httplib.Stream
import Mathlib.Data.List.TakeWhile
import Mathlib.Data.UInt
import Mathlib.Data.Nat.Basic

/-!
# Characters, numbers and separators

The character classes of the "C" locale, the comparison of header names, hexadecimal numbers as
`from_i_to_hex` writes them and `strtoul` and `from_hex_to_i` read them, and `trim`, `split` and
`divide`.
-/

open Sequence

namespace Koroutine

namespace Httplib

/-- A string of ASCII characters as bytes. -/
def ascii (s : String) : Bytes := s.toList.map fun c => UInt8.ofNat c.toNat

/-- A property of bytes that all 256 of them have. -/
theorem forall_byte {P : UInt8 → Prop} (h : ∀ n : Fin 256, P (UInt8.ofFin n)) (b : UInt8) :
  P b
  := h b.toFin

/-! ### Characters -/

def isdigit (b : UInt8) : Bool := 48 ≤ b && b ≤ 57

def isalpha (b : UInt8) : Bool := (65 ≤ b && b ≤ 90) || (97 ≤ b && b ≤ 122)

def isalnum (b : UInt8) : Bool := isdigit b || isalpha b

def isspace (b : UInt8) : Bool := b = 32 || (9 ≤ b && b ≤ 13)

def is_space_or_tab (b : UInt8) : Bool := b = 32 || b = 9

/-- The table of `case_ignore::to_lower`, which goes by Latin-1. -/
def to_lower (b : UInt8) : UInt8 :=
  if (65 ≤ b && b ≤ 90) || (192 ≤ b && b ≤ 222 && b ≠ 215) then b + 32 else b

/-- `case_ignore::equal` -/
def equal (a b : Bytes) : Bool :=
  a.length = b.length && a.map to_lower = b.map to_lower

def is_hex (c : UInt8) : Option ℕ :=
  if isdigit c then some (c.toNat - 48)
  else if 65 ≤ c && c ≤ 70 then some (c.toNat - 65 + 10)
  else if 97 ≤ c && c ≤ 102 then some (c.toNat - 97 + 10)
  else none

/-- The loop of `from_hex_to_i`; behind the end of a string is a `'\0'`, which is no digit. -/
def from_hex_to_iLoop : ℕ → Bytes → ℕ → Option ℕ
  | 0, _, val => some val
  | _ + 1, [], _ => none
  | cnt + 1, c :: l, val =>
      match is_hex c with
      | none => none
      | some v => from_hex_to_iLoop cnt l (val * 16 + v)

/-- `from_hex_to_i`, of what follows a position. -/
def from_hex_to_i (l : Bytes) (cnt : ℕ) : Option ℕ :=
  if l = [] then none else from_hex_to_iLoop cnt l 0

def charset (n : ℕ) : UInt8 := (ascii "0123456789abcdef").getD n 0

/-- The digits of `"%02X"` and of `std::uppercase << std::hex`. -/
def upperCharset (n : ℕ) : UInt8 := (ascii "0123456789ABCDEF").getD n 0

/-- The loop of `from_i_to_hex`. -/
def from_i_to_hexLoop (n : ℕ) (ret : Bytes) : Bytes :=
  if 0 < n / 16 then from_i_to_hexLoop (n / 16) (charset (n % 16) :: ret)
  else charset (n % 16) :: ret

def from_i_to_hex (n : ℕ) : Bytes := from_i_to_hexLoop n []

def ULONG_MAX : ℕ := 2 ^ 64 - 1

def isxdigit (c : UInt8) : Bool := (is_hex c).isSome

/-- The number that digits stand for behind others. -/
def hexValue (acc : ℕ) (digits : Bytes) : ℕ :=
  digits.foldl (fun val c => val * 16 + (is_hex c).getD 0) acc

/-- Whether there is a `'-'`, and what follows the sign. -/
def strtoulSign : Bytes → Bool × Bytes
  | [] => (false, [])
  | c :: l => if c = 43 then (false, l) else if c = 45 then (true, l) else (false, c :: l)

/-- What follows `"0x"`, where a digit does. -/
def strtoulPrefix : Bytes → Bytes
  | z :: x :: c :: l =>
      if z = 48 ∧ (x = 120 ∨ x = 88) ∧ isxdigit c then c :: l else z :: x :: c :: l
  | l => l

/-- `strtoul` in base 16: the value, and what `endptr` is set to. -/
def strtoul (l : Bytes) : ℕ × Bytes :=
  let (negative, signless) := strtoulSign (l.dropWhile isspace)
  let number := strtoulPrefix signless
  let digits := number.takeWhile isxdigit
  if digits = [] then (0, l)
  else
    let val := hexValue 0 digits
    (if val > ULONG_MAX then ULONG_MAX
      else if negative then (ULONG_MAX + 1 - val) % (ULONG_MAX + 1)
      else val,
      number.dropWhile isxdigit)

theorem is_hex_upperCharset {n : ℕ} (h : n < 16) :
  is_hex (upperCharset n) = some n
  := by
  revert n
  decide

/-- A digit is no white space, no sign and no `'x'`. -/
theorem of_isxdigit {c : UInt8} (h : isxdigit c = true) :
  isspace c = false ∧ c ≠ 43 ∧ c ≠ 45 ∧ c ≠ 120 ∧ c ≠ 88
  := by
  revert h
  apply forall_byte (P := fun c => isxdigit c = true →
    isspace c = false ∧ c ≠ 43 ∧ c ≠ 45 ∧ c ≠ 120 ∧ c ≠ 88)
  decide +kernel

/-- What stands behind the digits of a number: neither a digit nor the `'x'` of a prefix. -/
def EndsNumber (l : Bytes) : Prop :=
  ∀ c ∈ l.head?, isxdigit c = false ∧ c ≠ 120 ∧ c ≠ 88

theorem strtoulPrefix_of_second {z x : UInt8} {l : Bytes} (h : x ≠ 120 ∧ x ≠ 88) :
  strtoulPrefix (z :: x :: l) = z :: x :: l
  := by
  cases l with
  | nil => rfl
  | cons c l => simp [strtoulPrefix, h]

theorem strtoulPrefix_of_digits {digits l : Bytes} (h : ∀ c ∈ digits, isxdigit c = true)
    (hl : EndsNumber l) :
  strtoulPrefix (digits ++ l) = digits ++ l
  := by
  match digits, l with
  | [], [] => rfl
  | [], [_] => rfl
  | [], z :: x :: l =>
      have hz := (hl z rfl).1
      cases l with
      | nil => rfl
      | cons c l =>
          have hzero : z ≠ 48 := by
            rintro rfl
            exact absurd hz (by decide)
          simp [strtoulPrefix, hzero]
  | [_], [] => rfl
  | [z], x :: l => exact strtoulPrefix_of_second (hl x rfl).2
  | z :: x :: digits, l =>
      obtain ⟨-, -, -, hx⟩ := of_isxdigit (h x (by simp))
      exact strtoulPrefix_of_second hx

theorem takeWhile_isxdigit {digits l : Bytes} (h : ∀ c ∈ digits, isxdigit c = true)
    (hl : EndsNumber l) :
  (digits ++ l).takeWhile isxdigit = digits ∧ (digits ++ l).dropWhile isxdigit = l
  := by
  rw [List.takeWhile_append_of_pos h, List.dropWhile_append_of_pos h]
  cases l with
  | nil => simp
  | cons c l => simp [(hl c rfl).1]

/-- Digits are read up to what ends the number. -/
theorem strtoul_of_digits {digits l : Bytes} (h : ∀ c ∈ digits, isxdigit c = true)
    (hl : EndsNumber l) (hne : digits ≠ []) (hmax : hexValue 0 digits ≤ ULONG_MAX) :
  strtoul (digits ++ l) = (hexValue 0 digits, l)
  := by
  have hsign : strtoulSign ((digits ++ l).dropWhile isspace) = (false, digits ++ l) := by
    cases digits with
    | nil => exact absurd rfl hne
    | cons d digits =>
        obtain ⟨hspace, hplus, hminus, -⟩ := of_isxdigit (h d (by simp))
        simp [hspace, strtoulSign, hplus, hminus]
  have htake := takeWhile_isxdigit h hl
  simp only [strtoul, hsign, strtoulPrefix_of_digits h hl, htake.1, htake.2]
  rw [if_neg hne, if_neg (by omega)]
  rfl

/-! ### Separators -/

/-- `trim` and `trim_copy` -/
def trim (l : Bytes) : Bytes :=
  ((l.dropWhile is_space_or_tab).reverse.dropWhile is_space_or_tab).reverse

/-- The loop of `split`, with the piece that it is in. -/
def splitLoop (d : UInt8) : Bytes → Bytes → List Bytes
  | [], piece => if trim piece = [] then [] else [trim piece]
  | c :: l, piece =>
      if c = d then (if trim piece = [] then [] else [trim piece]) ++ splitLoop d l []
      else splitLoop d l (piece ++ [c])

/-- `split`: the pieces between the separators, trimmed, but for those that are empty then. -/
def split (d : UInt8) (l : Bytes) : List Bytes := splitLoop d l []

/-- `divide`: what stands before the first `d`, and what stands after it. -/
def divide (d : UInt8) (l : Bytes) : Bytes × Bytes :=
  (l.takeWhile (· != d), (l.dropWhile (· != d)).tail)

variable {d : UInt8} {a b l piece : Bytes}

/-- What `split` makes of one piece. -/
def kept (piece : Bytes) : List Bytes := if trim piece = [] then [] else [trim piece]

theorem splitLoop_append (h : d ∉ a) :
  splitLoop d (a ++ b) piece = splitLoop d b (piece ++ a)
  := by
  induction a generalizing piece with
  | nil => simp
  | cons c a ih =>
      rw [List.mem_cons, not_or] at h
      rw [List.cons_append, splitLoop, if_neg (Ne.symm h.1), ih h.2, List.append_assoc]
      rfl

theorem split_append_cons (h : d ∉ a) :
  split d (a ++ d :: b) = kept a ++ split d b
  := by
  rw [split, splitLoop_append h, splitLoop, if_pos rfl]
  rfl

theorem split_of_notMem (h : d ∉ a) :
  split d a = kept a
  := by
  have hsplit : splitLoop d (a ++ []) [] = splitLoop d [] ([] ++ a) := splitLoop_append h
  rw [List.append_nil] at hsplit
  rw [split, hsplit]
  rfl

theorem divide_append_cons (h : d ∉ a) :
  divide d (a ++ d :: b) = (a, b)
  := by
  have hne : ∀ c ∈ a, (c != d) = true := by
    intro c hc
    rw [bne_iff_ne]
    rintro rfl
    exact h hc
  rw [divide, List.takeWhile_append_of_pos hne, List.dropWhile_append_of_pos hne]
  simp

theorem divide_of_notMem (h : d ∉ a) :
  divide d a = (a, [])
  := by
  have hne : ∀ c ∈ a, (c != d) = true := by
    intro c hc
    rw [bne_iff_ne]
    rintro rfl
    exact h hc
  rw [divide, List.takeWhile_eq_self_iff.mpr hne, List.dropWhile_eq_nil_iff.mpr hne]
  rfl

/-- Text that neither begins nor ends with white space. -/
def Trimmed (l : Bytes) : Prop :=
  (∀ c ∈ l.head?, is_space_or_tab c = false) ∧ ∀ c ∈ l.getLast?, is_space_or_tab c = false

theorem trim_of_trimmed (h : Trimmed l) :
  trim l = l
  := by
  have hhead : l.dropWhile is_space_or_tab = l := by
    cases l with
    | nil => rfl
    | cons c l => simp [h.1 c rfl]
  have hlast : l.reverse.dropWhile is_space_or_tab = l.reverse := by
    cases hl : l.reverse with
    | nil => rfl
    | cons c l' =>
        have hc : l.getLast? = some c := by
          rw [← List.head?_reverse, hl]
          rfl
        simp [h.2 c hc]
  rw [trim, hhead, hlast, List.reverse_reverse]

theorem kept_of_trimmed (h : Trimmed l) (hne : l ≠ []) :
  kept l = [l]
  := by
  rw [kept, trim_of_trimmed h, if_neg hne]

end Httplib
end Koroutine
