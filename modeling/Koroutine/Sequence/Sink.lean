import Mathlib.Data.List.Infix
import Mathlib.Tactic.Common

/-!
# Sinks of a sequence

A `Sink` takes a sequence piece by piece, and of a piece it is offered as much as it likes.
`writeAll` offers what has not been taken until all of it has been (`writeAll_written`).  What a sink
has taken, `written`, is part of no program, like what is left of a source.
-/

universe u v

namespace Sequence

/-- Something that sequences are written to.  A write that does not fail gives how much of the piece
it has taken, and that is something. -/
structure Sink (α : Type u) (σ : Type v) where
  write : σ → List α → Option ℕ × σ
  written : σ → List α
  write_pos : ∀ {s t : σ} {data : List α} {n : ℕ}, data ≠ [] → write s data = (some n, t) → 0 < n
  write_length : ∀ {s t : σ} {data : List α} {n : ℕ}, write s data = (some n, t) → n ≤ data.length
  write_written : ∀ {s t : σ} {data : List α} {n : ℕ},
    write s data = (some n, t) → written t = written s ++ data.take n

namespace Sink

variable {α : Type u} {σ : Type v} {K : Sink α σ} {s t u : σ} {data : List α}

/-- Writes until all has been taken or a write fails. -/
def writeAll (K : Sink α σ) (s : σ) (data : List α) : Bool × σ :=
  if _hdata : data = [] then (true, s)
  else
    match _h : K.write s data with
    | (none, t) => (false, t)
    | (some n, t) => writeAll K t (data.drop n)
  termination_by data.length
  decreasing_by
    have hpos := K.write_pos _hdata _h
    have hlength := List.length_pos_of_ne_nil _hdata
    rw [List.length_drop]
    omega

@[simp]
theorem writeAll_nil :
  K.writeAll s [] = (true, s)
  := by
  rw [writeAll]
  rfl

theorem writeAll_failed (hdata : data ≠ []) (h : K.write s data = (none, t)) :
  K.writeAll s data = (false, t)
  := by
  rw [writeAll, dif_neg hdata]
  split <;> simp_all

theorem writeAll_some {n : ℕ} (hdata : data ≠ []) (h : K.write s data = (some n, t)) :
  K.writeAll s data = K.writeAll t (data.drop n)
  := by
  rw [writeAll, dif_neg hdata]
  split <;> simp_all

/-- Data that has been written without a failure has been taken as it is. -/
theorem writeAll_written (h : K.writeAll s data = (true, t)) :
  K.written t = K.written s ++ data
  := by
  induction hn : data.length using Nat.strong_induction_on generalizing s data with
  | _ n ih =>
      subst hn
      by_cases hdata : data = []
      · subst hdata
        obtain rfl : s = t := by simpa using h
        rw [List.append_nil]
      · rcases hwrite : K.write s data with ⟨_ | n, u⟩
        · rw [writeAll_failed hdata hwrite] at h
          simp at h
        · have hpos := K.write_pos hdata hwrite
          have hlength := List.length_pos_of_ne_nil hdata
          have hlt : (data.drop n).length < data.length := by
            rw [List.length_drop]
            omega
          rw [writeAll_some hdata hwrite] at h
          rw [ih _ hlt h rfl, K.write_written hwrite, List.append_assoc, List.take_append_drop]

end Sink

end Sequence
