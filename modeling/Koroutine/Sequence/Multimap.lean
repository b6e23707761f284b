import Mathlib.Data.List.Perm.Basic
import Mathlib.Order.Defs.LinearOrder
import Mathlib.Tactic.Common

/-!
# Multimaps

A `Multimap` keeps its entries in the order of their keys, and those of one key in the order in which
they were put in.  Putting entries in in that order gives them back (`entries_insertAll`).
-/

universe u v

namespace Sequence

variable {κ : Type u} {β : Type v} [LT κ]

/-- Entries in the order of their keys. -/
def SortedByKey (entries : List (κ × β)) : Prop := entries.Pairwise fun p q => ¬ q.1 < p.1

structure Multimap (κ : Type u) (β : Type v) [LT κ] where
  entries : List (κ × β)
  sorted : SortedByKey entries

@[ext]
theorem Multimap.ext {m m' : Multimap κ β} (h : m.entries = m'.entries) :
  m = m'
  := by
  cases m
  cases m'
  cases h
  rfl

variable [DecidableLT κ]

/-- An entry put behind those whose key is not greater. -/
def insertByKey (x : κ × β) : List (κ × β) → List (κ × β)
  | [] => [x]
  | y :: entries => if x.1 < y.1 then x :: y :: entries else y :: insertByKey x entries

theorem insertByKey_perm (x : κ × β) (entries : List (κ × β)) :
  (insertByKey x entries).Perm (x :: entries)
  := by
  induction entries with
  | nil => apply List.Perm.refl
  | cons y entries ih =>
      rw [insertByKey]
      split
      · apply List.Perm.refl
      · exact (ih.cons y).trans (List.Perm.swap x y entries)

theorem insertByKey_last {x : κ × β} {entries : List (κ × β)}
    (h : ∀ y ∈ entries, ¬ x.1 < y.1) :
  insertByKey x entries = entries ++ [x]
  := by
  induction entries with
  | nil => rfl
  | cons y entries ih =>
      rw [List.forall_mem_cons] at h
      rw [insertByKey, if_neg h.1, ih h.2, List.cons_append]

variable [Std.Asymm (· < · : κ → κ → Prop)] [Trans (· < · : κ → κ → Prop) (· < ·) (· < ·)]

theorem SortedByKey.insert {x : κ × β} {entries : List (κ × β)} (h : SortedByKey entries) :
  SortedByKey (insertByKey x entries)
  := by
  induction entries with
  | nil => apply List.pairwise_singleton
  | cons y entries ih =>
      have hy : ∀ z ∈ entries, ¬ z.1 < y.1 := (List.pairwise_cons.mp h).1
      rw [insertByKey]
      split
      · next hlt =>
        apply List.Pairwise.cons _ h
        intro z hz hzx
        have hzy := Trans.trans hzx hlt
        rcases List.mem_cons.mp hz with rfl | hz
        · exact Std.Asymm.asymm _ _ hzx hlt
        · exact hy z hz hzy
      · next hle =>
        apply List.Pairwise.cons _ (ih h.of_cons)
        intro z hz
        rcases List.mem_cons.mp ((insertByKey_perm x entries).mem_iff.mp hz) with rfl | hz
        · exact hle
        · exact hy z hz

namespace Multimap

variable {m : Multimap κ β}

def empty : Multimap κ β := ⟨[], List.Pairwise.nil⟩

def emplace (m : Multimap κ β) (key : κ) (val : β) : Multimap κ β :=
  ⟨insertByKey (key, val) m.entries, m.sorted.insert⟩

/-- Entries put in one after another. -/
def insertAll (m : Multimap κ β) (l : List (κ × β)) : Multimap κ β :=
  l.foldl (fun m x => m.emplace x.1 x.2) m

/-- Entries that come in the order of a multimap end up in it as they come. -/
theorem entries_insertAll (m : Multimap κ β) {l : List (κ × β)}
    (h : SortedByKey (m.entries ++ l)) :
  (m.insertAll l).entries = m.entries ++ l
  := by
  induction l generalizing m with
  | nil => rw [List.append_nil, insertAll, List.foldl_nil]
  | cons x l ih =>
      have hlast : ∀ y ∈ m.entries, ¬ x.1 < y.1 := by
        intro y hy
        exact (List.pairwise_append.mp h).2.2 y hy x List.mem_cons_self
      have hentries : (m.emplace x.1 x.2).entries = m.entries ++ [x] := insertByKey_last hlast
      have hsorted : SortedByKey ((m.emplace x.1 x.2).entries ++ l) := by
        rwa [hentries, List.append_assoc]
      calc (m.insertAll (x :: l)).entries
          = (m.emplace x.1 x.2).entries ++ l := ih _ hsorted
        _ = m.entries ++ x :: l := by rw [hentries, List.append_assoc, List.singleton_append]

end Multimap

end Sequence
