import Mathlib.Data.List.TakeWhile
import Mathlib.Tactic.Use
import Mathlib.Tactic.Common

/-!
# The words of a list

The words of a list are its maximal runs of elements that are not separators.  A cut takes the first
word off a list, with the separators before it and one of those behind it.
-/

namespace Sequence

variable {α : Type*} {p : α → Bool} {l w rest : List α}

/-- The maximal runs without separators. -/
def words (p : α → Bool) (l : List α) : List (List α) :=
  (l.splitOnP p).filter fun w => !w.isEmpty

/-- The first word `w` of a list, and what is left of the list behind it and one separator. -/
inductive Cut (p : α → Bool) : List α → List α → List α → Prop
  | blank {l : List α} (hl : ∀ a ∈ l, p a = true) : Cut p l [] []
  | last {blank w : List α} (hblank : ∀ a ∈ blank, p a = true) (hne : w ≠ [])
      (hw : ∀ a ∈ w, p a = false) : Cut p (blank ++ w) w []
  | word {blank w : List α} {a : α} {rest : List α} (hblank : ∀ a ∈ blank, p a = true)
      (hne : w ≠ []) (hw : ∀ a ∈ w, p a = false) (ha : p a = true) :
      Cut p (blank ++ w ++ a :: rest) w rest

theorem words_nil :
  words p [] = []
  := rfl

theorem words_cons {a : α} (ha : p a = true) :
  words p (a :: l) = words p l
  := by
  have hnone : ∀ b ∈ ([] : List α), p b = false := by simp
  have hsplit := List.splitOnP_append_cons_of_forall_mem hnone a ha l
  rw [List.nil_append] at hsplit
  rw [words, hsplit]
  rfl

/-- Separators before a list make no difference to its words. -/
theorem words_append {blank : List α} (hblank : ∀ a ∈ blank, p a = true) :
  words p (blank ++ l) = words p l
  := by
  induction blank with
  | nil => rfl
  | cons a blank ih =>
      rw [List.cons_append, words_cons (hblank a List.mem_cons_self)]
      apply ih
      intro b hb
      apply hblank b (List.mem_cons_of_mem _ hb)

theorem words_singleton (hne : w ≠ []) (hw : ∀ a ∈ w, p a = false) :
  words p w = [w]
  := by
  rw [words, List.splitOnP_eq_singleton hw]
  simp [hne]

theorem words_word {a : α} (hne : w ≠ []) (hw : ∀ a ∈ w, p a = false) (ha : p a = true) :
  words p (w ++ a :: rest) = w :: words p rest
  := by
  rw [words, List.splitOnP_append_cons_of_forall_mem hw a ha]
  simp [hne, words]

/-- A cut takes off the first word, if there is one. -/
theorem Cut.words_eq (h : Cut p l w rest) :
  w = [] ∧ rest = [] ∧ words p l = [] ∨ words p l = w :: words p rest
  := by
  cases h with
  | blank hl =>
      left
      refine ⟨rfl, rfl, ?_⟩
      rw [← List.append_nil l, words_append hl, words_nil]
  | last hblank hne hw =>
      right
      rw [words_append hblank, words_singleton hne hw, words_nil]
  | word hblank hne hw ha =>
      right
      rw [List.append_assoc, words_append hblank, words_word hne hw ha]

/-- The word that is cut off, and those that follow; where there are no more words they are empty.
-/
theorem Cut.getD_words (h : Cut p l w rest) (i : ℕ) :
  ((words p l)[i]?).getD [] = if i = 0 then w else ((words p rest)[i - 1]?).getD []
  := by
  obtain ⟨rfl, rfl, hnone⟩ | hcons := h.words_eq
  · rw [hnone, words_nil]
    simp
  · rw [hcons]
    cases i with
    | zero => rfl
    | succ i => rfl

/-- Every list can be cut. -/
theorem exists_cut (p : α → Bool) (l : List α) :
  ∃ w rest, Cut p l w rest
  := by
  have hblank : ∀ a ∈ l.takeWhile p, p a = true := by
    intro a ha
    apply List.mem_takeWhile_imp ha
  have hsplit := List.takeWhile_append_dropWhile (p := p) (l := l)
  cases hdrop : l.dropWhile p with
  | nil =>
      rw [hdrop, List.append_nil] at hsplit
      use [], []
      rw [← hsplit]
      apply Cut.blank hblank
  | cons a l' =>
      have ha : p a = false := by
        have hhead := List.head?_dropWhile_not p l
        rw [hdrop] at hhead
        simpa using hhead
      rw [hdrop] at hsplit
      have hw : ∀ b ∈ (a :: l').takeWhile fun b => !p b, p b = false := by
        intro b hb
        simpa using List.mem_takeWhile_imp hb
      have hne : ((a :: l').takeWhile fun b => !p b) ≠ [] := by simp [ha]
      have hsplit' := List.takeWhile_append_dropWhile (p := fun b => !p b) (l := a :: l')
      use (a :: l').takeWhile fun b => !p b
      cases hdrop' : (a :: l').dropWhile fun b => !p b with
      | nil =>
          rw [hdrop', List.append_nil] at hsplit'
          use []
          rw [← hsplit]
          nth_rewrite 1 [← hsplit']
          apply Cut.last hblank hne hw
      | cons b rest =>
          have hb : p b = true := by
            have hhead := List.head?_dropWhile_not (fun b => !p b) (a :: l')
            rw [hdrop'] at hhead
            simpa using hhead
          rw [hdrop'] at hsplit'
          use rest
          rw [← hsplit]
          nth_rewrite 1 [← hsplit']
          rw [← List.append_assoc]
          apply Cut.word hblank hne hw hb

end Sequence
