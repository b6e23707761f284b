import Koroutine.Transition.Run
import Mathlib.Logic.Function.Basic

/-!
# Closing the objects of a descriptor

`AsyncSocket` remembers in `is_closed_` that a close has been issued, and its destructor closes the
descriptor if none has.  `AsyncServerSocket`, `AsyncUDPSocket` and `AsyncFile` submit a `CLOSE`
operation for every call of `close()`, and their destructors do nothing.

The system gives out descriptor numbers that are not in use.  An engine executes a `CLOSE` some time
after it was submitted, or answers it without executing it, and an object is destroyed when no
operation holds it any more.
-/

open Transition

namespace Koroutine

namespace AsyncIOObject

/-- The classes of objects that have a descriptor. -/
inductive Class
  | AsyncSocket
  | AsyncServerSocket
  | AsyncUDPSocket
  | AsyncFile
  deriving DecidableEq

/-- An object. -/
structure Object where
  type : Class
  /-- `sockfd_`, or `fd_` of a file; `none` is -1. -/
  fd : Option ℕ
  /-- Only an `AsyncSocket` has it. -/
  is_closed_ : Bool
  /-- The operations in flight that hold the object, apart from `CLOSE`. -/
  operations : ℕ
  destroyed : Bool
  /-- How often `close()` has been called. -/
  calls : ℕ
  /-- How often a close of the descriptor has been issued. -/
  issued : ℕ

/-- The objects, the descriptor numbers in use with the objects they were given to, the `CLOSE`
operations in flight by their objects, and the closes that have been executed: the object each was
issued for, and the object that the number had been given to. -/
structure State where
  objects : ℕ → Option Object
  descriptors : ℕ → Option ℕ
  closing : List ℕ
  closed : List (ℕ × ℕ)

def initial : State where
  objects := fun _ => none
  descriptors := fun _ => none
  closing := []
  closed := []

/-- The steps: an object is made over a number that is not in use; `close()` and `cancel()`; another
operation of an object is submitted, and completed; a `CLOSE` is executed, or answered without that;
an object is destroyed. -/
inductive Label
  | create (i : ℕ) (type : Class) (fd : Option ℕ)
  | close (i : ℕ)
  | cancel (i : ℕ)
  | submit (i : ℕ)
  | complete (i : ℕ)
  | execute (i : ℕ)
  | answer (i : ℕ)
  | destroy (i : ℕ)

def State.put (s : State) (i : ℕ) (o : Object) : State :=
  { s with objects := Function.update s.objects i (some o) }

/-- The object, unless it has been destroyed. -/
def State.alive (s : State) (i : ℕ) : Option Object :=
  (s.objects i).filter fun o => !o.destroyed

/-- The system call `close` for object `i`. -/
def State.sysClose (s : State) (i : ℕ) : Option ℕ → State
  | none => s
  | some fd =>
      { s with
        descriptors := Function.update s.descriptors fd none
        closed := s.closed ++ (s.descriptors fd).toList.map fun j => (i, j) }

/-- A `CLOSE` operation for object `i` is submitted. -/
def State.submitClose (s : State) (i : ℕ) (o : Object) : State :=
  { s.put i { o with issued := o.issued + 1 } with closing := i :: s.closing }

/-- An object is constructed over a number that the system has given out for it. -/
def State.create (s : State) (i : ℕ) (type : Class) (fd : Option ℕ) : State :=
  { s.put i ⟨type, fd, false, 0, false, 0, 0⟩ with
    descriptors := fd.elim s.descriptors fun fd => Function.update s.descriptors fd (some i) }

/-! ### The classes -/

def AsyncSocket.close (s : State) (i : ℕ) (o : Object) : State :=
  if o.is_closed_ then s.put i o else s.submitClose i { o with is_closed_ := true }

def AsyncSocket.cancel (s : State) (i : ℕ) (o : Object) : State :=
  if o.is_closed_ then s.put i o else s.submitClose i { o with is_closed_ := true }

def AsyncSocket.destructor (s : State) (i : ℕ) (o : Object) : State :=
  if !o.is_closed_ && o.fd.isSome then
    (s.put i { o with issued := o.issued + 1 }).sysClose i o.fd
  else s.put i o

def AsyncServerSocket.close (s : State) (i : ℕ) (o : Object) : State := s.submitClose i o

def AsyncUDPSocket.close (s : State) (i : ℕ) (o : Object) : State := s.submitClose i o

def AsyncFile.close (s : State) (i : ℕ) (o : Object) : State := s.submitClose i o

def close (s : State) (i : ℕ) (o : Object) : State :=
  match o.type with
  | .AsyncSocket => AsyncSocket.close s i o
  | .AsyncServerSocket => AsyncServerSocket.close s i o
  | .AsyncUDPSocket => AsyncUDPSocket.close s i o
  | .AsyncFile => AsyncFile.close s i o

/-- The destructors of the other classes do nothing. -/
def destructor (s : State) (i : ℕ) (o : Object) : State :=
  match o.type with
  | .AsyncSocket => AsyncSocket.destructor s i o
  | _ => s.put i o

def step (s : State) : Label → Option State
  | .create i type fd =>
      if s.objects i = none ∧ fd.bind s.descriptors = none then
        some (s.create i type fd)
      else none
  | .close i => (s.alive i).map fun o => close s i { o with calls := o.calls + 1 }
  | .cancel i =>
      (s.alive i).bind fun o =>
        if o.type = .AsyncSocket then some (AsyncSocket.cancel s i o) else none
  | .submit i => (s.alive i).map fun o => s.put i { o with operations := o.operations + 1 }
  | .complete i =>
      (s.alive i).bind fun o =>
        if 0 < o.operations then some (s.put i { o with operations := o.operations - 1 }) else none
  | .execute i =>
      if i ∈ s.closing then
        (s.objects i).map fun o => State.sysClose { s with closing := s.closing.erase i } i o.fd
      else none
  | .answer i => if i ∈ s.closing then some { s with closing := s.closing.erase i } else none
  | .destroy i =>
      (s.alive i).bind fun o =>
        if o.operations = 0 ∧ i ∉ s.closing then some (destructor s i { o with destroyed := true })
        else none

variable {s t : State} {a : Label} {i j : ℕ} {o o' : Object} {as : List Label}

theorem alive_eq_some :
  s.alive i = some o ↔ s.objects i = some o ∧ o.destroyed = false
  := by
  simp [State.alive, Option.filter_eq_some_iff]

/-! ### What has been issued -/

/-- At most one close of its descriptor has been issued for each object, and no close has closed a
number that had been given to another object. -/
structure Sound (s : State) : Prop where
  once : ∀ i o, s.objects i = some o → o.issued ≤ 1
  own : ∀ x ∈ s.closed, x.2 = x.1

/-- What has been issued for an object, by its class. -/
structure Object.Tidy (o : Object) : Prop where
  issued : o.issued ≤ 1
  unclosed : o.type = .AsyncSocket → o.is_closed_ = false → o.destroyed = false → o.issued = 0
  called : o.type ≠ .AsyncSocket → o.issued = o.calls

def State.issued (s : State) (i : ℕ) : ℕ := (s.objects i).elim 0 Object.issued

/-- Every object is tidy, a `CLOSE` in flight is one that has been issued, an object whose close has
not been executed has its number, and executed closes have closed what they were issued for. -/
structure Tidy (s : State) : Prop where
  objects : ∀ i o, s.objects i = some o → o.Tidy
  closing : ∀ i, s.closing.count i ≤ s.issued i
  has : ∀ i o fd, s.objects i = some o → o.issued = 0 ∨ i ∈ s.closing → o.fd = some fd →
    s.descriptors fd = some i
  closed : ∀ x ∈ s.closed, x.2 = x.1

theorem Tidy.sound (h : Tidy s) :
  Sound s
  := by
  constructor
  · intro i o ho
    apply (h.objects i o ho).issued
  · apply h.closed

theorem Tidy.initial :
  Tidy initial
  := by
  constructor <;> simp [AsyncIOObject.initial]

theorem issued_of (h : s.objects i = some o) :
  s.issued i = o.issued
  := by
  rw [State.issued, h]
  rfl

@[simp]
theorem put_issued_self :
  (s.put i o).issued i = o.issued
  := by
  simp [State.issued, State.put]

theorem put_issued_of_ne (h : j ≠ i) :
  (s.put i o).issued j = s.issued j
  := by
  simp [State.issued, State.put, h]

theorem put_objects (h : (s.put i o).objects j = some o') :
  j = i ∧ o' = o ∨ j ≠ i ∧ s.objects j = some o'
  := by
  by_cases hj : j = i
  · subst hj
    left
    simpa [State.put, eq_comm] using h
  · right
    simpa [State.put, hj] using h

theorem Tidy.put (h : Tidy s) (ho : s.objects i = some o) (htidy : o'.Tidy)
    (hissued : o.issued ≤ o'.issued) (hfd : o'.fd = o.fd) :
  Tidy (s.put i o')
  := by
  constructor
  · intro j p hj
    obtain ⟨rfl, rfl⟩ | ⟨-, hp⟩ := put_objects hj
    · apply htidy
    · apply h.objects j p hp
  · intro j
    by_cases hj : j = i
    · subst hj
      rw [put_issued_self]
      apply le_trans _ hissued
      rw [← issued_of ho]
      apply h.closing
    · rw [put_issued_of_ne hj]
      apply h.closing
  · intro j p fd hj hown hfdj
    obtain ⟨rfl, rfl⟩ | ⟨-, hp⟩ := put_objects hj
    · apply h.has j o fd ho
      · apply hown.imp_left
        intro hzero
        omega
      · rw [← hfd]
        apply hfdj
    · apply h.has j p fd hp hown hfdj
  · apply h.closed

/-- The first close of an object is submitted. -/
theorem Tidy.submitClose (h : Tidy s) (ho : s.objects i = some o) (hissued : o.issued = 0)
    (htidy : ({ o' with issued := o'.issued + 1 } : Object).Tidy) (hfd : o'.fd = o.fd) :
  Tidy (s.submitClose i o')
  := by
  have hnone : s.closing.count i = 0 := by
    have hcount := h.closing i
    rw [issued_of ho] at hcount
    omega
  constructor
  · intro j p hj
    obtain ⟨rfl, rfl⟩ | ⟨-, hp⟩ := put_objects hj
    · apply htidy
    · apply h.objects j p hp
  · intro j
    by_cases hj : j = i
    · subst hj
      change (j :: s.closing).count j ≤ (s.put j _).issued j
      rw [List.count_cons_self, put_issued_self, hnone]
      simp
    · change (i :: s.closing).count j ≤ (s.put i _).issued j
      rw [List.count_cons_of_ne (Ne.symm hj), put_issued_of_ne hj]
      apply h.closing
  · intro j p fd hj hown hfdj
    obtain ⟨rfl, rfl⟩ | ⟨hne, hp⟩ := put_objects hj
    · apply h.has j o fd ho (.inl hissued)
      rw [← hfd]
      apply hfdj
    · apply h.has j p fd hp _ hfdj
      obtain hzero | hmem := hown
      · exact .inl hzero
      · right
        simpa [State.submitClose, hne] using hmem
  · apply h.closed

/-- The system closes the number of an object that has it and is done with it. -/
theorem Tidy.sysClose (h : Tidy s) (hfd : ∀ fd, o.fd = some fd → s.descriptors fd = some i)
    (hdone : ∀ p, s.objects i = some p → p.issued ≠ 0 ∧ i ∉ s.closing) :
  Tidy (s.sysClose i o.fd)
  := by
  cases hcase : o.fd with
  | none => apply h
  | some fd =>
      have hhas := hfd fd hcase
      constructor
      · apply h.objects
      · apply h.closing
      · intro j p fd' hj hown hfdj
        have hbefore := h.has j p fd' hj hown hfdj
        have hne : fd' ≠ fd := by
          rintro rfl
          obtain rfl : i = j := by simpa [hhas] using hbefore
          obtain ⟨hissued, hclosing⟩ := hdone p hj
          obtain hzero | hmem := hown
          · apply hissued hzero
          · apply hclosing hmem
        change Function.update s.descriptors fd none fd' = some j
        rw [Function.update_of_ne hne, hbefore]
      · intro x hx
        obtain hold | hnew := List.mem_append.mp hx
        · apply h.closed x hold
        · rw [hhas] at hnew
          obtain rfl : x = (i, i) := by simpa using hnew
          rfl

/-- A `CLOSE` is no longer in flight. -/
theorem Tidy.answer (h : Tidy s) :
  Tidy { s with closing := s.closing.erase i }
  := by
  constructor
  · apply h.objects
  · intro j
    apply le_trans _ (h.closing j)
    apply List.Sublist.count_le _ List.erase_sublist
  · intro j p fd hj hown hfdj
    apply h.has j p fd hj (hown.imp_right List.mem_of_mem_erase) hfdj
  · apply h.closed

/-! ### The steps -/

/-- `close()` is called once, unless the object is an `AsyncSocket`. -/
def Once (s : State) (a : Label) : Prop :=
  ∀ i o, a = .close i → s.objects i = some o → o.type = .AsyncSocket ∨ o.calls = 0

theorem Tidy.create {type : Class} {fd : Option ℕ} (h : Tidy s) (hi : s.objects i = none)
    (hfd : fd.bind s.descriptors = none) :
  Tidy (s.create i type fd)
  := by
  have hnone : s.closing.count i = 0 := by
    have hcount := h.closing i
    rw [State.issued, hi] at hcount
    apply Nat.le_zero.mp hcount
  constructor
  · intro j p hj
    obtain ⟨rfl, rfl⟩ | ⟨-, hp⟩ := put_objects hj
    · constructor <;> simp
    · apply h.objects j p hp
  · intro j
    change s.closing.count j ≤ (s.put i _).issued j
    by_cases hj : j = i
    · subst hj
      rw [hnone]
      apply Nat.zero_le
    · rw [put_issued_of_ne hj]
      apply h.closing
  · intro j p n hj hown hn
    obtain ⟨rfl, rfl⟩ | ⟨hne, hp⟩ := put_objects hj
    · obtain rfl : fd = some n := hn
      simp [State.create]
    · have hbefore := h.has j p n hp hown hn
      cases fd with
      | none => apply hbefore
      | some fd =>
          have hother : n ≠ fd := by
            rintro rfl
            rw [Option.bind_some, hbefore] at hfd
            contradiction
          change Function.update s.descriptors fd (some i) n = some j
          rw [Function.update_of_ne hother, hbefore]
  · apply h.closed

theorem close_of_socket (h : o.type = .AsyncSocket) :
  close s i o = AsyncSocket.close s i o
  := by
  unfold close
  rw [h]

theorem close_of_other (h : o.type ≠ .AsyncSocket) :
  close s i o = s.submitClose i o
  := by
  unfold close
  split
  · contradiction
  · rfl
  · rfl
  · rfl

theorem Tidy.close (h : Tidy s) (ho : s.objects i = some o) (halive : o.destroyed = false)
    (honce : o.type = .AsyncSocket ∨ o.calls = 0) :
  Tidy (close s i { o with calls := o.calls + 1 })
  := by
  obtain ⟨hone, hunclosed, hcalled⟩ := h.objects i o ho
  by_cases hsocket : o.type = .AsyncSocket
  · rw [close_of_socket (by apply hsocket), AsyncSocket.close]
    split
    · refine h.put ho ⟨hone, hunclosed, ?_⟩ (le_refl _) rfl
      intro hother
      contradiction
    · next hopen =>
        have hissued := hunclosed hsocket (by simpa using hopen) halive
        refine h.submitClose ho hissued ?_ rfl
        constructor
        · simp [hissued]
        · simp
        · intro hother
          contradiction
  · have hcalls := honce.resolve_left hsocket
    have hissued : o.issued = 0 := by rw [hcalled hsocket, hcalls]
    rw [close_of_other (by apply hsocket)]
    refine h.submitClose ho hissued ?_ rfl
    constructor
    · simp [hissued]
    · intro htype
      contradiction
    · simp [hissued, hcalls]

theorem Tidy.cancel (h : Tidy s) (ho : s.objects i = some o) (halive : o.destroyed = false)
    (hsocket : o.type = .AsyncSocket) :
  Tidy (AsyncSocket.cancel s i o)
  := by
  have htidy := h.objects i o ho
  unfold AsyncSocket.cancel
  split
  · apply h.put ho htidy (le_refl _) rfl
  · next hopen =>
      have hissued := htidy.unclosed hsocket (by simpa using hopen) halive
      refine h.submitClose ho hissued ?_ rfl
      constructor
      · simp [hissued]
      · simp
      · intro hother
        contradiction

theorem Tidy.execute (h : Tidy s) (ho : s.objects i = some o) (hi : i ∈ s.closing) :
  Tidy (State.sysClose { s with closing := s.closing.erase i } i o.fd)
  := by
  have hone := (h.objects i o ho).issued
  have hcount := h.closing i
  have hpos := List.count_pos_iff.mpr hi
  rw [issued_of ho] at hcount
  apply h.answer.sysClose
  · intro fd hfd
    apply h.has i o fd ho (.inr hi) hfd
  · intro p hp
    obtain rfl : o = p := by simpa [ho] using hp
    constructor
    · omega
    · apply List.count_eq_zero.mp
      change (s.closing.erase i).count i = 0
      rw [List.count_erase_self]
      omega

theorem Tidy.destroy (h : Tidy s) (ho : s.objects i = some o) (halive : o.destroyed = false)
    (hi : i ∉ s.closing) :
  Tidy (destructor s i { o with destroyed := true })
  := by
  have htidy := h.objects i o ho
  have hkeep : ∀ {n}, o.issued ≤ n → n ≤ 1 → (o.type ≠ .AsyncSocket → n = o.issued) →
      Tidy (s.put i { o with destroyed := true, issued := n }) := by
    intro n hle hone hother
    refine h.put ho ?_ hle rfl
    constructor
    · apply hone
    · simp
    · intro htype
      rw [← htidy.called htype]
      apply hother htype
  unfold destructor
  split
  · next hsocket =>
      unfold AsyncSocket.destructor
      split
      · next hcond =>
          obtain ⟨hopen, -⟩ : o.is_closed_ = false ∧ o.fd.isSome = true := by simpa using hcond
          have hissued := htidy.unclosed hsocket hopen halive
          apply Tidy.sysClose
          · apply hkeep
            · simp
            · simp [hissued]
            · intro hother
              contradiction
          · intro fd hfd
            apply h.has i o fd ho (.inl hissued) hfd
          · intro p hp
            obtain ⟨-, rfl⟩ | ⟨hne, -⟩ := put_objects hp
            · exact ⟨Nat.succ_ne_zero _, hi⟩
            · contradiction
      · apply hkeep (le_refl _) htidy.issued
        simp
  · apply hkeep (le_refl _) htidy.issued
    simp

/-- A step keeps what has been issued tidy, unless it closes an object a second time. -/
theorem Tidy.step (h : Tidy s) (honce : Once s a) (e : step s a = some t) :
  Tidy t
  := by
  cases a with
  | create i type fd =>
      obtain ⟨⟨hi, hfd⟩, heq⟩ := Option.ite_none_right_eq_some.mp e
      obtain rfl := Option.some.inj heq
      apply h.create hi hfd
  | close i =>
      obtain ⟨o, ho, rfl⟩ := Option.map_eq_some_iff.mp e
      obtain ⟨hobject, halive⟩ := alive_eq_some.mp ho
      apply h.close hobject halive (honce i o rfl hobject)
  | cancel i =>
      obtain ⟨o, ho, hif⟩ := Option.bind_eq_some_iff.mp e
      obtain ⟨hobject, halive⟩ := alive_eq_some.mp ho
      obtain ⟨hsocket, heq⟩ := Option.ite_none_right_eq_some.mp hif
      obtain rfl := Option.some.inj heq
      apply h.cancel hobject halive hsocket
  | submit i =>
      obtain ⟨o, ho, rfl⟩ := Option.map_eq_some_iff.mp e
      obtain ⟨hobject, -⟩ := alive_eq_some.mp ho
      obtain ⟨hissued, hunclosed, hcalled⟩ := h.objects i o hobject
      exact h.put hobject ⟨hissued, hunclosed, hcalled⟩ (le_refl _) rfl
  | complete i =>
      obtain ⟨o, ho, hif⟩ := Option.bind_eq_some_iff.mp e
      obtain ⟨hobject, -⟩ := alive_eq_some.mp ho
      obtain ⟨-, heq⟩ := Option.ite_none_right_eq_some.mp hif
      obtain rfl := Option.some.inj heq
      obtain ⟨hissued, hunclosed, hcalled⟩ := h.objects i o hobject
      exact h.put hobject ⟨hissued, hunclosed, hcalled⟩ (le_refl _) rfl
  | execute i =>
      obtain ⟨hi, hmap⟩ := Option.ite_none_right_eq_some.mp e
      obtain ⟨o, hobject, rfl⟩ := Option.map_eq_some_iff.mp hmap
      apply h.execute hobject hi
  | answer i =>
      obtain ⟨-, heq⟩ := Option.ite_none_right_eq_some.mp e
      obtain rfl := Option.some.inj heq
      apply h.answer
  | destroy i =>
      obtain ⟨o, ho, hif⟩ := Option.bind_eq_some_iff.mp e
      obtain ⟨hobject, halive⟩ := alive_eq_some.mp ho
      obtain ⟨⟨-, hi⟩, heq⟩ := Option.ite_none_right_eq_some.mp hif
      obtain rfl := Option.some.inj heq
      apply h.destroy hobject halive hi

/-- A second `close()` of such an object issues a second close. -/
theorem not_sound_of_twice (h : Tidy s) (honce : ¬ Once s a) (e : step s a = some t) :
  ¬ Sound t
  := by
  simp only [Once, not_forall, not_or, exists_prop] at honce
  obtain ⟨i, o, rfl, hobject, htype, hcalls⟩ := honce
  obtain ⟨o', ho', rfl⟩ := Option.map_eq_some_iff.mp e
  obtain ⟨hobject', -⟩ := alive_eq_some.mp ho'
  obtain rfl : o = o' := by simpa [hobject] using hobject'
  have hissued := (h.objects i o hobject).called htype
  have hsecond : (close s i { o with calls := o.calls + 1 }).objects i =
      some { o with calls := o.calls + 1, issued := o.issued + 1 } := by
    rw [close_of_other (by apply htype)]
    simp [State.submitClose, State.put]
  intro hsound
  have hone : o.issued + 1 ≤ 1 := hsound.once i _ hsecond
  omega

/-- In every state of a run at most one close of its descriptor has been issued for each object,
and no close has closed a number that was given to another, exactly when `close()` is called once,
or the object is an `AsyncSocket`. -/
theorem visits_sound_iff :
  Run step (Visits Sound) initial as t ↔ Run step (Meets Once) initial as t
  := by
  apply Run.visits_iff_meets Tidy
  · intro s a t h honce e
    apply h.step honce e
  · intro s h
    apply h.sound
  · intro s a t h honce e
    apply not_sound_of_twice h honce e
  · apply Tidy.initial

/-- A server socket is closed twice; when the second `CLOSE` is executed its number has been given
to a file. -/
theorem closes_another_object :
  ¬ ∀ as t, Run step Free initial as t → Sound t
  := by
  obtain ⟨t, hrun, hclosed⟩ : ∃ t, Run step Free initial
      [.create 0 .AsyncServerSocket (some 3), .close 0, .execute 0, .create 1 .AsyncFile (some 3),
        .close 0, .execute 0] t ∧ t.closed = [(0, 0), (0, 1)] := by
    apply exists_run_of_exec
    decide
  intro h
  have hown := (h _ t hrun).own (0, 1) (by simp [hclosed])
  contradiction

end AsyncIOObject

end Koroutine
