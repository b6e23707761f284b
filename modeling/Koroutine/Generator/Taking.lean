import Koroutine.Generator.Stages

/-!
# How often `take` resumes its input

`take(n)` asks its input for a value only while it has yielded fewer than `n`.  The input has come
to its first value before, so that `n` values cost `n - 1` resumptions more, and none after the
last.
-/

open Sequence

namespace Koroutine

variable {T : Type} {M : Coroutine T} {n : ℤ}

/-- The generator that `take` pulls. -/
def takeInput (g : Generator (M.take n)) : Generator M := g.frame.1

/-- What a resumption of `take` does: it pulls its input where it has yielded fewer than `n` values,
and ends otherwise. -/
theorem resume_take_cases {m : ℕ} {up_steam : Generator M} {i : ℤ}
    {r : Resumption (M.take n).Frame T} (h : (M.take n).resume m (up_steam, i) = some r) :
  (n ≤ i ∧ r = .returned (up_steam, i + 1)) ∨
    (i < n ∧ ∃ up_steam', up_steam'.resumes = up_steam.resumes + (!up_steam.settled).toNat ∧
      (r = .returned (up_steam', i + 1) ∨
        ∃ v, r = .yielded v (up_steam', i + 1)))
  := by
  change pulling (Stage.take n) m (up_steam, i) = some r at h
  cases m with
  | zero => contradiction
  | succ m =>
      by_cases hi : i < n
      · right
        use hi
        have hguard : ((Stage.take n : Transducer ℤ T T).guard i).1 = true := by
          simp [Stage.take, hi]
        rw [pulling_succ hguard] at h
        cases hnext : up_steam.next m with
        | none =>
            rw [hnext] at h
            contradiction
        | some a =>
            rw [hnext] at h
            obtain ⟨_ | v, up_steam'⟩ := a
            · obtain rfl := Option.some.inj h
              exact ⟨up_steam', Generator.resumes_of_next hnext, .inl rfl⟩
            · obtain rfl := Option.some.inj h
              exact ⟨up_steam', Generator.resumes_of_next hnext, .inr ⟨v, rfl⟩⟩
      · left
        have hguard : ((Stage.take n : Transducer ℤ T T).guard i).1 = false := by
          simp [Stage.take, hi]
        rw [pulling_of_guard hguard] at h
        obtain rfl := Option.some.inj h
        exact ⟨Int.not_lt.mp hi, rfl⟩

/-- What holds of `take` when a client has obtained so many values: the values that it has yielded
are counted, and it has resumed its input once for each but the first. -/
inductive Taking (M : Coroutine T) (n : ℤ) (obtained : ℕ) : Generator (M.take n) → Prop
  | suspended {up_steam : Generator M} {i : ℕ} {v : T} {is_ready : Bool} (hpos : 1 ≤ i)
      (hle : i ≤ n) (hi : i = obtained + is_ready.toNat) (hup : up_steam.resumes ≤ i) :
      Taking M n obtained (.suspended (up_steam, (i : ℤ)) v is_ready i)
  | done {up_steam : Generator M} {i : ℤ} {resumes : ℕ}
      (hup : up_steam.resumes ≤ max 1 n.toNat) (hresumes : resumes ≤ n.toNat + 1) :
      Taking M n obtained (.done (up_steam, i) resumes)

/-- `take` is called on a generator that has come to its first value or to its end. -/
theorem Taking.start {m : ℕ} {up_steam : Generator M} {g : Generator (M.take n)}
    (hresumes : up_steam.resumes = 1) (hsettled : up_steam.settled = true)
    (h : Generator.start (M := M.take n) m (up_steam, 0) = some g) :
  Taking M n 0 g
  := by
  obtain ⟨r, hr, rfl⟩ := Option.map_eq_some_iff.mp h
  obtain ⟨hle, rfl⟩ | ⟨hlt, up_steam', hup, rfl | ⟨v, rfl⟩⟩ := resume_take_cases hr
  · apply Taking.done
    · omega
    · omega
  · rw [hresumes, hsettled] at hup
    apply Taking.done
    · simp only [Bool.not_true, Bool.toNat_false] at hup
      omega
    · omega
  · rw [hresumes, hsettled] at hup
    refine Taking.suspended (i := 1) (Nat.le_refl 1) ?_ rfl ?_
    · omega
    · simp only [Bool.not_true, Bool.toNat_false] at hup
      omega

theorem Taking.has_next {m obtained : ℕ} {g g' : Generator (M.take n)} {b : Bool}
    (hg : Taking M n obtained g) (h : g.has_next m = some (b, g')) :
  Taking M n obtained g'
  := by
  cases hg with
  | done hup hresumes =>
      obtain ⟨-, rfl⟩ := Prod.mk.inj (Option.some.inj h)
      exact .done hup hresumes
  | @suspended up_steam i v is_ready hpos hle hi hup =>
      cases is_ready with
      | true =>
          obtain ⟨-, rfl⟩ := Prod.mk.inj (Option.some.inj h)
          exact .suspended hpos hle hi hup
      | false =>
          obtain ⟨r, hr, heq⟩ := Option.map_eq_some_iff.mp h
          have hnot := (!up_steam.settled).toNat_le
          obtain ⟨hend, rfl⟩ | ⟨hlt, up_steam', hup', rfl | ⟨v', rfl⟩⟩ := resume_take_cases hr
          · obtain ⟨-, rfl⟩ := Prod.mk.inj heq
            apply Taking.done
            · omega
            · omega
          · obtain ⟨-, rfl⟩ := Prod.mk.inj heq
            apply Taking.done
            · omega
            · omega
          · obtain ⟨-, rfl⟩ := Prod.mk.inj heq
            rw [Bool.toNat_false] at hi
            refine Taking.suspended (i := i + 1) ?_ ?_ ?_ ?_
            · omega
            · omega
            · rw [hi, Bool.toNat_true]
            · omega

theorem Taking.next {m obtained : ℕ} {g g' : Generator (M.take n)} {v : T}
    (hg : Taking M n obtained g) (h : g.next m = some (.ok v, g')) :
  Taking M n (obtained + 1) g'
  := by
  obtain ⟨x, resumes, htrue, rfl⟩ := Generator.next_ok_iff.mp h
  cases hg.has_next htrue with
  | suspended hpos hle hi hup =>
      refine .suspended hpos hle ?_ hup
      rw [hi, Bool.toNat_true, Bool.toNat_false]

/-- A client that obtains values from `take`. -/
theorem Taking.client {m obtained : ℕ} {g g' : Generator (M.take n)} {calls : List Generator.Call}
    {answers : List (Generator.Answer T)} (hg : Taking M n obtained g)
    (h : Generator.client m calls g = some (answers, g')) :
  Taking M n (obtained + (Generator.obtained answers).length) g'
  := by
  apply Generator.client_invariant (Taking M n) _ _ hg h
  · intro obtained b g g' hg hb
    apply hg.has_next hb
  · intro obtained v g g' hg hv
    apply hg.next hv

/-- The bounds on the resumptions. -/
theorem Taking.resumes_le {obtained : ℕ} {g : Generator (M.take n)} (hg : Taking M n obtained g) :
  g.resumes ≤ n.toNat + 1 ∧ (takeInput g).resumes ≤ max 1 n.toNat
  := by
  cases hg with
  | suspended hpos hle hi hup =>
      constructor
      · simp only [Generator.resumes]
        omega
      · simp only [takeInput, Generator.frame]
        omega
  | done hup hresumes => exact ⟨hresumes, hup⟩

/-- `take` has yielded its last value, and it has been taken. -/
inductive Full (M : Coroutine T) (n : ℤ) : Generator (M.take n) → Prop
  | suspended {up_steam : Generator M} {i : ℤ} {v : T} {resumes : ℕ} (hle : n ≤ i) :
      Full M n (.suspended (up_steam, i) v false resumes)
  | done {x : (M.take n).Frame} {resumes : ℕ} : Full M n (.done x resumes)

/-- When a client has obtained `n` values there are no more. -/
theorem Taking.full {obtained : ℕ} {g : Generator (M.take n)} (hg : Taking M n obtained g)
    (h : obtained = n.toNat) :
  Full M n g
  := by
  cases hg with
  | @suspended up_steam i v is_ready hpos hle hi hup =>
      cases is_ready with
      | true =>
          rw [Bool.toNat_true] at hi
          omega
      | false =>
          rw [Bool.toNat_false] at hi
          apply Full.suspended
          omega
  | done => apply Full.done

/-- Then `has_next` gives `false`, and leaves the input as it is. -/
theorem Full.has_next {m : ℕ} {g g' : Generator (M.take n)} {b : Bool} (hg : Full M n g)
    (h : g.has_next m = some (b, g')) :
  b = false ∧ Full M n g' ∧ takeInput g' = takeInput g
  := by
  cases hg with
  | done =>
      obtain ⟨rfl, rfl⟩ := Prod.mk.inj (Option.some.inj h)
      exact ⟨rfl, .done, rfl⟩
  | suspended hle =>
      obtain ⟨r, hr, heq⟩ := Option.map_eq_some_iff.mp h
      obtain ⟨-, rfl⟩ | ⟨hlt, -⟩ := resume_take_cases hr
      · obtain ⟨rfl, rfl⟩ := Prod.mk.inj heq
        exact ⟨rfl, .done, rfl⟩
      · omega

/-- Whatever a client calls then, the input is left as it is. -/
theorem Full.client {m : ℕ} {g g' : Generator (M.take n)} {calls : List Generator.Call}
    {answers : List (Generator.Answer T)} (hg : Full M n g)
    (h : Generator.client m calls g = some (answers, g')) :
  takeInput g' = takeInput g
  := by
  have hhas_next : ∀ (i : ℕ) {b : Bool} {g₁ g₂ : Generator (M.take n)},
      Full M n g₁ ∧ takeInput g₁ = takeInput g → g₁.has_next m = some (b, g₂) →
      Full M n g₂ ∧ takeInput g₂ = takeInput g := by
    rintro _ b g₁ g₂ ⟨hfull, hsame⟩ hb
    obtain ⟨-, hfull', hsame'⟩ := hfull.has_next hb
    exact ⟨hfull', hsame'.trans hsame⟩
  have hkept := Generator.client_invariant
    (fun _ g' => Full M n g' ∧ takeInput g' = takeInput g) hhas_next ?_ (i := 0) ⟨hg, rfl⟩ h
  · apply hkept.2
  · rintro _ v g₁ g₂ ⟨hfull, -⟩ hv
    obtain ⟨x, resumes, htrue, -⟩ := Generator.next_ok_iff.mp hv
    obtain ⟨hfalse, -⟩ := hfull.has_next htrue
    contradiction

/-- `take` ends where `n` values are known of its input. -/
theorem isEnded_take {k : Known T} {i : ℤ}
    (h : (n - i).toNat ≤ k.values.length ∨ k.isEnded = true) :
  ((Stage.take n).run i k).isEnded = true
  := by
  induction k generalizing i with
  | unknown =>
      have hguard : ((Stage.take n : Transducer ℤ T T).guard i).1 = false := by
        simp only [Known.values, List.length_nil, Known.isEnded, Bool.false_eq_true,
          or_false] at h
        simp only [Stage.take, decide_eq_false_iff_not]
        omega
      rw [Transducer.run_of_guard _ hguard, Known.isEnded]
  | ended => rfl
  | cons v k ih =>
      by_cases hi : i < n
      · have hrest : (n - (i + 1)).toNat ≤ k.values.length ∨ k.isEnded = true := by
          apply h.imp _ id
          intro hle
          rw [Known.values, List.length_cons] at hle
          omega
        simpa [Transducer.run, Stage.take, hi, Known.isEnded] using ih hrest
      · have hguard : ((Stage.take n : Transducer ℤ T T).guard i).1 = false := by
          simp [Stage.take, hi]
        rw [Transducer.run_of_guard _ hguard, Known.isEnded]

end Koroutine
