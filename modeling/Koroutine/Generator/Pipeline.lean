import Koroutine.Generator.Taking

/-!
# Pipelines of generators

A pipeline is a generator on which stages are called, one after the other.  Each stage is started
when it is called, so that a pipeline is created only if every stage comes to its first value or to
its end.

What a client obtains from a pipeline is what the list functions make of the values of the source.
A stage looks at its input only as far as it needs to: the values are known from those that the
source has yielded so far, also where the source goes on for ever.
-/

open Sequence

namespace Koroutine

variable {S T U : Type}

/-- The stages called on a generator of values of type `S`. -/
inductive Pipeline (S : Type) : Type → Type 1
  | source : Pipeline S S
  | map {T U : Type} (p : Pipeline S T) (f : T → U) : Pipeline S U
  | filter {T : Type} (p : Pipeline S T) (f : T → Bool) : Pipeline S T
  | take {T : Type} (p : Pipeline S T) (n : ℤ) : Pipeline S T
  | take_while {T : Type} (p : Pipeline S T) (f : T → Bool) : Pipeline S T
  | flat_map {T U : Type} (p : Pipeline S T) (f : T → Inner U) : Pipeline S U

namespace Pipeline

/-- The coroutine of the last stage. -/
def coroutine (M : Coroutine S) : {T : Type} → Pipeline S T → Coroutine T
  | _, .source => M
  | _, .map p f => (p.coroutine M).map f
  | _, .filter p f => (p.coroutine M).filter f
  | _, .take p n => (p.coroutine M).take n
  | _, .take_while p f => (p.coroutine M).take_while f
  | _, .flat_map p f => (p.coroutine M).flat_map f

/-- The source and the stages are called, one after the other. -/
def create (M : Coroutine S) (x : M.Frame) (n : ℕ) :
    {T : Type} → (p : Pipeline S T) → Option (Generator (p.coroutine M))
  | _, .source => Generator.start n x
  | _, .map p _ => (p.create M x n).bind fun up_steam => Generator.start n (up_steam, ())
  | _, .filter p _ => (p.create M x n).bind fun up_steam => Generator.start n (up_steam, ())
  | _, .take p _ => (p.create M x n).bind fun up_steam => Generator.start n (up_steam, 0)
  | _, .take_while p _ => (p.create M x n).bind fun up_steam => Generator.start n (up_steam, ())
  | _, .flat_map p _ => (p.create M x n).bind fun up_steam => Generator.start n (up_steam, none)

/-- The list functions. -/
def list : {T : Type} → Pipeline S T → List S → List T
  | _, .source, l => l
  | _, .map p f, l => (p.list l).map f
  | _, .filter p f, l => (p.list l).filter f
  | _, .take p n, l => (p.list l).take n.toNat
  | _, .take_while p f, l => (p.list l).takeWhile f
  | _, .flat_map p f, l => (p.list l).flatMap fun v => (f v).values

/-- What is known of the values of a stage, which is called when something is known of its input. -/
def started (F : Known T → Known U) : Known T → Known U
  | .unknown => .unknown
  | .ended => F .ended
  | .cons v k => F (.cons v k)

/-- What is known of the values of a pipeline where `k` is known of those of the source. -/
def known : {T : Type} → Pipeline S T → Known S → Known T
  | _, .source, k => k
  | _, .map p f, k => started ((Stage.map f).run ()) (p.known k)
  | _, .filter p f, k => started ((Stage.filter f).run ()) (p.known k)
  | _, .take p n, k => started ((Stage.take n).run 0) (p.known k)
  | _, .take_while p f, k => started ((Stage.take_while f).run ()) (p.known k)
  | _, .flat_map p f, k => started (Known.flatMap fun v => (f v).values) (p.known k)

/-- A client creates the pipeline, and makes the calls. -/
def obtain (M : Coroutine S) (x : M.Frame) (n : ℕ) (p : Pipeline S T)
    (calls : List Generator.Call) :
    Option (List (Generator.Answer T) × Generator (p.coroutine M)) :=
  (p.create M x n).bind fun g => Generator.client n calls g

/-! ### What is known of a pipeline -/

/-- What is known of the generator that is created by `c`, when it is created. -/
def Creates {M : Coroutine T} (c : ℕ → Option (Generator M)) (k : Known T) : Prop :=
  k = .unknown ∨ ∃ n g, c n = some g ∧ g.Knows k

/-- Calls that create a generator: with more steps they create the same, and it has come to its
first value or to its end, and has run once. -/
structure Creation {M : Coroutine T} (c : ℕ → Option (Generator M)) : Prop where
  mono : ∀ {m n g}, m ≤ n → c m = some g → c n = some g
  ready : ∀ {n g}, c n = some g → ∃ k, k ≠ .unknown ∧ g.Knows k
  settled : ∀ {n g}, c n = some g → g.resumes = 1 ∧ g.settled = true

theorem exists_ready {M : Coroutine T} {x : M.Frame} {n : ℕ} {g : Generator M}
    (h : Generator.start n x = some g) :
  ∃ k, k ≠ .unknown ∧ g.Knows k
  := by
  obtain ⟨r, -, rfl⟩ := Option.map_eq_some_iff.mp h
  cases r with
  | yielded v y =>
      use .cons v .unknown
      exact ⟨by simp, Generator.knows_ready.mpr (.inr ⟨_, rfl, .unknown y⟩)⟩
  | returned y =>
      use .ended
      exact ⟨by simp, Generator.knows_done.mpr (.inr rfl)⟩

theorem settled_of_start {M : Coroutine T} {x : M.Frame} {n : ℕ} {g : Generator M}
    (h : Generator.start n x = some g) :
  g.resumes = 1 ∧ g.settled = true
  := by
  obtain ⟨r, -, rfl⟩ := Option.map_eq_some_iff.mp h
  cases r with
  | yielded v y | returned y => exact ⟨rfl, rfl⟩

theorem Creation.start {M : Coroutine T} (x : M.Frame) :
  Creation fun n => Generator.start (M := M) n x
  := by
  constructor
  · intro m n g hmn h
    apply Generator.start_mono hmn h
  · intro n g h
    apply exists_ready h
  · intro n g h
    apply settled_of_start h

theorem Creation.bind {M : Coroutine T} {N : Coroutine U} {c : ℕ → Option (Generator M)}
    (hc : Creation c) (mk : Generator M → N.Frame) :
  Creation fun n => (c n).bind fun up_steam => Generator.start (M := N) n (mk up_steam)
  := by
  constructor
  · intro m n g hmn h
    obtain ⟨up_steam, hup, hstart⟩ := Option.bind_eq_some_iff.mp h
    exact Option.bind_eq_some_iff.mpr
      ⟨up_steam, hc.mono hmn hup, Generator.start_mono hmn hstart⟩
  · intro n g h
    obtain ⟨up_steam, -, hstart⟩ := Option.bind_eq_some_iff.mp h
    apply exists_ready hstart
  · intro n g h
    obtain ⟨up_steam, -, hstart⟩ := Option.bind_eq_some_iff.mp h
    apply settled_of_start hstart

/-- The values of a stage are known from those of its input. -/
theorem creates_bind {M : Coroutine T} {N : Coroutine U} {c : ℕ → Option (Generator M)}
    (hc : Creation c) {mk : Generator M → N.Frame} {F : Known T → Known U}
    (hmono : ∀ {j k : Known T}, j.Le k → (F j).Le (F k))
    (hF : ∀ up_steam out, Reaches N (mk up_steam) out ↔
      ∃ k, up_steam.Knows k ∧ out.Le (F k)) {out : Known U} :
  Creates (fun n => (c n).bind fun up_steam => Generator.start (M := N) n (mk up_steam)) out ↔
    ∃ k, Creates c k ∧ out.Le (started F k)
  := by
  constructor
  · rintro (rfl | ⟨n, g, h, hknows⟩)
    · exact ⟨.unknown, .inl rfl, .unknown _⟩
    · obtain ⟨up_steam, hup, hstart⟩ := Option.bind_eq_some_iff.mp h
      obtain ⟨k, hk, hle⟩ := (hF up_steam out).mp ((Generator.knows_start hstart).mp hknows)
      cases k with
      | unknown =>
          obtain ⟨k', hne, hk'⟩ := hc.ready hup
          use k', .inr ⟨n, up_steam, hup, hk'⟩
          have hle' := hle.trans (hmono (Known.Le.unknown k'))
          cases k' with
          | unknown => contradiction
          | ended | cons v k' => apply hle'
      | ended | cons v k => exact ⟨_, .inr ⟨n, up_steam, hup, hk⟩, hle⟩
  · rintro ⟨k, rfl | ⟨n, up_steam, hup, hk⟩, hle⟩
    · left
      cases hle
      rfl
    · have hreaches : Reaches N (mk up_steam) out := by
        apply (hF up_steam out).mpr
        use k, hk
        cases k with
        | unknown =>
            cases hle
            apply Known.Le.unknown
        | ended | cons v k => apply hle
      by_cases hout : out = .unknown
      · exact .inl hout
      · right
        obtain ⟨m, g, hstart⟩ := Generator.exists_start hreaches hout
        use max m n, g
        constructor
        · exact Option.bind_eq_some_iff.mpr ⟨up_steam, hc.mono (Nat.le_max_right m n) hup,
            Generator.start_mono (Nat.le_max_left m n) hstart⟩
        · apply (Generator.knows_start hstart).mpr hreaches

theorem started_mono {F : Known T → Known U} (hF : ∀ {j k : Known T}, j.Le k → (F j).Le (F k))
    {j k : Known T} (h : j.Le k) :
  (started F j).Le (started F k)
  := by
  cases h with
  | unknown => apply Known.Le.unknown
  | ended => apply hF .ended
  | cons v hrest => apply hF (.cons v hrest)

variable {M : Coroutine S} {x : M.Frame}

/-- A stage, where the values of its input are known from those of the source. -/
theorem creates_stage {p : Pipeline S T} {N : Coroutine U}
    (hc : Creation fun n => p.create M x n)
    (hp : ∀ out, Creates (fun n => p.create M x n) out ↔ ∃ k, Reaches M x k ∧ out.Le (p.known k))
    {mk : Generator (p.coroutine M) → N.Frame} {F : Known T → Known U}
    (hmono : ∀ {j k : Known T}, j.Le k → (F j).Le (F k))
    (hF : ∀ up_steam out, Reaches N (mk up_steam) out ↔
      ∃ k, up_steam.Knows k ∧ out.Le (F k)) (out : Known U) :
  Creates (fun n => (p.create M x n).bind fun up_steam =>
      Generator.start (M := N) n (mk up_steam)) out ↔
    ∃ k, Reaches M x k ∧ out.Le (started F (p.known k))
  := by
  rw [creates_bind hc hmono hF]
  constructor
  · rintro ⟨k', hk', hle⟩
    obtain ⟨k, hk, hle'⟩ := (hp k').mp hk'
    exact ⟨k, hk, hle.trans (started_mono hmono hle')⟩
  · rintro ⟨k, hk, hle⟩
    exact ⟨p.known k, (hp _).mpr ⟨k, hk, .refl _⟩, hle⟩

/-- What a coroutine reaches, it reaches in part. -/
theorem reaches_of_le {j k : Known S} (h : j.Le k) (hk : Reaches M x k) :
  Reaches M x j
  := by
  induction h generalizing x with
  | unknown => apply Reaches.unknown
  | ended => apply hk
  | cons v _ ih =>
      cases hk with
      | cons hresume hrest => apply Reaches.cons hresume (ih hrest)

theorem creates_start (out : Known S) :
  Creates (fun n => Generator.start (M := M) n x) out ↔ ∃ k, Reaches M x k ∧ out.Le k
  := by
  constructor
  · rintro (rfl | ⟨n, g, hstart, hknows⟩)
    · exact ⟨.unknown, .unknown x, .unknown _⟩
    · exact ⟨out, (Generator.knows_start hstart).mp hknows, .refl _⟩
  · rintro ⟨k, hk, hle⟩
    have hout := reaches_of_le hle hk
    by_cases hne : out = .unknown
    · exact .inl hne
    · obtain ⟨n, g, hstart⟩ := Generator.exists_start hout hne
      exact .inr ⟨n, g, hstart, (Generator.knows_start hstart).mpr hout⟩

theorem creation (p : Pipeline S T) :
  Creation fun n => p.create M x n
  := by
  induction p with
  | source => apply Creation.start
  | map p f ih => apply ih.bind (N := (p.coroutine M).map f) fun up_steam => (up_steam, ())
  | filter p f ih => apply ih.bind (N := (p.coroutine M).filter f) fun up_steam => (up_steam, ())
  | take p n ih => apply ih.bind (N := (p.coroutine M).take n) fun up_steam => (up_steam, 0)
  | take_while p f ih =>
      apply ih.bind (N := (p.coroutine M).take_while f) fun up_steam => (up_steam, ())
  | flat_map p f ih =>
      apply ih.bind (N := (p.coroutine M).flat_map f) fun up_steam => (up_steam, none)

/-- The values of a pipeline are known from those of its source. -/
theorem creates_iff (p : Pipeline S T) (out : Known T) :
  Creates (fun n => p.create M x n) out ↔ ∃ k, Reaches M x k ∧ out.Le (p.known k)
  := by
  induction p with
  | source => apply creates_start
  | map p f ih | filter p f ih | take p n ih | take_while p f ih =>
      apply creates_stage (creation p) ih (fun h => Transducer.run_mono _ h _)
      intro up_steam out
      apply reaches_pull_iff
  | flat_map p f ih =>
      apply creates_stage (creation p) ih (fun h => h.flatMap _)
      intro up_steam out
      apply reaches_flat_map_iff

/-! ### What a client obtains -/

theorem values_started {F : Known T → Known U} {list : List T → List U}
    (hF : ∀ k, (F k).values = list k.values) (hnil : list [] = []) (k : Known T) :
  (started F k).values = list k.values
  := by
  cases k with
  | unknown => apply hnil.symm
  | ended | cons v k => apply hF

/-- The values known of a pipeline are those that the list functions make of the values known of the
source. -/
theorem values_known (p : Pipeline S T) (k : Known S) :
  (p.known k).values = p.list k.values
  := by
  induction p with
  | source => rfl
  | map p f ih =>
      rw [list, ← ih]
      apply values_started _ rfl
      intro k
      rw [Transducer.values_run, runList_map]
  | filter p f ih =>
      rw [list, ← ih]
      apply values_started _ rfl
      intro k
      rw [Transducer.values_run, runList_filter]
  | take p n ih =>
      rw [list, ← ih]
      apply values_started _ List.take_nil
      intro k
      rw [Transducer.values_run, runList_take, Int.sub_zero]
  | take_while p f ih =>
      rw [list, ← ih]
      apply values_started _ rfl
      intro k
      rw [Transducer.values_run, runList_take_while]
  | flat_map p f ih =>
      rw [list, ← ih]
      apply values_started _ rfl
      intro k
      rw [Known.values_flatMap]

theorem isEnded_started {F : Known T → Known U}
    (hF : ∀ k, k.isEnded = true → (F k).isEnded = true) {k : Known T} (h : k.isEnded = true) :
  (started F k).isEnded = true
  := by
  cases k with
  | unknown => contradiction
  | ended | cons v k => apply hF _ h

/-- A pipeline ends where its source does. -/
theorem isEnded_known (p : Pipeline S T) {k : Known S} (h : k.isEnded = true) :
  (p.known k).isEnded = true
  := by
  induction p with
  | source => apply h
  | map p f ih | filter p f ih | take p n ih | take_while p f ih =>
      apply isEnded_started _ ih
      intro k hk
      apply Transducer.isEnded_run _ hk
  | flat_map p f ih =>
      apply isEnded_started _ ih
      intro k hk
      rw [Known.isEnded_flatMap, hk]

variable {calls : List Generator.Call} {answers : List (Generator.Answer T)}

/-- More is known of a pipeline where more is known of its source. -/
theorem known_mono (p : Pipeline S T) {j k : Known S} (h : j.Le k) :
  (p.known j).Le (p.known k)
  := by
  induction p with
  | source => apply h
  | map p f ih | filter p f ih | take p n ih | take_while p f ih =>
      apply started_mono _ ih
      intro j k hle
      apply Transducer.run_mono _ hle
  | flat_map p f ih =>
      apply started_mono _ ih
      intro j k hle
      apply hle.flatMap

/-- All of a source that ends is known as the list functions make it. -/
theorem known_ofList (p : Pipeline S T) (l : List S) :
  p.known (.ofList l) = .ofList (p.list l)
  := by
  rw [← Known.ofList_values (isEnded_known p (Known.isEnded_ofList l)), values_known,
    Known.values_ofList]

/-- What a client obtains is what is expected from what is known of the source, when that is enough
to create the pipeline. -/
theorem obtain_iff (p : Pipeline S T) :
  (∃ n g, p.obtain M x n calls = some (answers, g)) ↔
    ∃ k, Reaches M x k ∧ p.known k ≠ .unknown ∧
      Generator.expected (p.known k) calls = some answers
  := by
  constructor
  · rintro ⟨n, g, h⟩
    obtain ⟨g₀, hcreate, hclient⟩ := Option.bind_eq_some_iff.mp h
    obtain ⟨k, hne, hk, hexpected⟩ : ∃ k, k ≠ .unknown ∧ g₀.Knows k ∧
        Generator.expected k calls = some answers := by
      obtain ⟨k, hk, hexpected⟩ := Generator.exists_known_of_client hclient
      by_cases hne : k = .unknown
      · subst hne
        obtain ⟨k', hne', hk'⟩ := (creation p).ready hcreate
        exact ⟨k', hne', hk', Generator.expected_mono (.unknown k') hexpected⟩
      · exact ⟨k, hne, hk, hexpected⟩
    obtain ⟨k', hk', hle⟩ := (creates_iff p k).mp (.inr ⟨n, g₀, hcreate, hk⟩)
    refine ⟨k', hk', ?_, Generator.expected_mono hle hexpected⟩
    intro hunknown
    rw [hunknown] at hle
    cases hle
    contradiction
  · rintro ⟨k, hk, hne, hexpected⟩
    obtain hunknown | ⟨m, g₀, hcreate, hknows⟩ :=
      (creates_iff p (p.known k)).mpr ⟨k, hk, .refl _⟩
    · contradiction
    · obtain ⟨n, g, hclient⟩ := Generator.exists_client_of_known hknows hexpected
      use max m n, g
      exact Option.bind_eq_some_iff.mpr ⟨g₀, (creation p).mono (Nat.le_max_left m n) hcreate,
        Generator.client_mono (Nat.le_max_right m n) hclient⟩

/-- Where the source ends, every client obtains what is expected of the list of values. -/
theorem obtain_iff_of_ended (p : Pipeline S T) {l : List S} (hl : Reaches M x (.ofList l)) :
  (∃ n g, p.obtain M x n calls = some (answers, g)) ↔
    Generator.expected (.ofList (p.list l)) calls = some answers
  := by
  rw [obtain_iff, ← known_ofList]
  constructor
  · rintro ⟨k, hk, -, hexpected⟩
    have hle := hl.le_of_isEnded (Known.isEnded_ofList l) hk
    apply Generator.expected_mono (p.known_mono hle) hexpected
  · intro hexpected
    refine ⟨.ofList l, hl, ?_, hexpected⟩
    rw [known_ofList]
    apply Known.ofList_ne_unknown

/-- What a client obtains are the values of the list functions. -/
structure Agrees (M : Coroutine S) (x : M.Frame) (p : Pipeline S T) : Prop where
  /-- The values obtained are, in order, the first of those that the list functions make of the
  first values of the source. -/
  in_order : ∀ n calls answers g, p.obtain M x n calls = some (answers, g) →
    ∃ k, Reaches M x k ∧ Generator.obtained answers <+: p.list k.values
  /-- A client obtains exactly what is expected from what is known of the source, when that is
  enough to create the pipeline. -/
  obtain_iff : ∀ calls answers, (∃ n g, p.obtain M x n calls = some (answers, g)) ↔
    ∃ k, Reaches M x k ∧ p.known k ≠ .unknown ∧
      Generator.expected (p.known k) calls = some answers
  /-- Where the source ends, a client obtains exactly what is expected of the list of values. -/
  obtain_iff_of_ended : ∀ l, Reaches M x (.ofList l) → ∀ calls answers,
    (∃ n g, p.obtain M x n calls = some (answers, g)) ↔
      Generator.expected (.ofList (p.list l)) calls = some answers
  /-- What is known of the pipeline are the values of the list functions, and its end where the
  source ends. -/
  known : ∀ k, (p.known k).values = p.list k.values ∧
    (k.isEnded = true → (p.known k).isEnded = true)
  idempotent : ∀ n b (g g' : Generator (p.coroutine M)), g.has_next n = some (b, g') →
    ∀ m, g'.has_next m = some (b, g')
  throws : ∀ n (g g' : Generator (p.coroutine M)),
    g.next n = some (.error ⟨⟩, g') ↔ g.has_next n = some (false, g')

/-- `take(n)` at the end of a pipeline. -/
structure Takes (M : Coroutine S) (x : M.Frame) (p : Pipeline S T) (n : ℤ) : Prop where
  /-- It is exhausted when its input has yielded `n` values, or has ended. -/
  exhausted : ∀ k, Reaches M x k → p.known k ≠ .unknown →
    (n.toNat ≤ (p.known k).values.length ∨ (p.known k).isEnded = true) →
    let values := (p.known k).values.take n.toNat
    ∃ m g, (p.take n).obtain M x m (List.replicate values.length .next ++ [.has_next]) =
      some (values.map (fun v => .next (.ok v)) ++ [.has_next false], g)
  /-- It is resumed finitely often, and so is its input. -/
  resumes : ∀ m calls answers (g : Generator ((p.coroutine M).take n)),
    (p.take n).obtain M x m calls = some (answers, g) →
    g.resumes ≤ n.toNat + 1 ∧ (takeInput g).resumes ≤ max 1 n.toNat
  /-- The input is not resumed after the last value. -/
  keeps : ∀ m m' calls calls' answers answers' (g g' : Generator ((p.coroutine M).take n)),
    (p.take n).obtain M x m calls = some (answers, g) →
    (Generator.obtained answers).length = n.toNat →
    Generator.client m' calls' g = some (answers', g') →
    takeInput g' = takeInput g

theorem agrees (M : Coroutine S) (x : M.Frame) (p : Pipeline S T) :
  Agrees M x p
  := by
  constructor
  · intro n calls answers g h
    obtain ⟨k, hk, -, hexpected⟩ := p.obtain_iff.mp ⟨n, g, h⟩
    use k, hk
    rw [← values_known]
    apply Generator.obtained_of_expected hexpected
  · intro calls answers
    apply obtain_iff
  · intro l hl calls answers
    apply obtain_iff_of_ended p hl
  · intro k
    exact ⟨values_known p k, isEnded_known p⟩
  · intro n b g g' h
    apply Generator.has_next_idempotent h
  · intro n g g'
    apply Generator.next_throws_iff

theorem started_of_ne {F : Known T → Known U} {k : Known T} (h : k ≠ .unknown) :
  started F k = F k
  := by
  cases k with
  | unknown => contradiction
  | ended | cons v k => rfl

/-- What a client does with `take`. -/
theorem taking_of_obtain {p : Pipeline S T} {n : ℤ} {m : ℕ}
    {g : Generator ((p.coroutine M).take n)}
    (h : (p.take n).obtain M x m calls = some (answers, g)) :
  Taking (p.coroutine M) n (Generator.obtained answers).length g
  := by
  obtain ⟨g₀, hcreate, hclient⟩ := Option.bind_eq_some_iff.mp h
  obtain ⟨up_steam, hup, hstart⟩ := Option.bind_eq_some_iff.mp hcreate
  obtain ⟨hresumes, hsettled⟩ := (creation p).settled hup
  have htaking := (Taking.start hresumes hsettled hstart).client hclient
  rw [Nat.zero_add] at htaking
  apply htaking

theorem takes (M : Coroutine S) (x : M.Frame) (p : Pipeline S T) (n : ℤ) :
  Takes M x p n
  := by
  constructor
  · intro k hk hne hlength values
    have hknown : (p.take n).known k = (Stage.take n).run 0 (p.known k) := started_of_ne hne
    have hended : ((p.take n).known k).isEnded = true := by
      rw [hknown]
      apply isEnded_take
      rw [Int.sub_zero]
      apply hlength
    have hvalues : ((p.take n).known k).values = values := by
      rw [hknown, Transducer.values_run, runList_take, Int.sub_zero]
    apply (obtain_iff (p.take n)).mpr
    refine ⟨k, hk, ?_, ?_⟩
    · intro hunknown
      rw [hunknown] at hended
      contradiction
    · rw [← hvalues]
      apply Generator.expected_all hended
  · intro m calls answers g h
    apply (taking_of_obtain h).resumes_le
  · intro m m' calls calls' answers answers' g g' h hlength hclient
    apply ((taking_of_obtain h).full hlength).client hclient

/-- From every source, whether it ends or not, a client that calls `has_next` and `next` as it likes
obtains through every pipeline the values of the list functions; `take` at the end of a pipeline is
exhausted after finitely many resumptions, and does not resume its input after its last value. -/
theorem agrees_and_takes (M : Coroutine S) (x : M.Frame) (p : Pipeline S T) :
  Agrees M x p ∧ ∀ n, Takes M x p n
  := ⟨agrees M x p, takes M x p⟩

example :
  let p : Pipeline ℕ ℕ := (((Pipeline.source.filter (· % 2 = 0)).map (· * 3)).flat_map
    fun i => ⟨.from_list ℕ, [i, i + 1], [i, i + 1], reaches_from_list _⟩).take 3
  (p.obtain (.from_list ℕ) [1, 2, 3, 4, 5, 6] 20
      [.next, .has_next, .next, .next, .has_next, .next]).map Prod.fst =
    some [.next (.ok 6), .has_next true, .next (.ok 7), .next (.ok 12), .has_next false,
      .next (.error ⟨⟩)]
  := rfl

end Pipeline

end Koroutine
