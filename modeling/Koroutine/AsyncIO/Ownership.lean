import Koroutine.AsyncIO.Connecting

/-!
# The descriptors of `connect`

A descriptor that has been opened belongs to the attempt, or to an `AsyncSocket` to which somebody
has a reference, or has been closed once.  With what is tried, this gives what
`connect(engine, host, port)` does with the endpoints and the descriptors in every run.
-/

open Transition

namespace Koroutine

namespace AsyncSocket

variable {E : Type*} {linux : Bool} {host : String} {s t : State E} {a : Label E} {log : Log E}
  {ep : E} {fd fd' : ℕ} {e : Exception} {r : References}

/-- The descriptor that is not in an `AsyncSocket` yet. -/
def Pc.raw : Pc E → Option ℕ
  | .set_nonblocking _ fd => some fd
  | .connect _ fd => some fd
  | _ => none

/-- The descriptor of the object that the coroutine refers to. -/
def Pc.object : Pc E → Option ℕ
  | .awaiting _ fd => some fd
  | .resuming _ fd _ => some fd
  | .getsockopt _ fd => some fd
  | _ => none

/-- The descriptor of the object that is returned. -/
def Pc.result : Pc E → Option ℕ
  | .returned fd => some fd
  | _ => none

/-- Whose each descriptor is that has been opened. -/
structure Owned (s : State E) : Prop where
  raw : ∀ fd, s.pc.raw = some fd → fd < s.opened ∧ (s.references fd).any = false ∧ s.closed fd = 0
  coroutine : ∀ fd, (s.references fd).coroutine = true ↔ s.pc.object = some fd
  result : ∀ fd, (s.references fd).result = true ↔ s.pc.result = some fd
  live : ∀ fd, (s.references fd).any = true → fd < s.opened ∧ s.closed fd = 0
  dead : ∀ fd < s.opened, (s.references fd).any = false → s.pc.raw ≠ some fd → s.closed fd = 1
  fresh : ∀ fd, s.opened ≤ fd → s.closed fd = 0

theorem Owned.initial :
  Owned (initial E)
  := by
  constructor <;> simp [AsyncSocket.initial, Pc.raw, Pc.object, Pc.result, References.none,
    References.any]

/-- A step that does nothing with descriptors. -/
theorem Owned.congr (h : Owned s) (hraw : t.pc.raw = s.pc.raw) (hobject : t.pc.object = s.pc.object)
    (hresult : t.pc.result = s.pc.result) (hopened : t.opened = s.opened)
    (hclosed : t.closed = s.closed) (hreferences : t.references = s.references) :
  Owned t
  := by
  constructor
  · rw [hraw, hopened, hclosed, hreferences]
    apply h.raw
  · rw [hobject, hreferences]
    apply h.coroutine
  · rw [hresult, hreferences]
    apply h.result
  · rw [hopened, hclosed, hreferences]
    apply h.live
  · rw [hraw, hopened, hclosed, hreferences]
    apply h.dead
  · rw [hopened, hclosed]
    apply h.fresh

/-- A descriptor is opened. -/
theorem Owned.opens (h : Owned s) (hs : s.pc.raw = none) (hraw : t.pc.raw = some s.opened)
    (hobject : t.pc.object = s.pc.object) (hresult : t.pc.result = s.pc.result)
    (hopened : t.opened = s.opened + 1) (hclosed : t.closed = s.closed)
    (hreferences : t.references = s.references) :
  Owned t
  := by
  have hnew : (s.references s.opened).any = false := by
    by_contra hany
    have hlt := (h.live s.opened (by simpa using hany)).1
    omega
  constructor
  · intro fd hfd
    obtain rfl : s.opened = fd := by simpa [hraw] using hfd
    rw [hopened, hreferences, hclosed]
    refine ⟨Nat.lt_succ_self _, hnew, ?_⟩
    apply h.fresh _ (le_refl _)
  · rw [hobject, hreferences]
    apply h.coroutine
  · rw [hresult, hreferences]
    apply h.result
  · rw [hreferences, hopened, hclosed]
    intro fd hany
    obtain ⟨hlt, hzero⟩ := h.live fd hany
    exact ⟨by omega, hzero⟩
  · rw [hraw, hreferences, hopened, hclosed]
    intro fd hlt hany hne
    have hother : fd ≠ s.opened := by
      rintro rfl
      contradiction
    apply h.dead fd (by omega) hany
    simp [hs]
  · rw [hopened, hclosed]
    intro fd hle
    apply h.fresh fd (by omega)

/-- The attempt closes its descriptor. -/
theorem Owned.closes (h : Owned s) (hs : s.pc.raw = some fd) (hraw : t.pc.raw = none)
    (hobject : t.pc.object = s.pc.object) (hresult : t.pc.result = s.pc.result)
    (hopened : t.opened = s.opened) (hclosed : t.closed = (s.close fd).closed)
    (hreferences : t.references = s.references) :
  Owned t
  := by
  obtain ⟨hlt, hnone, hzero⟩ := h.raw fd hs
  constructor
  · simp [hraw]
  · rw [hobject, hreferences]
    apply h.coroutine
  · rw [hresult, hreferences]
    apply h.result
  · rw [hreferences, hopened, hclosed]
    intro fd' hany
    have hne : fd' ≠ fd := by
      rintro rfl
      simp [hnone] at hany
    obtain ⟨hlt', hzero'⟩ := h.live fd' hany
    exact ⟨hlt', by simpa [State.close, hne] using hzero'⟩
  · rw [hreferences, hopened, hclosed]
    intro fd' hlt' hany _
    by_cases hne : fd' = fd
    · subst hne
      simp [State.close, hzero]
    · have hdead := h.dead fd' hlt' hany (by simpa [hs] using Ne.symm hne)
      simpa [State.close, hne] using hdead
  · rw [hopened, hclosed]
    intro fd' hle
    have hne : fd' ≠ fd := by omega
    simpa [State.close, hne] using h.fresh fd' hle

theorem hold_references :
  (s.hold fd r).references = Function.update s.references fd r
  := by
  unfold State.hold
  split
  · rfl
  · rfl

theorem hold_opened :
  (s.hold fd r).opened = s.opened
  := by
  unfold State.hold
  split
  · rfl
  · rfl

theorem hold_closed_self :
  (s.hold fd r).closed fd = s.closed fd + (!r.any).toNat
  := by
  unfold State.hold
  cases hany : r.any with
  | true => rfl
  | false => simp [State.close]

theorem hold_closed_of_ne (h : fd' ≠ fd) :
  (s.hold fd r).closed fd' = s.closed fd'
  := by
  unfold State.hold
  split
  · rfl
  · simp [State.close, h]

/-- The references to the object over a descriptor change, or there is one now. -/
theorem Owned.hold (h : Owned s) (hfd : fd < s.opened) (hopen : s.closed fd = 0)
    (hraw : t.pc.raw ≠ some fd)
    (hcoroutine : r.coroutine = true ↔ t.pc.object = some fd)
    (hresult : r.result = true ↔ t.pc.result = some fd)
    (hother : ∀ fd' ≠ fd, (t.pc.raw = some fd' ↔ s.pc.raw = some fd') ∧
      (t.pc.object = some fd' ↔ s.pc.object = some fd') ∧
      (t.pc.result = some fd' ↔ s.pc.result = some fd'))
    (hopened : t.opened = (s.hold fd r).opened) (hclosed : t.closed = (s.hold fd r).closed)
    (hreferences : t.references = (s.hold fd r).references) :
  Owned t
  := by
  rw [hold_opened] at hopened
  rw [hold_references] at hreferences
  have hself : t.references fd = r := by simp [hreferences]
  have hrest : ∀ fd' ≠ fd, t.references fd' = s.references fd' := by
    intro fd' hne
    simp [hreferences, hne]
  have hkept : ∀ fd' ≠ fd, t.closed fd' = s.closed fd' := by
    intro fd' hne
    rw [hclosed, hold_closed_of_ne hne]
  have hnow : t.closed fd = (!r.any).toNat := by
    rw [hclosed, hold_closed_self, hopen, Nat.zero_add]
  constructor
  · intro fd' hraw'
    have hne : fd' ≠ fd := by
      rintro rfl
      contradiction
    rw [hopened, hrest fd' hne, hkept fd' hne]
    apply h.raw fd' ((hother fd' hne).1.mp hraw')
  · intro fd'
    by_cases hne : fd' = fd
    · subst hne
      rw [hself]
      apply hcoroutine
    · rw [hrest fd' hne, h.coroutine, (hother fd' hne).2.1]
  · intro fd'
    by_cases hne : fd' = fd
    · subst hne
      rw [hself]
      apply hresult
    · rw [hrest fd' hne, h.result, (hother fd' hne).2.2]
  · intro fd' hany
    by_cases hne : fd' = fd
    · subst hne
      rw [hself] at hany
      rw [hopened, hnow, hany]
      exact ⟨hfd, rfl⟩
    · rw [hrest fd' hne] at hany
      rw [hopened, hkept fd' hne]
      apply h.live fd' hany
  · intro fd' hlt hany hraw'
    by_cases hne : fd' = fd
    · subst hne
      rw [hself] at hany
      rw [hnow, hany]
      rfl
    · rw [hrest fd' hne] at hany
      rw [hopened] at hlt
      rw [hkept fd' hne]
      apply h.dead fd' hlt hany
      rw [Ne, ← (hother fd' hne).1]
      apply hraw'
  · intro fd' hle
    rw [hopened] at hle
    rw [hkept fd' (by omega)]
    apply h.fresh fd' hle

/-! ### The steps -/

@[simp]
theorem throw_raw :
  (s.throw e).pc.raw = none
  := by
  unfold State.throw
  split
  · rfl
  · rfl

@[simp]
theorem throw_object :
  (s.throw e).pc.object = none
  := by
  unfold State.throw
  split
  · rfl
  · rfl

@[simp]
theorem throw_result :
  (s.throw e).pc.result = none
  := by
  unfold State.throw
  split
  · rfl
  · rfl

theorem throw_opened :
  (s.throw e).opened = s.opened
  := by
  unfold State.throw
  split
  · rfl
  · rfl

theorem throw_closed :
  (s.throw e).closed = s.closed
  := by
  unfold State.throw
  split
  · rfl
  · rfl

theorem throw_references :
  (s.throw e).references = s.references
  := by
  unfold State.throw
  split
  · rfl
  · rfl

/-- The coroutine leaves the object to the others that refer to it. -/
theorem Owned.leave (h : Owned s) (hs : s.pc.object = some fd) :
  Owned ((s.unwind fd).throw e)
  := by
  have hcoroutine := (h.coroutine fd).mpr hs
  obtain ⟨hlt, hopen⟩ := h.live fd (by simp [References.any, hcoroutine])
  have hresult : (s.references fd).result = false := by
    by_contra hresult
    have hpc := (h.result fd).mp (by simpa using hresult)
    cases hcase : s.pc <;> simp [hcase, Pc.object, Pc.result] at hs hpc
  have hraw : s.pc.raw = none ∧ s.pc.result = none := by
    cases hcase : s.pc <;> simp [hcase, Pc.object, Pc.raw, Pc.result] at hs ⊢
  refine h.hold hlt hopen ?_ ?_ ?_ ?_ throw_opened throw_closed throw_references
  · simp
  · simp
  · simp [hresult]
  · intro fd' hne
    simp [hraw.1, hraw.2, hs, Ne.symm hne]

/-- A step between places where no descriptor is held. -/
theorem Owned.idle (h : Owned s) (hs : s.pc.raw = none ∧ s.pc.object = none ∧ s.pc.result = none)
    (ht : t.pc.raw = none ∧ t.pc.object = none ∧ t.pc.result = none) (hopened : t.opened = s.opened)
    (hclosed : t.closed = s.closed) (hreferences : t.references = s.references) :
  Owned t
  := by
  apply h.congr _ _ _ hopened hclosed hreferences
  · rw [ht.1, hs.1]
  · rw [ht.2.1, hs.2.1]
  · rw [ht.2.2, hs.2.2]

/-- The attempt closes its descriptor and throws. -/
theorem Owned.abandon (h : Owned s) (hs : s.pc.raw = some fd) :
  Owned ((s.close fd).throw e)
  := by
  have hnone : s.pc.object = none ∧ s.pc.result = none := by
    cases hcase : s.pc <;> simp [hcase, Pc.object, Pc.raw, Pc.result] at hs ⊢
  refine h.closes hs throw_raw ?_ ?_ throw_opened throw_closed throw_references
  · rw [throw_object, hnone.1]
  · rw [throw_result, hnone.2]

/-- The attempt makes an object over its descriptor. -/
theorem Owned.wrap {pc : Pc E} (h : Owned s) (hs : s.pc.raw = some fd) (hraw : pc.raw = none)
    (hcoroutine : pc.object = if r.coroutine then some fd else none)
    (hresult : pc.result = if r.result then some fd else none) :
  Owned { s.hold fd r with pc := pc }
  := by
  obtain ⟨hlt, -, hopen⟩ := h.raw fd hs
  have hnone : s.pc.object = none ∧ s.pc.result = none := by
    cases hcase : s.pc <;> simp [hcase, Pc.object, Pc.raw, Pc.result] at hs ⊢
  refine h.hold hlt hopen ?_ ?_ ?_ ?_ rfl rfl rfl
  · simp [hraw]
  · simp [hcoroutine]
  · simp [hresult]
  · intro fd' hne
    simp [hraw, hcoroutine, hresult, hs, hnone.1, hnone.2, Ne.symm hne]

theorem Owned.step (h : Owned s) (hstep : step linux host s a = some t) :
  Owned t
  := by
  cases effect hstep with
  | literal hpc | no_literal hpc | resolve_failed hpc | resolved_none hpc | resolved hpc
  | next hpc | rethrown hpc | exhausted hpc =>
      refine h.idle ?_ ⟨rfl, rfl, rfl⟩ rfl rfl rfl
      rw [hpc]
      exact ⟨rfl, rfl, rfl⟩
  | socket_failed hpc =>
      refine h.idle ?_ ⟨throw_raw, throw_object, throw_result⟩ throw_opened throw_closed
        throw_references
      rw [hpc]
      exact ⟨rfl, rfl, rfl⟩
  | opened hpc =>
      refine h.opens ?_ ?_ ?_ ?_ rfl rfl rfl
      · rw [hpc]
        rfl
      · cases linux <;> rfl
      · rw [hpc]
        cases linux <;> rfl
      · rw [hpc]
        cases linux <;> rfl
  | set_nonblocking_failed hpc | connect_failed hpc =>
      apply h.abandon
      rw [hpc, Pc.raw]
  | nonblocking hpc | completed hpc | resumed hpc =>
      refine h.congr ?_ ?_ ?_ rfl rfl rfl
      · rw [hpc]
        rfl
      · rw [hpc]
        rfl
      · rw [hpc]
        rfl
  | connected hpc | in_progress hpc =>
      refine h.wrap ?_ rfl rfl rfl
      rw [hpc, Pc.raw]
  | operation_failed hpc | getsockopt_failed hpc | so_error hpc =>
      apply h.leave
      rw [hpc, Pc.object]
  | @established ep fd hpc =>
      have hcoroutine := (h.coroutine fd).mpr (by rw [hpc, Pc.object])
      obtain ⟨hlt, hopen⟩ := h.live fd (by simp [References.any, hcoroutine])
      refine h.hold hlt hopen ?_ ?_ ?_ ?_ rfl rfl rfl
      · simp [Pc.raw]
      · simp [Pc.object]
      · simp [Pc.result]
      · intro fd' hne
        simp [hpc, Pc.raw, Pc.object, Pc.result, Ne.symm hne]
  | @released fd hengine =>
      obtain ⟨hlt, hopen⟩ := h.live fd (by simp [References.any, hengine])
      refine h.hold hlt hopen ?_ ?_ ?_ ?_ rfl rfl rfl
      · rw [hold_pc]
        intro hraw
        have hnone := (h.raw fd hraw).2.1
        simp [References.any, hengine] at hnone
      · rw [hold_pc]
        apply h.coroutine
      · rw [hold_pc]
        apply h.result
      · simp [hold_pc]

/-! ### How long it takes -/

/-- The steps that a label brings: those of the attempts at the endpoints it makes known, and that
of the engine letting go of an operation. -/
def Label.credit : Label E → ℕ
  | .construct (some _) => 4
  | .resolve (.ok eps) => 7 * eps.length
  | .release _ => 1
  | _ => 0

/-- The steps of the loop over the endpoints that are left. -/
def State.loop (s : State E) : ℕ :=
  s.rest.elim 0 fun eps => 7 * eps.length + 1

/-- The steps that the coroutines can still take. -/
def State.rank (s : State E) : ℕ :=
  match s.pc with
  | .constructing => 3
  | .resolving => 2
  | .iterating => s.loop
  | .socket _ => s.loop + 6
  | .set_nonblocking _ _ => s.loop + 5
  | .connect _ _ => s.loop + 4
  | .awaiting _ _ => s.loop + 3
  | .resuming _ _ _ => s.loop + 2
  | .getsockopt _ _ => s.loop + 1
  | .returned _ => 0
  | .thrown _ => 0

theorem rank_throw :
  (s.throw e).rank ≤ s.loop
  := by
  unfold State.throw
  split
  · apply Nat.zero_le
  · apply le_refl

theorem hold_loop :
  (s.hold fd r).loop = s.loop
  := by
  rw [State.loop, hold_rest, State.loop]

theorem hold_rank :
  (s.hold fd r).rank = s.rank
  := by
  unfold State.rank
  rw [hold_pc, hold_loop]

/-- While an attempt is made, more is left than the loop over the endpoints behind it. -/
theorem loop_lt_rank (h : s.pc.endpoint = some ep) :
  s.loop < s.rank
  := by
  unfold State.rank
  cases hpc : s.pc <;> simp [hpc, Pc.endpoint] at h ⊢

/-- An attempt throws. -/
theorem rank_failed {k : ℕ} (hs : s.pc.endpoint = some ep) (ht : t.loop = s.loop) :
  (t.throw e).rank + 1 ≤ s.rank + k
  := by
  have hlt := loop_lt_rank hs
  have hthrow := rank_throw (s := t) (e := e)
  omega

/-- An attempt goes on. -/
theorem rank_goes {pc : Pc E} {k : ℕ} (hrest : t.rest = s.rest) (hpc : t.pc = pc)
    (hlt : State.rank { s with pc := pc } < s.rank) :
  t.rank + 1 ≤ s.rank + k
  := by
  have hrank : t.rank = State.rank { s with pc := pc } := by
    unfold State.rank State.loop
    rw [hrest, hpc]
  omega

/-- Every step lowers the rank, up to what its label brings. -/
theorem rank_step (h : Tries host log s) (hstep : step linux host s a = some t) :
  t.rank + 1 ≤ s.rank + a.credit
  := by
  cases effect hstep with
  | literal hpc =>
      obtain ⟨hrest, -⟩ := h.of_resolving (.inl hpc)
      simp [State.rank, State.loop, hpc, hrest, Label.credit]
  | no_literal hpc | resolve_failed hpc | resolved_none hpc => simp [State.rank, hpc, Label.credit]
  | resolved hpc =>
      simp only [State.rank, State.loop, hpc, Label.credit, Option.elim_some]
      omega
  | next hpc hrest =>
      simp only [State.rank, State.loop, hpc, hrest, Label.credit, Option.elim_some,
        List.length_cons]
      omega
  | rethrown hpc hrest | exhausted hpc hrest => simp [State.rank, State.loop, hpc, hrest]
  | opened hpc =>
      refine rank_goes rfl rfl ?_
      cases linux <;> simp [State.rank, State.loop, hpc]
  | nonblocking hpc | completed hpc | resumed hpc =>
      refine rank_goes rfl rfl ?_
      simp [State.rank, State.loop, hpc]
  | in_progress hpc =>
      refine rank_goes hold_rest rfl ?_
      simp [State.rank, State.loop, hpc]
  | connected hpc | established hpc => simp [State.rank, hpc, Label.credit]
  | socket_failed hpc | set_nonblocking_failed hpc | connect_failed hpc =>
      exact rank_failed (by rw [hpc, Pc.endpoint]) rfl
  | operation_failed hpc | getsockopt_failed hpc | so_error hpc =>
      exact rank_failed (by rw [hpc, Pc.endpoint]) hold_loop
  | released => rw [hold_rank, Label.credit]

/-! ### The runs -/

/-- The coroutines have ended. -/
def Pc.Ended (pc : Pc E) : Prop := (∃ fd, pc = .returned fd) ∨ ∃ e, pc = .thrown e

/-- Unless they have ended, the coroutines can take a step. -/
theorem Tries.goes_on (h : Tries host log s) :
  s.pc.Ended ∨ ∃ (a : Label E) (t : State E), a.credit = 0 ∧
    AsyncSocket.step linux host s a = some t
  := by
  cases hpc : s.pc with
  | constructing =>
      right
      use .construct none
      simp [AsyncSocket.step, hpc, Label.credit]
  | resolving =>
      right
      use .resolve (.ok [])
      simp [AsyncSocket.step, hpc, Label.credit]
  | iterating =>
      right
      obtain ⟨eps, hrest, -⟩ := h.of_iterating hpc
      use .next
      cases eps with
      | cons ep eps => simp [AsyncSocket.step, hpc, hrest, Label.credit]
      | nil =>
          obtain ⟨-, before, ep, o, e, -, -, -, hlast⟩ := h.of_exhausted hpc hrest
          simp [AsyncSocket.step, hpc, hrest, hlast, Label.credit]
  | socket ep =>
      right
      use .socket none
      simp [AsyncSocket.step, hpc, Label.credit]
  | set_nonblocking ep fd =>
      right
      use .set_nonblocking none
      simp [AsyncSocket.step, hpc, Label.credit]
  | connect ep fd =>
      right
      use .connect .connected
      simp [AsyncSocket.step, hpc, Label.credit]
  | awaiting ep fd =>
      right
      use .complete none
      simp [AsyncSocket.step, hpc, Label.credit]
  | resuming ep fd error =>
      right
      use .resume
      cases error <;> simp [AsyncSocket.step, hpc, Label.credit]
  | getsockopt ep fd =>
      right
      use .getsockopt (.ok 0)
      simp [AsyncSocket.step, hpc, Label.credit]
  | returned fd =>
      left
      left
      use fd
  | thrown e =>
      left
      right
      use e

/-- What `connect(engine, host, port)` does. -/
structure Connects (linux : Bool) (host : String) (as : List (Label E)) (log : Log E)
    (s : State E) : Prop where
  /-- The endpoints are tried in their order. -/
  order : log.tried.map Prod.fst <+: log.endpoints
  /-- The socket of the first attempt that succeeds is returned, and none is made after it. -/
  returns : ∀ fd, s.pc = .returned fd ↔ ∃ before ep o, log.tried = before ++ [(ep, o)] ∧
    o.result = .ok fd ∧ ∀ x ∈ before, x.2.Failed
  first : (∀ fd, s.pc ≠ .returned fd) → ∀ x ∈ log.tried, x.2.Failed
  /-- When every endpoint has been tried, the exception of the last attempt is thrown; without
  endpoints it is one about the host. -/
  throws : ∀ e, s.pc = .thrown e →
    (log.tried.map Prod.fst = log.endpoints ∧
      ∃ before ep o, log.tried = before ++ [(ep, o)] ∧ o.result = .error e) ∨
    log.endpoints = [] ∧ ∃ w, e = .runtime_error ("Could not resolve host: " ++ host ++ w)
  /-- No descriptor is closed twice, and that of the returned socket is open. -/
  once : ∀ fd, s.closed fd ≤ 1
  kept : ∀ fd, s.pc = .returned fd → fd < s.opened ∧ s.closed fd = 0
  /-- In the end every other descriptor has been closed. -/
  closes : s.pc.Ended → (∀ fd, (s.references fd).engine = false) →
    ∀ fd < s.opened, s.pc = .returned fd ∨ s.closed fd = 1
  /-- The coroutines can go on until they end, which they do. -/
  goes_on : s.pc.Ended ∨ ∃ (a : Label E) (t : State E), a.credit = 0 ∧ step linux host s a = some t
  ends : as.length + s.rank ≤ 3 + (as.map Label.credit).sum

theorem Tries.initial :
  Tries host ⟨[], []⟩ (initial E)
  := .resolving (.inl rfl) rfl rfl rfl rfl

theorem Tries.order (h : Tries host log s) :
  log.tried.map Prod.fst <+: log.endpoints
  := by
  cases h with
  | resolving _ _ _ _ htried | unresolved _ _ htried =>
      rw [htried]
      apply List.nil_prefix
  | iterating _ _ horder | trying _ _ horder | returned _ _ horder =>
      rw [horder]
      apply List.prefix_append
  | thrown _ horder => simp [horder]

/-- When nothing has been returned, no attempt has succeeded. -/
theorem Tries.first (h : Tries host log s) (hs : ∀ fd, s.pc ≠ .returned fd) :
  ∀ x ∈ log.tried, x.2.Failed
  := by
  cases h with
  | resolving _ _ _ _ htried | unresolved _ _ htried => simp [htried]
  | iterating _ _ _ _ hfailed | trying _ _ _ hfailed => apply hfailed
  | returned _ hpc => exact absurd hpc (hs _)
  | @thrown e before ep o hpc horder htried hresult hfailed =>
      rw [htried]
      intro x hx
      obtain hbefore | hlast := List.mem_append.mp hx
      · apply hfailed x hbefore
      · obtain rfl : x = (ep, o) := by simpa using hlast
        exact ⟨e, hresult⟩

theorem Tries.returned_iff (h : Tries host log s) :
  s.pc = .returned fd ↔ ∃ before ep o, log.tried = before ++ [(ep, o)] ∧ o.result = .ok fd ∧
    ∀ x ∈ before, x.2.Failed
  := by
  constructor
  · intro hs
    cases h with
    | @returned fd' before ep o eps hpc horder htried hresult hfailed =>
        obtain rfl : fd' = fd := by simpa [hpc] using hs
        exact ⟨before, ep, o, htried, hresult, hfailed⟩
    | resolving hpc | iterating hpc | thrown hpc => simp [hs] at hpc
    | trying _ hpc => simp [hs, Pc.endpoint] at hpc
    | unresolved _ _ _ hpc => simp [hs] at hpc
  · rintro ⟨before, ep, o, htried, hresult, -⟩
    have hok : ¬ o.Failed := by
      rintro ⟨e, he⟩
      simp [hresult] at he
    cases h with
    | @returned fd' before' ep' o' eps hpc horder htried' hresult' hfailed =>
        rw [htried] at htried'
        obtain ⟨-, -, rfl⟩ : before = before' ∧ ep = ep' ∧ o = o' := by simpa using htried'
        obtain rfl : fd = fd' := by simpa [hresult] using hresult'
        apply hpc
    | resolving _ _ _ _ hnone | unresolved _ _ hnone => simp [hnone] at htried
    | iterating _ _ _ _ hfailed | trying _ _ _ hfailed =>
        apply absurd _ hok
        apply hfailed (ep, o)
        simp [htried]
    | @thrown e before' ep' o' hpc horder htried' hresult' hfailed =>
        rw [htried] at htried'
        obtain ⟨-, -, rfl⟩ : before = before' ∧ ep = ep' ∧ o = o' := by simpa using htried'
        simp [hresult] at hresult'

theorem Tries.throws (h : Tries host log s) (hs : s.pc = .thrown e) :
  (log.tried.map Prod.fst = log.endpoints ∧
    ∃ before ep o, log.tried = before ++ [(ep, o)] ∧ o.result = .error e) ∨
  log.endpoints = [] ∧ ∃ w, e = .runtime_error ("Could not resolve host: " ++ host ++ w)
  := by
  cases h with
  | @thrown e' before ep o hpc horder htried hresult hfailed =>
      obtain rfl : e' = e := by simpa [hpc] using hs
      exact .inl ⟨horder.symm, before, ep, o, htried, hresult⟩
  | unresolved w hendpoints htried hpc =>
      right
      constructor
      · apply hendpoints
      · use w
        simpa [hpc, eq_comm] using hs
  | resolving hpc | iterating hpc | returned _ hpc => simp [hs] at hpc
  | trying _ hpc => simp [hs, Pc.endpoint] at hpc

theorem Owned.once (h : Owned s) (fd : ℕ) :
  s.closed fd ≤ 1
  := by
  by_cases hlt : fd < s.opened
  · by_cases hany : (s.references fd).any = true
    · rw [(h.live fd hany).2]
      apply Nat.zero_le
    · by_cases hraw : s.pc.raw = some fd
      · rw [(h.raw fd hraw).2.2]
        apply Nat.zero_le
      · rw [h.dead fd hlt (by simpa using hany) hraw]
  · rw [h.fresh fd (by omega)]
    apply Nat.zero_le

theorem Owned.kept (h : Owned s) (hs : s.pc = .returned fd) :
  fd < s.opened ∧ s.closed fd = 0
  := by
  have hresult := (h.result fd).mpr (by rw [hs, Pc.result])
  apply h.live
  simp [References.any, hresult]

theorem Owned.closed_of_ended (h : Owned s) (hs : s.pc.Ended)
    (hengine : ∀ fd, (s.references fd).engine = false) (hlt : fd < s.opened) :
  s.pc = .returned fd ∨ s.closed fd = 1
  := by
  have hnone : s.pc.raw = none ∧ s.pc.object = none := by
    obtain ⟨fd, hpc⟩ | ⟨e, hpc⟩ := hs
    · simp [hpc, Pc.raw, Pc.object]
    · simp [hpc, Pc.raw, Pc.object]
  by_cases hresult : (s.references fd).result = true
  · left
    have hpc := (h.result fd).mp hresult
    cases hcase : s.pc <;> simp [hcase, Pc.result] at hpc ⊢
    apply hpc
  · right
    apply h.dead fd hlt
    · have hcoroutine := (h.coroutine fd).not.mpr (by simp [hnone.2])
      simp [References.any, hengine, hresult, hcoroutine]
    · simp [hnone.1]

/-- In every run `connect(engine, host, port)` tries the endpoints in their order, returns the
socket of the first one that succeeds or throws what the last attempt has thrown, and every
descriptor that is opened belongs to the returned socket or is closed once. -/
theorem connects_of_run {as : List (Label E)} {x : Log E × State E}
    (h : Run (noted (step linux host) record) Free (⟨[], []⟩, initial E) as x) :
  Connects linux host as x.1 x.2
  := by
  have htries : Tries host x.1 x.2 := by
    apply h.invariant fun x => Tries host x.1 x.2
    · intro y a z hy _ e
      obtain ⟨hlog, hstep⟩ := noted_eq_some.mp e
      rw [hlog]
      apply hy.step hstep
    · apply Tries.initial
  have howned : Owned x.2 := by
    apply h.invariant fun x => Owned x.2
    · intro y a z hy _ e
      apply hy.step (noted_eq_some.mp e).2
    · apply Owned.initial
  have hrank : ∃ m, (Tries host x.1 x.2 ∧ m = x.2.rank) ∧
      as.length + m ≤ 3 + (as.map Label.credit).sum := by
    apply h.length_le_of_rank (I := fun x n => Tries host x.1 x.2 ∧ n = x.2.rank) Label.credit
    · exact ⟨Tries.initial, rfl⟩
    · rintro y a z n ⟨hy, rfl⟩ _ e
      obtain ⟨hlog, hstep⟩ := noted_eq_some.mp e
      refine ⟨z.2.rank, ⟨?_, rfl⟩, rank_step hy hstep⟩
      rw [hlog]
      apply hy.step hstep
  obtain ⟨m, ⟨-, hm⟩, hlength⟩ := hrank
  constructor
  · apply htries.order
  · intro fd
    apply htries.returned_iff
  · apply htries.first
  · intro e hs
    apply htries.throws hs
  · apply howned.once
  · intro fd hs
    apply howned.kept hs
  · intro hs hengine fd hlt
    apply howned.closed_of_ended hs hengine hlt
  · apply htries.goes_on
  · rw [hm] at hlength
    apply hlength

/-- The first endpoint refuses the operation, and the engine holds it a while longer; the second one
is connected at once. -/
theorem connects_second_of_two :
  ∃ as x, Run (noted (step true "localhost") record) Free (⟨[], []⟩, initial ℕ) as x ∧
    Connects true "localhost" as x.1 x.2 ∧ x.1.endpoints = [6, 4] ∧
    x.2.closed 0 = 1 ∧ x.2.closed 1 = 0
  := by
  obtain ⟨x, hrun, hends⟩ : ∃ x, Run (noted (step true "localhost") record) Free
      (⟨[], []⟩, initial ℕ)
      [.construct none, .resolve (.ok [6, 4]), .next, .socket none, .connect .in_progress,
        .complete (some ⟨111, .generic_category⟩), .resume, .next, .socket none,
        .connect .connected, .release 0] x ∧
      (x.1.endpoints = [6, 4] ∧ x.2.closed 0 = 1 ∧ x.2.closed 1 = 0) := by
    apply exists_run_of_exec
    decide
  exact ⟨_, x, hrun, connects_of_run hrun, hends⟩

end AsyncSocket

end Koroutine
