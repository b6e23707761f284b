import Koroutine.Transition.Run
import Mathlib.Logic.Function.Basic

/-!
# `AsyncSocket::connect`

`connect(engine, host, port)` tries the endpoints of a host in order, and each attempt, a
`connect(engine, endpoint)`, opens a descriptor.  Before there is an `AsyncSocket` the attempt
closes the descriptor itself when it fails; afterwards the destructor does, when neither the
coroutine, nor the operation that the engine holds, nor the caller has a reference to the object.

The model is that of the path that is not Windows.  What the system calls, the resolver and the
engine answer is in the labels.  Descriptors are told apart by when they were opened: a number that
is given out again is another descriptor.
-/

open Transition

namespace Koroutine

namespace AsyncSocket

inductive Category
  | generic_category
  | system_category

/-- A `std::error_code`. -/
structure ErrorCode where
  value : ℤ
  category : Category

/-- The exceptions that are thrown; a `std::system_error` may come without a text. -/
inductive Exception
  | system_error (code : ErrorCode) (what : Option String)
  | runtime_error (what : String)

/-- What `::connect` does; `errno` of a failure is what it is after the descriptor has been closed.
-/
inductive ConnectReturn
  | connected
  | in_progress
  | failed (errno : ℤ)

/-- Where the coroutines are. -/
inductive Pc (E : Type*)
  /-- About to construct an endpoint from the host. -/
  | constructing
  | resolving
  /-- At the head of the loop over the endpoints. -/
  | iterating
  /-- About to call `::socket`. -/
  | socket (ep : E)
  | set_nonblocking (ep : E) (fd : ℕ)
  /-- About to call `::connect`. -/
  | connect (ep : E) (fd : ℕ)
  /-- Suspended in the `CONNECT` operation. -/
  | awaiting (ep : E) (fd : ℕ)
  /-- About to be resumed; `error` is that of the operation. -/
  | resuming (ep : E) (fd : ℕ) (error : Option ErrorCode)
  /-- About to call `::getsockopt`. -/
  | getsockopt (ep : E) (fd : ℕ)
  /-- The socket over the descriptor has been returned. -/
  | returned (fd : ℕ)
  | thrown (e : Exception)

/-- Who has a reference to the `AsyncSocket` over a descriptor: the coroutine, itself or through the
operation, the operation in the engine, and the caller. -/
structure References where
  coroutine : Bool
  engine : Bool
  result : Bool

/-- The coroutines, the endpoints behind the one that is tried (`none` outside the loop), how many
descriptors have been opened, how often each has been closed, and the references to the object over
each. -/
structure State (E : Type*) where
  pc : Pc E
  rest : Option (List E)
  last_exception : Option Exception
  opened : ℕ
  closed : ℕ → ℕ
  references : ℕ → References

/-- Nobody has a reference. -/
def References.none : References := ⟨false, false, false⟩

def References.any (r : References) : Bool := r.coroutine || r.engine || r.result

def initial (E : Type*) : State E where
  pc := .constructing
  rest := none
  last_exception := none
  opened := 0
  closed := fun _ => 0
  references := fun _ => .none

/-- The steps: each resolves what a call answers, with the error number if it fails; `::getsockopt`
answers with `SO_ERROR`.  `release` is the engine letting the operation go. -/
inductive Label (E : Type*)
  | construct (literal : Option E)
  | resolve (result : Except ℤ (List E))
  | next
  | socket (errno : Option ℤ)
  | set_nonblocking (errno : Option ℤ)
  | connect (ret : ConnectReturn)
  | complete (error : Option ErrorCode)
  | resume
  | getsockopt (ret : Except ℤ ℤ)
  | release (fd : ℕ)

variable {E : Type*}

/-- A `std::system_error` of the generic category. -/
def generic (errno : ℤ) (what : String) : Exception :=
  .system_error ⟨errno, .generic_category⟩ (some what)

/-- The descriptor is closed, by `close_socket` or in the destructor. -/
def State.close (s : State E) (fd : ℕ) : State E :=
  { s with closed := Function.update s.closed fd (s.closed fd + 1) }

/-- The references to an object change; without any it is destroyed. -/
def State.hold (s : State E) (fd : ℕ) (r : References) : State E :=
  let s' := { s with references := Function.update s.references fd r }
  if r.any then s' else s'.close fd

/-- An attempt throws: the loop catches the exception, and goes on. -/
def State.throw (s : State E) (e : Exception) : State E :=
  match s.rest with
  | none => { s with pc := .thrown e }
  | some _ => { s with pc := .iterating, last_exception := some e }

/-- The coroutine leaves the scope of `socket` and `io_op`. -/
def State.unwind (s : State E) (fd : ℕ) : State E :=
  s.hold fd { s.references fd with coroutine := false }

/-- The descriptor whose operation is in the engine. -/
def Pc.awaited : Pc E → Option ℕ
  | .awaiting _ fd => some fd
  | _ => none

/-- The step function; `linux` tells whether `::socket` is called with `SOCK_NONBLOCK`. -/
def step (linux : Bool) (host : String) (s : State E) : Label E → Option (State E)
  | .construct literal =>
      match s.pc with
      | .constructing =>
          match literal with
          | some ep => some { s with pc := .socket ep }
          | none => some { s with pc := .resolving }
      | _ => none
  | .resolve result =>
      match s.pc with
      | .resolving =>
          match result with
          | .error code =>
              some { s with pc := .thrown (.runtime_error
                ("Could not resolve host: " ++ host ++ ", error: " ++ toString code)) }
          | .ok [] =>
              some { s with pc := .thrown (.runtime_error ("Could not resolve host: " ++ host)) }
          | .ok (ep :: eps) => some { s with pc := .iterating, rest := some (ep :: eps) }
      | _ => none
  | .next =>
      match s.pc, s.rest with
      | .iterating, some (ep :: eps) => some { s with pc := .socket ep, rest := some eps }
      | .iterating, some [] =>
          match s.last_exception with
          | some e => some { s with pc := .thrown e }
          | none =>
              some { s with pc := .thrown (.runtime_error
                ("Failed to connect to any resolved address for " ++ host)) }
      | _, _ => none
  | .socket errno =>
      match s.pc with
      | .socket ep =>
          match errno with
          | some errno => some (s.throw (generic errno "Failed to create socket"))
          | none =>
              some { s with
                opened := s.opened + 1
                pc := if linux then .connect ep s.opened else .set_nonblocking ep s.opened }
      | _ => none
  | .set_nonblocking errno =>
      match s.pc with
      | .set_nonblocking ep fd =>
          match errno with
          | some errno =>
              some ((s.close fd).throw (generic errno "Failed to set non-blocking mode"))
          | none => some { s with pc := .connect ep fd }
      | _ => none
  | .connect ret =>
      match s.pc with
      | .connect ep fd =>
          match ret with
          | .connected => some { s.hold fd ⟨false, false, true⟩ with pc := .returned fd }
          | .failed errno => some ((s.close fd).throw (generic errno "Connect failed"))
          | .in_progress => some { s.hold fd ⟨true, true, false⟩ with pc := .awaiting ep fd }
      | _ => none
  | .complete error =>
      match s.pc with
      | .awaiting ep fd => some { s with pc := .resuming ep fd error }
      | _ => none
  | .resume =>
      match s.pc with
      | .resuming _ fd (some code) => some ((s.unwind fd).throw (.system_error code none))
      | .resuming ep fd none => some { s with pc := .getsockopt ep fd }
      | _ => none
  | .getsockopt ret =>
      match s.pc with
      | .getsockopt _ fd =>
          match ret with
          | .error errno => some ((s.unwind fd).throw (generic errno "getsockopt failed"))
          | .ok error =>
              if error ≠ 0 then
                some ((s.unwind fd).throw (generic error "Connect failed asynchronously"))
              else
                some { s.hold fd { s.references fd with coroutine := false, result := true } with
                  pc := .returned fd }
      | _ => none
  | .release fd =>
      if (s.references fd).engine ∧ s.pc.awaited ≠ some fd then
        some (s.hold fd { s.references fd with engine := false })
      else none

/-- What a step does. -/
inductive Effect (linux : Bool) (host : String) (s : State E) : Label E → State E → Prop
  | literal {ep : E} (hpc : s.pc = .constructing) :
      Effect linux host s (.construct (some ep)) { s with pc := .socket ep }
  | no_literal (hpc : s.pc = .constructing) :
      Effect linux host s (.construct none) { s with pc := .resolving }
  | resolve_failed {code : ℤ} (hpc : s.pc = .resolving) :
      Effect linux host s (.resolve (.error code)) { s with pc := .thrown (.runtime_error
        ("Could not resolve host: " ++ host ++ ", error: " ++ toString code)) }
  | resolved_none (hpc : s.pc = .resolving) :
      Effect linux host s (.resolve (.ok []))
        { s with pc := .thrown (.runtime_error ("Could not resolve host: " ++ host)) }
  | resolved {ep : E} {eps : List E} (hpc : s.pc = .resolving) :
      Effect linux host s (.resolve (.ok (ep :: eps)))
        { s with pc := .iterating, rest := some (ep :: eps) }
  | next {ep : E} {eps : List E} (hpc : s.pc = .iterating) (hrest : s.rest = some (ep :: eps)) :
      Effect linux host s .next { s with pc := .socket ep, rest := some eps }
  | rethrown {e : Exception} (hpc : s.pc = .iterating) (hrest : s.rest = some [])
      (hlast : s.last_exception = some e) : Effect linux host s .next { s with pc := .thrown e }
  | exhausted (hpc : s.pc = .iterating) (hrest : s.rest = some [])
      (hlast : s.last_exception = none) :
      Effect linux host s .next { s with
        pc := .thrown (.runtime_error
          ("Failed to connect to any resolved address for " ++ host)) }
  | socket_failed {ep : E} {errno : ℤ} (hpc : s.pc = .socket ep) :
      Effect linux host s (.socket (some errno)) (s.throw (generic errno "Failed to create socket"))
  | opened {ep : E} (hpc : s.pc = .socket ep) :
      Effect linux host s (.socket none) { s with
        opened := s.opened + 1
        pc := if linux then .connect ep s.opened else .set_nonblocking ep s.opened }
  | set_nonblocking_failed {ep : E} {fd : ℕ} {errno : ℤ} (hpc : s.pc = .set_nonblocking ep fd) :
      Effect linux host s (.set_nonblocking (some errno))
        ((s.close fd).throw (generic errno "Failed to set non-blocking mode"))
  | nonblocking {ep : E} {fd : ℕ} (hpc : s.pc = .set_nonblocking ep fd) :
      Effect linux host s (.set_nonblocking none) { s with pc := .connect ep fd }
  | connected {ep : E} {fd : ℕ} (hpc : s.pc = .connect ep fd) :
      Effect linux host s (.connect .connected)
        { s.hold fd ⟨false, false, true⟩ with pc := .returned fd }
  | connect_failed {ep : E} {fd : ℕ} {errno : ℤ} (hpc : s.pc = .connect ep fd) :
      Effect linux host s (.connect (.failed errno))
        ((s.close fd).throw (generic errno "Connect failed"))
  | in_progress {ep : E} {fd : ℕ} (hpc : s.pc = .connect ep fd) :
      Effect linux host s (.connect .in_progress)
        { s.hold fd ⟨true, true, false⟩ with pc := .awaiting ep fd }
  | completed {ep : E} {fd : ℕ} {error : Option ErrorCode} (hpc : s.pc = .awaiting ep fd) :
      Effect linux host s (.complete error) { s with pc := .resuming ep fd error }
  | operation_failed {ep : E} {fd : ℕ} {code : ErrorCode}
      (hpc : s.pc = .resuming ep fd (some code)) :
      Effect linux host s .resume ((s.unwind fd).throw (.system_error code none))
  | resumed {ep : E} {fd : ℕ} (hpc : s.pc = .resuming ep fd none) :
      Effect linux host s .resume { s with pc := .getsockopt ep fd }
  | getsockopt_failed {ep : E} {fd : ℕ} {errno : ℤ} (hpc : s.pc = .getsockopt ep fd) :
      Effect linux host s (.getsockopt (.error errno))
        ((s.unwind fd).throw (generic errno "getsockopt failed"))
  | so_error {ep : E} {fd : ℕ} {error : ℤ} (hpc : s.pc = .getsockopt ep fd) (herror : error ≠ 0) :
      Effect linux host s (.getsockopt (.ok error))
        ((s.unwind fd).throw (generic error "Connect failed asynchronously"))
  | established {ep : E} {fd : ℕ} (hpc : s.pc = .getsockopt ep fd) :
      Effect linux host s (.getsockopt (.ok 0))
        { s.hold fd { s.references fd with coroutine := false, result := true } with
          pc := .returned fd }
  | released {fd : ℕ} (hengine : (s.references fd).engine = true) (hpc : s.pc.awaited ≠ some fd) :
      Effect linux host s (.release fd) (s.hold fd { s.references fd with engine := false })

variable {linux : Bool} {host : String} {s t : State E} {a : Label E} {ep : E} {fd : ℕ}
  {e : Exception} {r : References}

theorem effect (e : step linux host s a = some t) :
  Effect linux host s a t
  := by
  cases a with
  | construct literal =>
      simp only [step] at e
      split at e
      · next hpc =>
          cases literal with
          | some ep =>
              obtain rfl := Option.some.inj e
              exact .literal hpc
          | none =>
              obtain rfl := Option.some.inj e
              exact .no_literal hpc
      · contradiction
  | resolve result =>
      simp only [step] at e
      split at e
      · next hpc =>
          rcases result with code | eps
          · obtain rfl := Option.some.inj e
            exact .resolve_failed hpc
          · cases eps with
            | nil =>
                obtain rfl := Option.some.inj e
                exact .resolved_none hpc
            | cons ep eps =>
                obtain rfl := Option.some.inj e
                exact .resolved hpc
      · contradiction
  | next =>
      simp only [step] at e
      split at e
      · next hpc hrest =>
          obtain rfl := Option.some.inj e
          exact .next hpc hrest
      · next hpc hrest =>
          split at e
          · next hlast =>
              obtain rfl := Option.some.inj e
              exact .rethrown hpc hrest hlast
          · next hlast =>
              obtain rfl := Option.some.inj e
              exact .exhausted hpc hrest hlast
      · contradiction
  | socket errno =>
      simp only [step] at e
      split at e
      · next hpc =>
          cases errno with
          | some errno =>
              obtain rfl := Option.some.inj e
              exact .socket_failed hpc
          | none =>
              obtain rfl := Option.some.inj e
              exact .opened hpc
      · contradiction
  | set_nonblocking errno =>
      simp only [step] at e
      split at e
      · next hpc =>
          cases errno with
          | some errno =>
              obtain rfl := Option.some.inj e
              exact .set_nonblocking_failed hpc
          | none =>
              obtain rfl := Option.some.inj e
              exact .nonblocking hpc
      · contradiction
  | connect ret =>
      simp only [step] at e
      split at e
      · next hpc =>
          cases ret with
          | connected =>
              obtain rfl := Option.some.inj e
              exact .connected hpc
          | failed errno =>
              obtain rfl := Option.some.inj e
              exact .connect_failed hpc
          | in_progress =>
              obtain rfl := Option.some.inj e
              exact .in_progress hpc
      · contradiction
  | complete error =>
      simp only [step] at e
      split at e
      · next hpc =>
          obtain rfl := Option.some.inj e
          exact .completed hpc
      · contradiction
  | resume =>
      simp only [step] at e
      split at e
      · next hpc =>
          obtain rfl := Option.some.inj e
          exact .operation_failed hpc
      · next hpc =>
          obtain rfl := Option.some.inj e
          exact .resumed hpc
      · contradiction
  | getsockopt ret =>
      simp only [step] at e
      split at e
      · next hpc =>
          rcases ret with errno | error
          · obtain rfl := Option.some.inj e
            exact .getsockopt_failed hpc
          · by_cases herror : error = 0
            · subst herror
              obtain rfl := Option.some.inj e
              exact .established hpc
            · simp only [ne_eq, herror, not_false_eq_true, if_true] at e
              obtain rfl := Option.some.inj e
              exact .so_error hpc herror
      · contradiction
  | release fd =>
      obtain ⟨⟨hengine, hpc⟩, heq⟩ := Option.ite_none_right_eq_some.mp e
      obtain rfl := Option.some.inj heq
      exact .released hengine hpc

/-! ### What is tried -/

/-- How the calls of an attempt came out. -/
inductive Outcome
  | socket_failed (errno : ℤ)
  | set_nonblocking_failed (errno : ℤ)
  | connect_failed (errno : ℤ)
  | operation_failed (code : ErrorCode)
  | getsockopt_failed (errno : ℤ)
  | so_error (error : ℤ)
  | connected (fd : ℕ)
  | established (fd : ℕ)

/-- The descriptor of the socket that an attempt yields, or its exception. -/
def Outcome.result : Outcome → Except Exception ℕ
  | .socket_failed errno => .error (generic errno "Failed to create socket")
  | .set_nonblocking_failed errno => .error (generic errno "Failed to set non-blocking mode")
  | .connect_failed errno => .error (generic errno "Connect failed")
  | .operation_failed code => .error (.system_error code none)
  | .getsockopt_failed errno => .error (generic errno "getsockopt failed")
  | .so_error error => .error (generic error "Connect failed asynchronously")
  | .connected fd => .ok fd
  | .established fd => .ok fd

/-- The endpoints of the host, and those that have been tried. -/
structure Log (E : Type*) where
  endpoints : List E
  tried : List (E × Outcome)

/-- The attempt that ends with a step. -/
def outcome (s : State E) (a : Label E) : Option (E × Outcome) :=
  match s.pc, a with
  | .socket ep, .socket (some errno) => some (ep, .socket_failed errno)
  | .set_nonblocking ep _, .set_nonblocking (some errno) => some (ep, .set_nonblocking_failed errno)
  | .connect ep fd, .connect .connected => some (ep, .connected fd)
  | .connect ep _, .connect (.failed errno) => some (ep, .connect_failed errno)
  | .resuming ep _ (some code), .resume => some (ep, .operation_failed code)
  | .getsockopt ep _, .getsockopt (.error errno) => some (ep, .getsockopt_failed errno)
  | .getsockopt ep fd, .getsockopt (.ok error) =>
      some (ep, if error ≠ 0 then .so_error error else .established fd)
  | _, _ => none

/-- The endpoints are known when the host is one, or has been resolved. -/
def record (s : State E) (a : Label E) (log : Log E) : Log E :=
  match a with
  | .construct (some ep) => { log with endpoints := [ep] }
  | .resolve (.ok eps) => { log with endpoints := eps }
  | _ => { log with tried := log.tried ++ (outcome s a).toList }

variable {log : Log E} {o : Outcome}

/-- The attempt has failed. -/
def Outcome.Failed (o : Outcome) : Prop := ∃ e, o.result = .error e

def Outcome.exception (o : Outcome) : Option Exception :=
  match o.result with
  | .error e => some e
  | .ok _ => none

/-- The endpoint that is being tried. -/
def Pc.endpoint : Pc E → Option E
  | .socket ep => some ep
  | .set_nonblocking ep _ => some ep
  | .connect ep _ => some ep
  | .awaiting ep _ => some ep
  | .resuming ep _ _ => some ep
  | .getsockopt ep _ => some ep
  | _ => none

/-- The exception of the last attempt. -/
def Log.last_exception (log : Log E) : Option Exception :=
  log.tried.getLast?.bind fun x => x.2.exception

/-- The endpoints that have been tried, the one that is being tried and those still to be tried are
those of the host, in their order; every attempt before has failed. -/
inductive Tries (host : String) (log : Log E) (s : State E) : Prop
  | resolving (hpc : s.pc = .constructing ∨ s.pc = .resolving) (hrest : s.rest = none)
      (hlast : s.last_exception = none) (hendpoints : log.endpoints = []) (htried : log.tried = [])
  | iterating {eps : List E} (hpc : s.pc = .iterating) (hrest : s.rest = some eps)
      (horder : log.endpoints = log.tried.map Prod.fst ++ eps) (hne : log.endpoints ≠ [])
      (hfailed : ∀ x ∈ log.tried, x.2.Failed) (hlast : s.last_exception = log.last_exception)
  | trying (ep : E) (hpc : s.pc.endpoint = some ep)
      (horder : log.endpoints = log.tried.map Prod.fst ++ ep :: s.rest.getD [])
      (hfailed : ∀ x ∈ log.tried, x.2.Failed)
  | returned {fd : ℕ} {before : List (E × Outcome)} {ep : E} {o : Outcome} (eps : List E)
      (hpc : s.pc = .returned fd) (horder : log.endpoints = log.tried.map Prod.fst ++ eps)
      (htried : log.tried = before ++ [(ep, o)]) (hresult : o.result = .ok fd)
      (hfailed : ∀ x ∈ before, x.2.Failed)
  | thrown {e : Exception} {before : List (E × Outcome)} {ep : E} {o : Outcome}
      (hpc : s.pc = .thrown e) (horder : log.endpoints = log.tried.map Prod.fst)
      (htried : log.tried = before ++ [(ep, o)]) (hresult : o.result = .error e)
      (hfailed : ∀ x ∈ before, x.2.Failed)
  | unresolved (w : String) (hendpoints : log.endpoints = []) (htried : log.tried = [])
      (hpc : s.pc = .thrown (.runtime_error ("Could not resolve host: " ++ host ++ w)))

/-- What is known before the endpoints are. -/
theorem Tries.of_resolving (h : Tries host log s) (hs : s.pc = .constructing ∨ s.pc = .resolving) :
  s.rest = none ∧ s.last_exception = none ∧ log.endpoints = [] ∧ log.tried = []
  := by
  cases h with
  | resolving _ hrest hlast hendpoints htried => exact ⟨hrest, hlast, hendpoints, htried⟩
  | iterating hpc | returned _ hpc | thrown hpc => simp [hpc] at hs
  | trying _ hpc =>
      obtain hcase | hcase := hs
      · simp [hcase, Pc.endpoint] at hpc
      · simp [hcase, Pc.endpoint] at hpc
  | unresolved _ _ _ hpc => simp [hpc] at hs

/-- What is known at the head of the loop. -/
theorem Tries.of_iterating (h : Tries host log s) (hs : s.pc = .iterating) :
  ∃ eps, s.rest = some eps ∧ log.endpoints = log.tried.map Prod.fst ++ eps ∧ log.endpoints ≠ [] ∧
    (∀ x ∈ log.tried, x.2.Failed) ∧ s.last_exception = log.last_exception
  := by
  cases h with
  | @iterating eps _ hrest horder hne hfailed hlast =>
      exact ⟨eps, hrest, horder, hne, hfailed, hlast⟩
  | resolving hpc | returned _ hpc | thrown hpc => simp [hs] at hpc
  | trying _ hpc => simp [hs, Pc.endpoint] at hpc
  | unresolved _ _ _ hpc => simp [hs] at hpc

/-- What is known while an attempt is made. -/
theorem Tries.of_endpoint (h : Tries host log s) (hs : s.pc.endpoint = some ep) :
  log.endpoints = log.tried.map Prod.fst ++ ep :: s.rest.getD [] ∧ ∀ x ∈ log.tried, x.2.Failed
  := by
  cases h with
  | trying ep' hpc horder hfailed =>
      obtain rfl : ep' = ep := by simpa [hpc] using hs
      exact ⟨horder, hfailed⟩
  | resolving hpc =>
      obtain hpc | hpc := hpc
      · simp [hpc, Pc.endpoint] at hs
      · simp [hpc, Pc.endpoint] at hs
  | iterating hpc | returned _ hpc | thrown hpc => simp [hpc, Pc.endpoint] at hs
  | unresolved _ _ _ hpc => simp [hpc, Pc.endpoint] at hs

/-- An attempt goes on. -/
theorem Tries.goes (h : Tries host log s) (hs : s.pc.endpoint = some ep)
    (ht : t.pc.endpoint = some ep) (hrest : t.rest = s.rest) :
  Tries host log t
  := by
  obtain ⟨horder, hfailed⟩ := h.of_endpoint hs
  apply Tries.trying ep ht _ hfailed
  rw [hrest]
  apply horder

theorem throw_of_none (h : s.rest = none) :
  s.throw e = { s with pc := .thrown e }
  := by
  unfold State.throw
  rw [h]

theorem throw_of_some {eps : List E} (h : s.rest = some eps) :
  s.throw e = { s with pc := .iterating, last_exception := some e }
  := by
  unfold State.throw
  rw [h]

/-- An attempt throws; the loop goes on, or there is none. -/
theorem Tries.throw (h : Tries host log s) (hs : s.pc.endpoint = some ep)
    (hresult : o.result = .error e) (hrest : t.rest = s.rest) :
  Tries host { log with tried := log.tried ++ [(ep, o)] } (t.throw e)
  := by
  obtain ⟨horder, hfailed⟩ := h.of_endpoint hs
  cases hcase : t.rest with
  | none =>
      rw [throw_of_none hcase]
      refine Tries.thrown rfl ?_ rfl hresult hfailed
      rw [horder, ← hrest, hcase]
      simp
  | some eps =>
      rw [throw_of_some hcase]
      refine Tries.iterating rfl hcase ?_ ?_ ?_ ?_
      · rw [horder, ← hrest, hcase]
        simp
      · simp [horder]
      · intro x hx
        obtain hbefore | hnew := List.mem_append.mp hx
        · apply hfailed x hbefore
        · obtain rfl : x = (ep, o) := by simpa using hnew
          exact ⟨e, hresult⟩
      · simp [Log.last_exception, Outcome.exception, hresult]

/-- An attempt returns. -/
theorem Tries.returns (h : Tries host log s) (hs : s.pc.endpoint = some ep)
    (hresult : o.result = .ok fd) (hpc : t.pc = .returned fd) :
  Tries host { log with tried := log.tried ++ [(ep, o)] } t
  := by
  obtain ⟨horder, hfailed⟩ := h.of_endpoint hs
  refine Tries.returned (s.rest.getD []) hpc ?_ rfl hresult hfailed
  rw [horder]
  simp

/-- What is known when the loop has come to its end. -/
theorem Tries.of_exhausted (h : Tries host log s) (hpc : s.pc = .iterating)
    (hrest : s.rest = some []) :
  log.endpoints = log.tried.map Prod.fst ∧ ∃ before ep o e, log.tried = before ++ [(ep, o)] ∧
    o.result = .error e ∧ (∀ x ∈ before, x.2.Failed) ∧ s.last_exception = some e
  := by
  obtain ⟨eps, hrest', horder, hne, hfailed, hlast⟩ := h.of_iterating hpc
  obtain rfl : eps = [] := by simpa [hrest] using hrest'.symm
  rw [List.append_nil] at horder
  have htried : log.tried ≠ [] := by
    intro hnil
    rw [hnil] at horder
    exact hne horder
  obtain ⟨before, ⟨ep, o⟩, htried⟩ := (List.eq_nil_or_concat' log.tried).resolve_left htried
  rw [hlast]
  rw [htried] at hfailed
  obtain ⟨e, hresult⟩ := hfailed (ep, o) (by simp)
  change o.result = .error e at hresult
  refine ⟨horder, before, ep, o, e, htried, hresult, ?_, ?_⟩
  · intro x hx
    apply hfailed x (List.mem_append_left _ hx)
  · simp [Log.last_exception, htried, Outcome.exception, hresult]

@[simp]
theorem hold_rest :
  (s.hold fd r).rest = s.rest
  := by
  unfold State.hold
  split
  · rfl
  · rfl

@[simp]
theorem hold_last_exception :
  (s.hold fd r).last_exception = s.last_exception
  := by
  unfold State.hold
  split
  · rfl
  · rfl

@[simp]
theorem hold_pc :
  (s.hold fd r).pc = s.pc
  := by
  unfold State.hold
  split
  · rfl
  · rfl

/-- A step with which no attempt ends. -/
theorem record_of_none (houtcome : outcome s a = none)
    (hconstruct : ∀ ep, a ≠ .construct (some ep)) (hresolve : ∀ eps, a ≠ .resolve (.ok eps)) :
  record s a log = log
  := by
  unfold record
  split
  · next ep => exact absurd rfl (hconstruct ep)
  · next eps => exact absurd rfl (hresolve eps)
  · rw [houtcome]
    simp

/-- A step with which an attempt ends. -/
theorem record_of_some (ep : E) (o : Outcome) (houtcome : outcome s a = some (ep, o)) :
  record s a log = { log with tried := log.tried ++ [(ep, o)] }
  := by
  unfold record
  split
  · simp [outcome] at houtcome
  · simp [outcome] at houtcome
  · rw [houtcome]
    rfl

/-- The engine lets go of an operation. -/
theorem Tries.release (h : Tries host log s) (hpc : t.pc = s.pc) (hrest : t.rest = s.rest)
    (hlast : t.last_exception = s.last_exception) :
  Tries host log t
  := by
  cases h with
  | resolving hpc' hrest' hlast' hendpoints htried =>
      rw [← hpc] at hpc'
      exact .resolving hpc' (hrest.trans hrest') (hlast.trans hlast') hendpoints htried
  | iterating hpc' hrest' horder hne hfailed hlast' =>
      exact .iterating (hpc.trans hpc') (hrest.trans hrest') horder hne hfailed (hlast.trans hlast')
  | trying _ hpc' horder hfailed =>
      rw [← hpc] at hpc'
      rw [← hrest] at horder
      exact .trying _ hpc' horder hfailed
  | returned eps hpc' horder htried hresult hfailed =>
      exact .returned eps (hpc.trans hpc') horder htried hresult hfailed
  | thrown hpc' horder htried hresult hfailed =>
      exact .thrown (hpc.trans hpc') horder htried hresult hfailed
  | unresolved w hendpoints htried hpc' => exact .unresolved w hendpoints htried (hpc.trans hpc')

theorem Tries.step (h : Tries host log s) (hstep : step linux host s a = some t) :
  Tries host (record s a log) t
  := by
  cases effect hstep with
  | @literal ep hpc =>
      obtain ⟨hrest, -, -, htried⟩ := h.of_resolving (.inl hpc)
      refine Tries.trying ep rfl ?_ ?_
      · simp [record, htried, hrest]
      · simp [record, htried]
  | no_literal hpc =>
      obtain ⟨hrest, hlast, hendpoints, htried⟩ := h.of_resolving (.inl hpc)
      rw [record_of_none (by simp [outcome, hpc]) (by simp) (by simp)]
      exact Tries.resolving (.inr rfl) hrest hlast hendpoints htried
  | @resolve_failed code hpc =>
      obtain ⟨-, -, hendpoints, htried⟩ := h.of_resolving (.inr hpc)
      rw [record_of_none (by simp [outcome, hpc]) (by simp) (by simp)]
      refine Tries.unresolved (", error: " ++ toString code) hendpoints htried ?_
      simp [String.append_assoc]
  | resolved_none hpc =>
      obtain ⟨-, -, -, htried⟩ := h.of_resolving (.inr hpc)
      refine Tries.unresolved "" rfl htried ?_
      simp
  | resolved hpc =>
      obtain ⟨-, hlast, -, htried⟩ := h.of_resolving (.inr hpc)
      refine Tries.iterating rfl rfl ?_ ?_ ?_ ?_
      · simp [record, htried]
      · simp [record]
      · simp [record, htried]
      · simp [record, Log.last_exception, htried, hlast]
  | @next ep eps hpc hrest =>
      obtain ⟨eps', hrest', horder, -, hfailed, -⟩ := h.of_iterating hpc
      obtain rfl : eps' = ep :: eps := by simpa [hrest] using hrest'.symm
      rw [record_of_none (by simp [outcome]) (by simp) (by simp)]
      exact Tries.trying ep rfl horder hfailed
  | @rethrown e hpc hrest hlast =>
      obtain ⟨horder, before, ep, o, e', htried, hresult, hbefore, hlast'⟩ :=
        h.of_exhausted hpc hrest
      obtain rfl : e = e' := by simpa [hlast] using hlast'
      rw [record_of_none (by simp [outcome]) (by simp) (by simp)]
      exact Tries.thrown rfl horder htried hresult hbefore
  | exhausted hpc hrest hlast =>
      -- an exception has been caught, since there is an endpoint
      obtain ⟨-, before, ep, o, e', -, -, -, hlast'⟩ := h.of_exhausted hpc hrest
      simp [hlast] at hlast'
  | @socket_failed ep errno hpc =>
      rw [record_of_some ep (.socket_failed errno) (by simp [outcome, hpc])]
      exact h.throw (by rw [hpc, Pc.endpoint]) rfl rfl
  | @opened ep hpc =>
      rw [record_of_none (by simp [outcome, hpc]) (by simp) (by simp)]
      have hep : s.pc.endpoint = some ep := by rw [hpc, Pc.endpoint]
      refine h.goes hep ?_ rfl
      cases linux <;> rfl
  | @set_nonblocking_failed ep fd errno hpc =>
      rw [record_of_some ep (.set_nonblocking_failed errno) (by simp [outcome, hpc])]
      exact h.throw (by rw [hpc, Pc.endpoint]) rfl rfl
  | nonblocking hpc | completed hpc | resumed hpc =>
      rw [record_of_none (by simp [outcome, hpc]) (by simp) (by simp)]
      exact h.goes (by rw [hpc, Pc.endpoint]) rfl rfl
  | @connected ep fd hpc =>
      rw [record_of_some ep (.connected fd) (by simp [outcome, hpc])]
      exact h.returns (by rw [hpc, Pc.endpoint]) rfl rfl
  | @connect_failed ep fd errno hpc =>
      rw [record_of_some ep (.connect_failed errno) (by simp [outcome, hpc])]
      exact h.throw (by rw [hpc, Pc.endpoint]) rfl rfl
  | in_progress hpc =>
      rw [record_of_none (by simp [outcome, hpc]) (by simp) (by simp)]
      exact h.goes (by rw [hpc, Pc.endpoint]) rfl hold_rest
  | @operation_failed ep fd code hpc =>
      rw [record_of_some ep (.operation_failed code) (by simp [outcome, hpc])]
      exact h.throw (by rw [hpc, Pc.endpoint]) rfl hold_rest
  | @getsockopt_failed ep fd errno hpc =>
      rw [record_of_some ep (.getsockopt_failed errno) (by simp [outcome, hpc])]
      exact h.throw (by rw [hpc, Pc.endpoint]) rfl hold_rest
  | @so_error ep fd error hpc herror =>
      rw [record_of_some ep (.so_error error) (by simp [outcome, hpc, herror])]
      exact h.throw (by rw [hpc, Pc.endpoint]) rfl hold_rest
  | @established ep fd hpc =>
      rw [record_of_some ep (.established fd) (by simp [outcome, hpc])]
      exact h.returns (by rw [hpc, Pc.endpoint]) rfl rfl
  | released =>
      rw [record_of_none (by simp [outcome]) (by simp) (by simp)]
      exact h.release hold_pc hold_rest hold_last_exception

end AsyncSocket

end Koroutine
