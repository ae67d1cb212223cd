import StumpfworksFramework.MetricsDecoding
import StumpfworksFramework.MiddlewareChain

/-!
# The protected metrics endpoint

An application records its requests and lookups, registers and removes database
pools, and answers requests for the metrics page behind `ProtectBearer`, in any
order. Whoever presents the token is shown what was recorded up to then; nobody
else learns anything, not even how much there is to learn.

SHA-256 is a parameter. What is asked of it is that no other text of the form of
a token has the digest of the token. The page is written in one piece; the source
writes it line by line.
-/

namespace MetricsEndpoint

open ByteStrings ExpositionFormat HttpResponses MetricsDecoding MetricsPage MetricsRegistry
  MiddlewareChain Runs SortedKeys

/-! ## Bearer tokens -/

def minBearerTokenBytes : Nat := 32
def maxBearerTokenBytes : Nat := 512

def validBearerToken (token : Bytes) : Bool :=
  if token.length < minBearerTokenBytes ∨ token.length > maxBearerTokenBytes then false
  else token.all fun value => !(value < 0x21 ∨ value > 0x7e)

/-- `strings.CutPrefix`. -/
def cutPrefix (text lead : Bytes) : Bytes × Bool :=
  if lead.isPrefixOf text = true then (text.drop lead.length, true) else (text, false)

/-- `http.Error` on a response with these headers. -/
def httpError (header : Header) (message : Bytes) (code : Int) : List Step :=
  [.header (((header.del contentLength).set contentType (ascii "text/plain; charset=utf-8")).set
      (ascii "X-Content-Type-Options") (ascii "nosniff")),
    .writeHeader code, .write (message ++ [10])]

def bearer : Bytes := ascii "Bearer "
def authorization : Bytes := ascii "Authorization"

section Protection

variable (sha256 : Bytes → Bytes)

/-- The handler that `ProtectBearer` returns. -/
def guarded (token : Bytes) (next : Handler) : Handler := fun request found =>
  let expected := sha256 token
  let header := found.set cacheControl (ascii "no-store")
  let (provided, ok) := cutPrefix (request.header.get authorization) bearer
  let actual := sha256 provided
  if ok = false ∨ validBearerToken provided = false ∨ actual ≠ expected then
    let header := header.set (ascii "Www-Authenticate") (ascii "Bearer realm=\"metrics\"")
    ⟨.header header :: httpError header (ascii "unauthorized") 401, false⟩
  else
    let script := next request header
    ⟨.header header :: script.steps, script.panics⟩

end Protection

/-! ## The application -/

abbrev PoolRef := Nat

/-- The registry with its pool: a source that was never set, the nil pool, or a pool. -/
structure Endpoint where
  registry : Registry
  postgres : Option (Option PoolRef)

def Endpoint.new : Endpoint := ⟨Registry.new, none⟩

/-- The interface holds a pointer from now on, so a nil pool does not make it nil. -/
def Endpoint.registerPostgresPool (e : Endpoint) (pool : Option PoolRef) : Endpoint :=
  { e with postgres := some pool }

/-- What becomes of the call of `Stats`, for pools with these statistics; a call that panics is
recovered, and so is the one through the nil pool. -/
def takeStats (stats : PoolRef → Option Stats) : Option (Option PoolRef) → Option (Option Stats)
  | none => none
  | some none => some none
  | some (some pool) => some (stats pool)

def pageHeader (header : Header) : Header :=
  (header.set contentType (ascii "text/plain; version=0.0.4; charset=utf-8")).set cacheControl
    (ascii "no-store")

variable (formatFloat : Rat → Bytes)

def Endpoint.handler (e : Endpoint) (stats : PoolRef → Option Stats) : Handler := fun _ header =>
  ⟨[.header (pageHeader header),
    .write (MetricsPage.handler formatFloat e.registry (takeStats stats e.postgres))], false⟩

/-- The server's response, on headers that others may have set before. -/
def answer (handler : Handler) (request : Request) (initial : Header) : Response :=
  (handler request initial).steps.foldl (Step.run netHTTP) (Response.fresh initial)

inductive Action where
  | request (c : Completed)
  | lookup (item : LookupObservation)
  | registerPostgresPool (pool : Option PoolRef)
  | get (request : Request) (initial : Header) (stats : PoolRef → Option Stats)

/-- `protect` is what `ProtectBearer` makes of a handler. -/
def step (protect : Handler → Handler) (e : Endpoint) : Action → Endpoint × Option Response
  | .request c => ({ e with registry := e.registry.middleware c }, none)
  | .lookup item => ({ e with registry := e.registry.observeLDAPLookup item }, none)
  | .registerPostgresPool pool => (e.registerPostgresPool pool, none)
  | .get request initial stats =>
    (e, some (answer (protect (e.handler formatFloat stats)) request initial))

/-- What an action records. -/
def Action.recorded : Action → Option MetricsRegistry.Action
  | .request c => some (.request c)
  | .lookup item => some (.lookup item)
  | _ => none

def recorded (actions : List Action) : List MetricsRegistry.Action :=
  actions.filterMap Action.recorded

/-- The pool that was registered last, unless it was removed. -/
def registered (actions : List Action) : Option PoolRef :=
  actions.foldl (fun pool action =>
    match action with
    | .registerPostgresPool pool => pool
    | _ => pool) none

/-! ## Responses -/

section Responses

/-- The headers of a response that has sent nothing are replaced. -/
theorem run_header (initial header : Header) :
    Step.run netHTTP (Response.fresh initial) (.header header) = Response.fresh header := rfl

/-- The response of a refused request. -/
def refusalHeader (initial : Header) : Header :=
  let header := (initial.set cacheControl (ascii "no-store")).set (ascii "Www-Authenticate")
    (ascii "Bearer realm=\"metrics\"")
  ((header.del contentLength).set contentType (ascii "text/plain; charset=utf-8")).set
    (ascii "X-Content-Type-Options") (ascii "nosniff")

/-- It is made of the headers of others and of constants. -/
def refusal (initial : Header) : Response :=
  ⟨refusalHeader initial, some (401, refusalHeader initial), [], none, 13, ascii "unauthorized\n"⟩

end Responses

/-! ## Who is let in -/

section Admission

variable {sha256 : Bytes → Bytes} {token : Bytes}

end Admission

/-! ## Runs -/

section Runs

variable {formatFloat} {protect : Handler → Handler} {actions : List Action} {e : Endpoint}

/-- The registry has tallied what was recorded, and the pool is the one registered last. -/
structure Current (actions : List Action) (e : Endpoint) : Prop where
  tallied : Tallied (recorded actions) e.registry
  pool : e.postgres.join = registered actions

theorem registered_concat (actions : List Action) (action : Action) :
    registered (actions ++ [action]) =
      match action with
      | .registerPostgresPool pool => pool
      | _ => registered actions := by
  rw [registered, List.foldl_append]
  rfl

theorem Current.step (current : Current actions e) (action : Action) :
    Current (actions ++ [action]) (MetricsEndpoint.step formatFloat protect e action).1 := by
  have sorted : recorded (actions ++ [action]) = recorded actions ++ recorded [action] :=
    List.filterMap_append ..
  constructor
  · rw [sorted]
    cases action with
    | request c => exact current.tallied.request c
    | lookup item => exact current.tallied.lookup item
    | registerPostgresPool pool =>
      rw [show recorded [.registerPostgresPool pool] = [] from rfl, List.append_nil]
      exact current.tallied
    | get request initial stats =>
      rw [show recorded [.get request initial stats] = [] from rfl, List.append_nil]
      exact current.tallied
  · rw [registered_concat]
    cases action with
    | registerPostgresPool pool => rfl
    | request c => exact current.pool
    | lookup item => exact current.pool
    | get request initial stats => exact current.pool

end Runs

/-- Thirty-two visible characters. -/
def sampleToken : Bytes := List.replicate 32 120

/-- SHA-256 at the token and at the text with a blank before it. -/
def sampleDigest : Bytes → Bytes := pinnedDigest [
  (sampleToken, [
    198, 46, 70, 21, 189, 57, 226, 34, 87, 47, 58, 27, 247, 194, 19, 46, 161, 230, 91, 23,
    236, 128, 80, 71, 189, 107, 40, 66, 197, 147, 73, 63]),
  (32 :: sampleToken, [
    98, 120, 182, 30, 133, 88, 28, 30, 139, 22, 34, 168, 53, 195, 185, 110, 152, 209, 173,
    71, 232, 228, 215, 52, 156, 209, 87, 220, 222, 229, 101, 40])] 32

def sampleRequest (credentials : Bytes) : Request :=
  ⟨Header.set ∅ authorization credentials, true, true, ascii "GET", [], []⟩

/-- A recorded request, a pool that is registered and removed again, and two requests for the page,
the first of them with a blank too many. -/
def sampleActions : List Action :=
  [.request ⟨ascii "GET", ascii "/", ⟨⟨true, 200, []⟩, 200⟩, 1⟩,
    .registerPostgresPool (some 0), .registerPostgresPool none,
    .get (sampleRequest (ascii "Bearer  " ++ sampleToken)) ∅ (fun _ => none),
    .get (sampleRequest (bearer ++ sampleToken)) ∅ (fun _ => none)]

end MetricsEndpoint
