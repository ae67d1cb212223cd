import StumpfworksFramework.ConcurrencyLimit
import StumpfworksFramework.HttpResponses
import StumpfworksFramework.Utf8Runes

/-!
# The middleware chain

Request identity, security headers, access log and panic recovery around a
handler, with the response headers. A handler's run is what it does to the
writer, one step after the other, and how it ends; what it reads of the request
and of the headers it finds decides the run.
-/

namespace MiddlewareChain

open ByteStrings ConcurrencyLimit HttpResponses ResponseStatus Utf8Runes

def requestIDName : Bytes := ascii "X-Request-Id"

/-- The access log's wrapper, which passes `Header` on. -/
def logged {σ : Type} (w : ResponseWriter σ) : ResponseWriter (Recorder σ) where
  toWriter := responseWriter w.toWriter
  header := fun r => w.header r.inner
  setHeader := fun r header => { r with inner := w.setHeader r.inner header }

/-! ## Requests and handlers -/

/-- `http11` says that the request is of HTTP/1.1 and not of 1.0, and `contextID` is the identity
that `RequestID` finds in the context, or empty. -/
structure Request where
  header : Header
  tls : Bool
  http11 : Bool
  method : Bytes
  pattern : Bytes
  contextID : Bytes

inductive Step where
  | header (h : Header)
  | writeHeader (code : Int)
  | write (body : Bytes)

/-- A run of a handler: what it does, and whether it then panics or returns. -/
structure Script where
  steps : List Step
  panics : Bool

/-- A handler, given the request and the headers it finds. -/
abbrev Handler := Request → Header → Script

def Step.run {σ : Type} (w : ResponseWriter σ) (s : σ) : Step → σ
  | .header h => w.setHeader s h
  | .writeHeader code => w.writeHeader s code
  | .write body => w.write s body

inductive LogEntry where
  | requestPanic (requestID : Bytes)
  | requestCompleted (requestID method route : Bytes) (status durationMs : Int)
  deriving DecidableEq, Repr

/-- What surrounds one request. `shown` is the text that the JSON encoder makes of a string,
and `newID` the result of `id.New`, empty if the random source failed. -/
structure Surroundings where
  texts : Texts
  shown : Bytes → String
  newID : Bytes
  durationMs : Int

/-! ## The chain -/

/-- The headers of a problem on top of those that are there. -/
def problemHeader (header : Header) : Header :=
  (header.set contentType (ascii "application/problem+json")).set cacheControl (ascii "no-store")

theorem problemHeader_other {header : Header} {k : Bytes} (type : k ≠ contentType)
    (cache : k ≠ cacheControl) : (problemHeader header).values k = header.values k := by
  simp only [problemHeader, Header.values_set, if_neg type, if_neg cache]

theorem problemHeader_length (header : Header) :
    (problemHeader header).values contentLength = header.values contentLength :=
  problemHeader_other (by decide +kernel) (by decide +kernel)

section Chain

variable (E : Surroundings) {σ : Type} (w : ResponseWriter σ)

/-- `problem.Write`. -/
def problemWrite (s : σ) (details : Details) : σ :=
  let header := w.header s
  ConcurrencyLimit.problemWrite E.texts w.toWriter (E.shown (header.get requestIDName))
    (w.setHeader s (problemHeader header)) details

def internalError : Details :=
  ⟨"https://docs.stumpfworks.de/problems/internal", "Internal server error", 500, "internal_error",
    "", []⟩

/-- A handler attached to its writer: the state of the response and what was logged. -/
abbrev Served (σ : Type) := σ → Request → σ × List LogEntry

def recoverer (next : Handler) : Served σ := fun s request =>
  let script := next request (w.header s)
  let s := script.steps.foldl (Step.run w) s
  if script.panics = true then
    (problemWrite E w s internalError, [.requestPanic ((w.header s).get requestIDName)])
  else (s, [])

def accessLog (next : Served (Recorder σ)) : Served σ := fun s request =>
  let r := next (Recorder.fresh s) request
  let route := if request.pattern = [] then ascii "unmatched" else request.pattern
  (r.1.inner, r.2 ++
    [.requestCompleted request.contextID request.method route (accessLogStatus r.1) E.durationMs])

/-- The headers that `securityHeaders` sets. -/
def secured (request : Request) (header : Header) : Header :=
  let header := header
    |>.set (ascii "X-Content-Type-Options") (ascii "nosniff")
    |>.set (ascii "X-Frame-Options") (ascii "DENY")
    |>.set (ascii "Referrer-Policy") (ascii "no-referrer")
    |>.set (ascii "Content-Security-Policy") (ascii "default-src 'none'; frame-ancestors 'none'")
    |>.set (ascii "Permissions-Policy") (ascii "camera=(), microphone=(), geolocation=()")
  if request.tls = true then
    header.set (ascii "Strict-Transport-Security") (ascii "max-age=31536000")
  else header

def securityHeaders (next : Served σ) : Served σ := fun s request =>
  next (w.setHeader s (secured request (w.header s))) request

def validRequestID (id : Bytes) : Bool :=
  id ≠ [] && id.length ≤ 128 && (runes id).all fun c =>
    (97 ≤ c ∧ c ≤ 122) ∨ (65 ≤ c ∧ c ≤ 90) ∨ (48 ≤ c ∧ c ≤ 57) ∨ c = 45 ∨ c = 95

/-- The identity of a request: the client's own if it is well formed. -/
def requestIdentity (request : Request) : Bytes :=
  if validRequestID (request.header.get requestIDName) = true then
    request.header.get requestIDName
  else E.newID

def requestID (next : Served σ) : Served σ := fun s request =>
  let id := requestIdentity E request
  if id = [] then next s request
  else
    next (w.setHeader s ((w.header s).set requestIDName id)) { request with contextID := id }

def chain (next : Handler) : Served σ :=
  requestID E w (securityHeaders w (accessLog E (recoverer E (logged w) next)))

end Chain

end MiddlewareChain
