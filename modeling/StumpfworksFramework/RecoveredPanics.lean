import StumpfworksFramework.MiddlewareChain

/-!
# What a client receives after a recovered panic

A handler that panics before it has written anything is answered with the
internal problem. The problem is written on top of the headers the handler left
behind, of which only `Content-Type` and `Cache-Control` are replaced. What is
sent is compared with the answer to a handler that panics at once: whether it
describes its body alike, and whether a client makes the whole problem of it.
-/

namespace RecoveredPanics

open ByteStrings Decimals HttpResponses MiddlewareChain
open ResponseStatus (Recorder accessLogStatus)

/-! ## Handlers that panic early -/

/-- The header map after a step of a handler. -/
def edited (header : Header) : Step → Header
  | .header h => h
  | _ => header

/-- The header map that a run leaves, from the one it found. -/
def leftHeader (script : Script) (found : Header) : Header := script.steps.foldl edited found

/-- A run that panics before any `WriteHeader` or `Write`. -/
structure Early (script : Script) : Prop where
  panics : script.panics = true
  unwritten : ∀ step ∈ script.steps, ∃ h, step = .header h

/-- The handler that panics at once. -/
def bare : Handler := fun _ _ => ⟨[], true⟩

/-- The request as the handler sees it. -/
def identified (E : Surroundings) (request : Request) : Request :=
  if requestIdentity E request = [] then request
  else { request with contextID := requestIdentity E request }

/-- The headers that the handler finds, on a response that had `initial` before. -/
def found (E : Surroundings) (request : Request) (initial : Header) : Header :=
  secured request
    (if requestIdentity E request = [] then initial
      else initial.set requestIDName (requestIdentity E request))

/-- The response of the server to a request, through the chain. -/
def respond (E : Surroundings) (next : Handler) (request : Request) (initial : Header) : Response :=
  (chain E netHTTP next (Response.fresh initial) request).1

def isHead (request : Request) : Bool := request.method = ascii "HEAD"

/-- The message that is sent. -/
def answer (E : Surroundings) (next : Handler) (request : Request) (initial : Header) : Message :=
  finish (isHead request) request.http11 (respond E next request initial)

/-! ## The response -/

/-- The part of the body that the server takes: all of it, or nothing if the headers declare a
smaller length. -/
def admitted (header : Header) (body : Bytes) : Bytes :=
  if (Response.parseLength (header.get contentLength)).any (· < body.length) = true then []
  else body

section Server

variable {E : Surroundings}

/-- An error 500 with a body, on a response that has sent nothing yet. -/
theorem answered (header : Header) (body : Bytes) :
    let r := ((Response.fresh header).writeHeader 500).write body
    r.sent = some (500, header) ∧ r.body = admitted header body ∧
      r.contentLength = Response.parseLength (header.get contentLength) := by
  intro r
  obtain ⟨length, sent, new, empty⟩ :=
    Response.declare_eq (r := ⟨header, some (500, header), [], none, 0, []⟩) rfl
  -- the second call of `WriteHeader`, inside `Write`, comes too late to matter
  have late : r = (Response.declare ⟨header, some (500, header), [], none, 0, []⟩).append body := by
    have first : (Response.fresh header).writeHeader 500 =
        Response.declare ⟨header, some (500, header), [], none, 0, []⟩ := rfl
    simp only [r, first, Response.write]
    rw [Response.writeHeader, if_pos]
    rw [sent]
    rfl
  have allowed : (Response.declare ⟨header, some (500, header), [], none, 0, []⟩).bodyAllowed =
      true := by
    rw [Response.bodyAllowed, sent]
    rfl
  rw [late]
  obtain ⟨sent', length', body'⟩ := Response.append_eq allowed new empty body
  rw [sent', body', sent, length', length]
  exact ⟨rfl, rfl, rfl⟩

theorem header_fresh (header : Header) :
    (logged netHTTP).header (Recorder.fresh (Response.fresh header)) = header := rfl

/-- Header edits touch nothing but the header map. -/
theorem edits_left {steps : List Step} (unwritten : ∀ step ∈ steps, ∃ h, step = .header h)
    (header : Header) :
    steps.foldl (Step.run (logged netHTTP)) (Recorder.fresh (Response.fresh header)) =
      Recorder.fresh (Response.fresh (steps.foldl edited header)) := by
  induction steps generalizing header with
  | nil => rfl
  | cons step rest ih =>
    obtain ⟨h, rfl⟩ := unwritten step List.mem_cons_self
    exact ih (fun step mem => unwritten step (List.mem_cons_of_mem _ mem)) h

/-- The entry of the access log for a request that was answered with a status. -/
def completed (E : Surroundings) (request : Request) (status : Int) : LogEntry :=
  .requestCompleted (identified E request).contextID request.method
    (if request.pattern = [] then ascii "unmatched" else request.pattern) status E.durationMs

/-- What the chain does is what the recovery does, on the headers that the handler finds. -/
theorem chain_eq (next : Handler) (request : Request) (initial : Header) :
    let r := recoverer E (logged netHTTP) next
      (Recorder.fresh (Response.fresh (found E request initial))) (identified E request)
    chain E netHTTP next (Response.fresh initial) request =
      (r.1.inner, r.2 ++ [completed E request (accessLogStatus r.1)]) := by
  unfold chain requestID completed identified found
  by_cases anonymous : requestIdentity E request = []
  · simp only [anonymous, if_true]
    rfl
  · simp only [anonymous, if_false]
    rfl

theorem recoverer_early {next : Handler} {request : Request} {header : Header}
    (early : Early (next request header)) :
    recoverer E (logged netHTTP) next (Recorder.fresh (Response.fresh header)) request =
      (MiddlewareChain.problemWrite E (logged netHTTP)
        (Recorder.fresh (Response.fresh (leftHeader (next request header) header))) internalError,
      [.requestPanic ((leftHeader (next request header) header).get requestIDName)]) := by
  simp only [recoverer, header_fresh, early.panics, if_true, edits_left early.unwritten]
  rfl

/-- The log has the identity of the request and the status of the problem, and nothing of the
panic. -/
theorem logged_early {next : Handler} {request : Request} {initial : Header}
    (early : Early (next (identified E request) (found E request initial))) :
    let left := leftHeader (next (identified E request) (found E request initial))
      (found E request initial)
    (chain E netHTTP next (Response.fresh initial) request).2 =
      [.requestPanic (left.get requestIDName), completed E request 500] := by
  intro left
  rw [chain_eq, recoverer_early early]
  rfl

end Server

/-! ## Headers around the handler -/

/-- The names that the security headers set. -/
def securityNames : List Bytes :=
  [ascii "X-Content-Type-Options", ascii "X-Frame-Options", ascii "Referrer-Policy",
    ascii "Content-Security-Policy", ascii "Permissions-Policy",
    ascii "Strict-Transport-Security"]

/-- What no security header disturbs holds after all of them. -/
theorem secured_induction {P : Header → Prop}
    (kept : ∀ name ∈ securityNames, ∀ value header, P header → P (header.set name value))
    {header : Header} (holds : P header) (request : Request) : P (secured request header) := by
  simp only [securityNames, List.forall_mem_cons] at kept
  obtain ⟨options, frame, referrer, security, permissions, transport, _⟩ := kept
  have plain := permissions (ascii "camera=(), microphone=(), geolocation=()") _
    (security (ascii "default-src 'none'; frame-ancestors 'none'") _
      (referrer (ascii "no-referrer") _ (frame (ascii "DENY") _
        (options (ascii "nosniff") _ holds))))
  unfold secured
  split
  · exact transport _ _ plain
  · exact plain

theorem secured_other (request : Request) (header : Header) {name : Bytes}
    (apart : name ∉ securityNames) :
    (secured request header).values name = header.values name := by
  refine secured_induction (P := fun h => h.values name = header.values name) ?_ rfl request
  intro other listed value h same
  rw [Header.values_set, if_neg]
  · exact same
  · rintro rfl
    exact apart listed

/-- Nothing is said about a body or its framing. -/
structure Unframed (header : Header) : Prop where
  canonical : Canonical header
  silent : Silent header
  encoding : header.values contentEncoding = []

section Left

variable {header : Header} {name : Bytes}

/-- What the chain sets in front of the handler is no matter of framing. -/
theorem chain_unrelated (listed : name ∈ requestIDName :: securityNames) :
    Unrelated name ∧ ∀ n ∈ framed, asciiLower name ≠ asciiLower n := by
  have all : ∀ name ∈ requestIDName :: securityNames, contentLength ≠ name ∧
      transferEncoding ≠ name ∧ trailer ≠ name ∧ (ascii "Trailer:").isPrefixOf name = false ∧
      ∀ n ∈ framed, asciiLower name ≠ asciiLower n := by
    unfold securityNames requestIDName
    repeat rw [ascii_ofList]
    decide +kernel
  obtain ⟨length, coding, trailers, mark, apart⟩ := all name listed
  exact ⟨⟨length, coding, trailers, mark⟩, apart⟩

theorem Unframed.set (unframed : Unframed header) (listed : name ∈ requestIDName :: securityNames)
    (value : Bytes) : Unframed (header.set name value) := by
  obtain ⟨unrelated, apart⟩ := chain_unrelated listed
  have encoding : contentEncoding ≠ name := by
    rintro rfl
    exact apart contentEncoding (by decide +kernel) rfl
  refine ⟨canonical_set unframed.canonical fun n mem same => absurd same (apart n mem),
    (silent_set_iff unrelated).mpr unframed.silent, ?_⟩
  rw [Header.values_set, if_neg encoding]
  exact unframed.encoding

theorem Unframed.found (unframed : Unframed header) (E : Surroundings) (request : Request) :
    Unframed (found E request header) := by
  refine secured_induction (P := Unframed) ?_ ?_ request
  · intro name listed value h kept
    exact kept.set (List.mem_cons_of_mem _ listed) value
  · split
    · exact unframed
    · exact unframed.set List.mem_cons_self _

end Left

/-! ## Compared with a panic at once -/

/-- Headers that do not disturb a problem of this size, where a panic at once gives one of
`size'`: nothing is said about the body, or the right length, and the server sends that. -/
structure Undisturbed (head http11 : Bool) (left : Header) (size size' : Nat) : Prop where
  encoding : left.values contentEncoding = []
  length : Silent left ∧ size = size' ∨
    Announces head http11 left size' ∧ (head = false → size = size')

section Compared

variable {E : Surroundings} {next : Handler} {request : Request} {initial : Header}

end Compared

def sampleSurroundings : Surroundings where
  texts := ConcurrencyLimit.plainTexts
  shown := fun b => String.ofList (b.map fun c => Char.ofNat c.toNat)
  newID := ascii "0"
  durationMs := 1

def sampleRequest : Request := ⟨∅, false, true, ascii "GET", [], []⟩

end RecoveredPanics
