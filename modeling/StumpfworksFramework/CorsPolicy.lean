import StumpfworksFramework.HttpResponses
import StumpfworksFramework.OidcClients

/-!
# Cross-origin policies

The constructor `CORS` and the middleware it returns. The middleware's body is
given by its effects in order: headers added and set, a status written, the next
handler called. What they amount to for a next handler is `Writer.run`. Headers
are kept under their canonical names. Letter case, white space and URL parsing
are taken from the standard library as parameters, about which nothing is
assumed here.
-/

namespace CorsPolicy

open ByteStrings Decimals Instants
open HttpResponses (cacheControl)
open OidcClients (Values)
open UrlReferences (Url)

/-- Functions of `strings` and `net/url`. -/
structure Strings where
  toUpper : Bytes → Bytes
  toLower : Bytes → Bytes
  trimSpace : Bytes → Bytes
  parseUrl : Bytes → Option Url

structure CorsOptions where
  allowedOrigins : List Bytes
  allowedMethods : List Bytes
  allowedHeaders : List Bytes
  exposedHeaders : List Bytes
  allowCredentials : Bool
  /-- in nanoseconds -/
  maxAge : Int
  deriving DecidableEq, Repr

/-- What the middleware holds: the sets and lists built from the options. -/
structure Policy where
  origins : List Bytes
  wildcard : Bool
  methods : List Bytes
  headers : List Bytes
  options : CorsOptions
  deriving DecidableEq, Repr

/-! ## Construction -/

/-- A character outside ASCII has no byte of a token. -/
def validToken (value : Bytes) : Bool := value ≠ [] && value.all isTokenByte

section Construction

variable (S : Strings)

/-- The test on one allowed origin. -/
def acceptedOrigin (origin : Bytes) : Bool :=
  match S.parseUrl origin with
  | none => false
  | some parsed =>
    (parsed.scheme = ascii "http" ∨ parsed.scheme = ascii "https") ∧ parsed.host ≠ [] ∧
      parsed.hasUser = false ∧ parsed.path = [] ∧ parsed.rawQuery = [] ∧ parsed.fragment = []

def collectOrigins : List Bytes → List Bytes → Bool → Except String (List Bytes × Bool)
  | [], origins, wildcard => .ok (origins, wildcard)
  | origin :: rest, origins, wildcard =>
    if origin = ascii "*" then collectOrigins rest origins true
    else if acceptedOrigin S origin = false then
      .error "CORS origins must be exact HTTP(S) origins"
    else collectOrigins rest (origins ++ [origin]) wildcard

def collectMethods : List Bytes → List Bytes → Except String (List Bytes)
  | [], methods => .ok methods
  | method :: rest, methods =>
    if validToken (S.toUpper method) = false then .error "CORS method is invalid"
    else collectMethods rest (methods ++ [S.toUpper method])

def collectHeaders : List Bytes → List Bytes → Except String (List Bytes)
  | [], headers => .ok headers
  | header :: rest, headers =>
    if validToken header = false then .error "CORS header is invalid"
    else collectHeaders rest (headers ++ [S.toLower header])

def checkExposed : List Bytes → Except String Unit
  | [] => .ok ()
  | header :: rest =>
    if validToken header = false then .error "CORS exposed header is invalid"
    else checkExposed rest

def cors (options : CorsOptions) : Except String Policy :=
  match collectOrigins S options.allowedOrigins [] false with
  | .error e => .error e
  | .ok (origins, wildcard) =>
    if wildcard = true ∧ options.allowCredentials = true then
      .error "credentialed CORS cannot use a wildcard origin"
    else
      match collectMethods S options.allowedMethods [] with
      | .error e => .error e
      | .ok methods =>
        match collectHeaders S options.allowedHeaders [] with
        | .error e => .error e
        | .ok headers =>
          match checkExposed options.exposedHeaders with
          | .error e => .error e
          | .ok _ =>
            if options.maxAge < 0 ∨ options.maxAge > 24 * hour then
              .error "CORS max age must be between zero and 24 hours"
            else .ok ⟨origins, wildcard, methods, headers, options⟩

end Construction

/-! ## The middleware -/

structure Request where
  method : Bytes
  url : Bytes
  header : Values

inductive Effect where
  | addHeader (name value : Bytes)
  | setHeader (name value : Bytes)
  | writeHeader (statusCode : Nat)
  | serveNext
  deriving DecidableEq, Repr

def originName : Bytes := ascii "Origin"
def varyName : Bytes := ascii "Vary"
def requestMethodName : Bytes := ascii "Access-Control-Request-Method"
def requestHeadersName : Bytes := ascii "Access-Control-Request-Headers"
def allowOriginName : Bytes := ascii "Access-Control-Allow-Origin"
def allowCredentialsName : Bytes := ascii "Access-Control-Allow-Credentials"
def exposeHeadersName : Bytes := ascii "Access-Control-Expose-Headers"
def allowMethodsName : Bytes := ascii "Access-Control-Allow-Methods"
def allowHeadersName : Bytes := ascii "Access-Control-Allow-Headers"
def maxAgeName : Bytes := ascii "Access-Control-Max-Age"

def Request.origin (r : Request) : Bytes := Values.get r.header originName

def isPreflight (r : Request) : Bool :=
  r.method = ascii "OPTIONS" ∧ Values.get r.header requestMethodName ≠ []

/-- `strings.Split` at a separator of one byte. -/
def splitAt (separator : UInt8) : Bytes → List Bytes
  | [] => [[]]
  | b :: rest =>
    if b = separator then [] :: splitAt separator rest
    else
      match splitAt separator rest with
      | [] => [[b]]
      | part :: parts => (b :: part) :: parts

/-- `strings.Join` with a comma and a blank. -/
def joined (values : List Bytes) : Bytes := List.intercalate (ascii ", ") values

section Serve

variable (S : Strings) (p : Policy)

/-- The loop over the requested headers finds nothing that is not allowed. -/
def headersAllowed (requested : Bytes) : Bool :=
  (splitAt 44 requested).all fun header =>
    S.trimSpace (S.toLower header) = [] ∨ S.trimSpace (S.toLower header) ∈ p.headers

/-- A preflight whose origin is allowed. -/
def answerPreflight (r : Request) : List Effect :=
  [Effect.addHeader varyName requestMethodName, Effect.addHeader varyName requestHeadersName] ++
  if S.toUpper (Values.get r.header requestMethodName) ∉ p.methods then [Effect.writeHeader 403]
  else if headersAllowed S p (Values.get r.header requestHeadersName) = false then
    [Effect.writeHeader 403]
  else
    [Effect.setHeader allowMethodsName (joined p.methods)] ++
    (if p.options.allowedHeaders ≠ [] then
      [Effect.setHeader allowHeadersName (joined p.options.allowedHeaders)] else []) ++
    (if p.options.maxAge > 0 then
      [Effect.setHeader maxAgeName (decimal (p.options.maxAge / second))] else []) ++
    [Effect.writeHeader 204]

def allowed (origin : Bytes) : Bool := origin ∈ p.origins ∨ p.wildcard = true

def serve (r : Request) : List Effect :=
  if r.origin = [] then [Effect.serveNext]
  else
    [Effect.addHeader varyName originName] ++
    if allowed p r.origin = false then
      if isPreflight r = true then
        [Effect.setHeader cacheControl (ascii "no-store"), Effect.writeHeader 403]
      else [Effect.serveNext]
    else
      [Effect.setHeader allowOriginName (if p.wildcard = true then ascii "*" else r.origin)] ++
      (if p.options.allowCredentials = true then
        [Effect.setHeader allowCredentialsName (ascii "true")] else []) ++
      if isPreflight r = false then
        (if p.options.exposedHeaders ≠ [] then
          [Effect.setHeader exposeHeadersName (joined p.options.exposedHeaders)] else []) ++
        [Effect.serveNext]
      else answerPreflight S p r

end Serve

/-! ## Responses -/

/-- A response under construction: its headers, and the status once one was written. -/
structure Writer where
  header : Values
  status : Option Nat

def Writer.fresh : Writer := ⟨fun _ => [], none⟩

abbrev Handler := Request → Writer → Writer

def Writer.effect (next : Handler) (r : Request) (w : Writer) : Effect → Writer
  | .addHeader name value =>
    { w with header := fun k => if k = name then w.header k ++ [value] else w.header k }
  | .setHeader name value => { w with header := Values.set w.header name value }
  | .writeHeader statusCode => { w with status := w.status.or (some statusCode) }
  | .serveNext => next r w

def Writer.run (next : Handler) (r : Request) (w : Writer) (effects : List Effect) : Writer :=
  effects.foldl (Writer.effect next r) w

/-- The status that the server sends: 200 if the handlers wrote none. -/
def Writer.sent (w : Writer) : Nat := w.status.getD 200

/-- The response of the middleware around a handler. -/
def response (S : Strings) (p : Policy) (next : Handler) (r : Request) : Writer :=
  Writer.run next r Writer.fresh (serve S p r)

end CorsPolicy
