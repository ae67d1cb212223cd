import StumpfworksFramework.Instants
import StumpfworksFramework.UrlReferences

/-!
# OIDC verifiers, configurations and login clients

The constructors of the `oidc` package with all their checks. What the package
takes from other libraries (URL parsing, SHA-256, JOSE and JSON decoding) is a
parameter, `Platform`; nothing is assumed about it here. Clock readings are
arguments, one for each call of `now` in the source.
-/

namespace OidcClients

open ByteStrings Instants
open UrlReferences (Url)

inductive OidcError where
  | errLoginFailed
  | errInvalidToken
  | errStaleConfiguration
  | other (text : String)
  deriving DecidableEq, Repr

/-- `url.Values`: absent keys have no values. -/
abbrev Values := Bytes → List Bytes

def Values.get (v : Values) (key : Bytes) : Bytes := (v key).headD []

def Values.set (v : Values) (key value : Bytes) : Values :=
  fun k => if k = key then [value] else v k

/-- An RSA public key, by its encoding. -/
abbrev Key := Bytes

/-- One key of a JWKS as far as it is inspected; `rsa` is empty for other key types. -/
structure Jwk where
  rsa : Option Key
  valid : Bool
  isPublic : Bool
  bitLen : Nat
  keyID : Bytes
  algorithm : Bytes
  use : Bytes
  hasCertificatesURL : Bool
  deriving DecidableEq, Repr

structure JoseHeader where
  algorithm : Bytes
  keyID : Bytes
  hasJSONWebKey : Bool
  /-- further header names with their values, empty unless a string -/
  extraHeaders : List (Bytes × Option Bytes)
  deriving DecidableEq, Repr

/-- Registered claims with 64-bit numeric dates, `nonce` and `azp`. -/
structure IdClaims where
  issuer : Bytes
  subject : Bytes
  audience : List Bytes
  expiry : Option Int
  notBefore : Option Int
  issuedAt : Option Int
  nonce : Bytes
  authorizedParty : Bytes
  deriving DecidableEq, Repr

/-- A parsed token; its claims are available to a key that verifies it. -/
structure ParsedToken where
  headers : List JoseHeader
  claims : Key → Option IdClaims

/-- The fields of a token response; `expiresIn` is a 64-bit number. -/
structure TokenBody where
  idToken : Bytes
  accessToken : Bytes
  tokenType : Bytes
  expiresIn : Int
  deriving DecidableEq, Repr

/-- Functions of other libraries that the package calls. -/
structure Platform where
  parseUrl : Bytes → Option Url
  renderUrl : Url → Bytes
  parseQuery : Bytes → Values
  encodeQuery : Values → Bytes
  trimSpace : Bytes → Bytes
  equalFold : Bytes → Bytes → Bool
  sha256 : Bytes → Bytes
  parseJwks : Bytes → Option (List Jwk)
  parseSigned : Bytes → Option ParsedToken
  unmarshalToken : Bytes → Option TokenBody

def maxJWKSBytes : Nat := 64 <<< 10
def maxTokenBytes : Nat := 16 <<< 10
def maxKeys : Nat := 16
def clockSkew : Int := minute
def maxLifetime : Int := 10 * minute

structure Verifier where
  issuer : Bytes
  clientID : Bytes
  keys : List (Bytes × Key)
  deriving DecidableEq, Repr

structure Identity where
  issuer : Bytes
  subject : Bytes
  deriving DecidableEq, Repr

section Checks
variable (P : Platform)

def validIssuer (issuer : Bytes) : Bool :=
  match P.parseUrl issuer with
  | none => false
  | some u =>
    u.scheme = ascii "https" ∧ u.host ≠ [] ∧ u.hasUser = false ∧ u.path = [] ∧
      u.rawQuery = [] ∧ u.forceQuery = false ∧ u.fragment = [] ∧ u.opaquePart = [] ∧
      P.renderUrl u = issuer

/-- Both callers have parsed the issuer before. -/
def sameOriginEndpoint (issuer endpoint : Bytes) : Bool :=
  match P.parseUrl issuer, P.parseUrl endpoint with
  | some base, some u =>
    u.scheme = ascii "https" ∧ u.host = base.host ∧ u.hasUser = false ∧ u.path ≠ [] ∧
      u.rawQuery = [] ∧ u.forceQuery = false ∧ u.fragment = [] ∧ u.opaquePart = []
  | _, _ => false

/-- The loop of `NewVerifier` over the keys of the set. -/
def collectKeys : List Jwk → List (Bytes × Key) → Except OidcError (List (Bytes × Key))
  | [], keys => .ok keys
  | key :: rest, keys =>
    match key.rsa with
    | none => .error (.other "JWKS contains an unsupported key")
    | some rsa =>
      if key.valid = false ∨ key.isPublic = false ∨ key.bitLen < 2048 ∨ key.keyID = [] ∨
          key.keyID.length > 128 ∨ key.algorithm ≠ ascii "RS256" ∨ key.use ≠ ascii "sig" ∨
          key.hasCertificatesURL then
        .error (.other "JWKS contains an unsupported key")
      else if (keys.lookup key.keyID).isSome then
        .error (.other "JWKS contains duplicate key IDs")
      else collectKeys rest (keys ++ [(key.keyID, rsa)])

def newVerifier (issuer clientID jwks : Bytes) : Except OidcError Verifier :=
  if validIssuer P issuer = false then .error (.other "issuer must be an exact HTTPS origin")
  else if clientID = [] ∨ clientID.length > 256 ∨ P.trimSpace clientID ≠ clientID then
    .error (.other "client ID is required")
  else if jwks.length = 0 ∨ jwks.length > maxJWKSBytes then
    .error (.other "JWKS size is invalid")
  else
    match P.parseJwks jwks with
    | none => .error (.other "JWKS is invalid")
    | some set =>
      if set.length = 0 ∨ set.length > maxKeys then .error (.other "JWKS is invalid")
      else
        match collectKeys set [] with
        | .error e => .error e
        | .ok keys => .ok ⟨issuer, clientID, keys⟩

/-- The date and lifetime tests on the claims of an ID token. -/
def datesAccepted (now : Time) (issuedAt expiry : Int) (notBefore : Option Int) : Bool :=
  let issued := Time.unix issuedAt 0
  let expires := Time.unix expiry 0
  if issued.unixSec ≤ 0 ∨ now.before expires = false ∨
      expires.after issued = false ∨ expires.sub issued > maxLifetime ∨
      issued.after (now.add clockSkew) then false
  else
    match notBefore with
    | none => true
    | some nbf => !(Time.unix nbf 0).after (now.add clockSkew)

/-- `VerifyIDToken` at one reading of the verifier's clock. -/
def verifyIDToken (verifier : Verifier) (now : Time) (raw expectedNonce : Bytes) :
    Except OidcError Identity :=
  if expectedNonce = [] ∨ expectedNonce.length > 256 ∨ raw = [] ∨
      raw.length > maxTokenBytes then .error .errInvalidToken
  else
    match P.parseSigned raw with
    | none => .error .errInvalidToken
    | some parsed =>
      match parsed.headers with
      | [header] =>
        if header.algorithm ≠ ascii "RS256" ∨ header.keyID = [] ∨ header.hasJSONWebKey then
          .error .errInvalidToken
        else if header.extraHeaders.any
            (fun e => e.1 ≠ ascii "typ" ∨ e.2 ≠ some (ascii "JWT")) then
          .error .errInvalidToken
        else
          match (verifier.keys.lookup header.keyID).bind parsed.claims with
          | none => .error .errInvalidToken
          | some claims =>
            match claims.expiry, claims.issuedAt with
            | some expiry, some issuedAt =>
              if claims.issuer ≠ verifier.issuer ∨ claims.subject = [] ∨
                  claims.subject.length > 256 ∨ verifier.clientID ∉ claims.audience ∨
                  claims.nonce ≠ expectedNonce then .error .errInvalidToken
              else if (claims.audience.length ≠ 1 ∧ claims.authorizedParty ≠ verifier.clientID) ∨
                  (claims.authorizedParty ≠ [] ∧ claims.authorizedParty ≠ verifier.clientID) then
                .error .errInvalidToken
              else if datesAccepted now issuedAt expiry claims.notBefore = false then
                .error .errInvalidToken
              else .ok ⟨claims.issuer, claims.subject⟩
            | _, _ => .error .errInvalidToken
      | _ => .error .errInvalidToken

end Checks

structure Configuration where
  authorizationEndpoint : Bytes
  tokenEndpoint : Bytes
  introspectionEndpoint : Bytes
  verifier : Option Verifier
  validUntil : Time
  deriving DecidableEq, Repr

/-- A login client holds its own copy of a configuration whose verifier is set. -/
structure LoginClient where
  configuration : Configuration
  verifier : Verifier
  verifier_eq : configuration.verifier = some verifier
  clientID : Bytes
  secret : Bytes
  redirectURI : Bytes
  deriving DecidableEq

/-- The test on the callback address of `NewLoginClient`. -/
def validRedirect (P : Platform) (redirectURI : Bytes) : Bool :=
  match P.parseUrl redirectURI with
  | none => false
  | some redirect =>
    redirect.scheme = ascii "https" ∧ redirect.host ≠ [] ∧ redirect.hasUser = false ∧
      redirect.path ≠ [] ∧ redirect.rawQuery = [] ∧ redirect.forceQuery = false ∧
      redirect.fragment = [] ∧ redirect.opaquePart = []

def newLoginClient (P : Platform) (configuration : Option Configuration)
    (clientID clientSecret redirectURI : Bytes) : Except OidcError LoginClient :=
  match configuration with
  | none => .error (.other "invalid OIDC client configuration")
  | some configuration =>
    match set : configuration.verifier with
    | none => .error (.other "invalid OIDC client configuration")
    | some verifier =>
      if validIssuer P verifier.issuer = false ∨ clientID = [] ∨
          clientID ≠ verifier.clientID ∨ clientSecret = [] ∨
          sameOriginEndpoint P verifier.issuer configuration.authorizationEndpoint = false ∨
          sameOriginEndpoint P verifier.issuer configuration.tokenEndpoint = false then
        .error (.other "invalid OIDC client configuration")
      else if validRedirect P redirectURI = false then
        .error (.other "redirect URI must be an exact HTTPS callback without query")
      else .ok ⟨configuration, verifier, set, clientID, clientSecret, redirectURI⟩

/-- What can exist outside the package: a client from `NewLoginClient` whose
verifier is from `NewVerifier`. -/
def LoginClient.Built (P : Platform) (c : LoginClient) : Prop :=
  (∃ clientID secret redirectURI,
    newLoginClient P (some c.configuration) clientID secret redirectURI = .ok c) ∧
  ∃ issuer clientID jwks, newVerifier P issuer clientID jwks = .ok c.verifier

theorem newVerifier_ok {P : Platform} {issuer clientID jwks : Bytes} {v : Verifier}
    (h : newVerifier P issuer clientID jwks = .ok v) :
    v.issuer = issuer ∧ v.clientID = clientID ∧ validIssuer P issuer = true ∧
      clientID ≠ [] ∧ clientID.length ≤ 256 := by
  rw [newVerifier] at h
  split at h
  · cases h
  · rename_i issuerOk
    split at h
    · cases h
    · rename_i idOk
      split at h
      · cases h
      · split at h
        · cases h
        · split at h
          · cases h
          · split at h
            · cases h
            · cases h
              rw [not_or, not_or] at idOk
              exact ⟨rfl, rfl, Bool.eq_true_of_not_eq_false issuerOk, idOk.1, by omega⟩

/-- Nothing that the package does with a query matters to its constructors. -/
theorem LoginClient.Built.withQueries {P : Platform} {c : LoginClient} (built : c.Built P)
    (parseQuery : Bytes → Values) (encodeQuery : Values → Bytes) :
    c.Built { P with parseQuery := parseQuery, encodeQuery := encodeQuery } := built

theorem newLoginClient_ok {P : Platform} {configuration : Option Configuration}
    {clientID secret redirectURI : Bytes} {c : LoginClient}
    (h : newLoginClient P configuration clientID secret redirectURI = .ok c) :
    configuration = some c.configuration ∧ c.clientID = clientID ∧
      c.secret = secret ∧ c.redirectURI = redirectURI ∧
      validIssuer P c.verifier.issuer = true ∧ c.clientID = c.verifier.clientID ∧
      sameOriginEndpoint P c.verifier.issuer c.configuration.authorizationEndpoint = true ∧
      sameOriginEndpoint P c.verifier.issuer c.configuration.tokenEndpoint = true := by
  unfold newLoginClient at h
  split at h
  · cases h
  · split at h
    · cases h
    · split at h
      · cases h
      · rename_i accepted
        split at h
        · cases h
        · cases h
          simp only [not_or] at accepted
          obtain ⟨issuerOk, _, sameID, _, authorizeOk, tokenOk⟩ := accepted
          exact ⟨rfl, rfl, rfl, rfl, Bool.eq_true_of_not_eq_false issuerOk,
            Decidable.not_not.mp sameID, Bool.eq_true_of_not_eq_false authorizeOk,
            Bool.eq_true_of_not_eq_false tokenOk⟩

end OidcClients
