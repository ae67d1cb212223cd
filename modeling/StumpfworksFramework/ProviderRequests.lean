import StumpfworksFramework.LoginExchange

/-!
# Requests to the provider

`Discover`, the constructor of a token introspector and `Introspect`, with the
HTTP client they send through. A client that follows redirects asks whatever
address a response names; one whose `CheckRedirect` is `ErrUseLastResponse` hands
the response on. Responses are arguments, since a provider or whoever stands in
its place may answer anything. A request is known by the address it was built
from; the limit of ten redirects is left out, so that a client that follows them
has more to answer for, not less.
-/

namespace ProviderRequests

open ByteStrings Instants OidcClients OidcTransactions LoginExchange

/-! ## The HTTP client -/

inductive RedirectPolicy where
  | useLastResponse
  | follow
  deriving DecidableEq, Repr

structure HttpClient where
  checkRedirect : RedirectPolicy
  deriving DecidableEq, Repr

def defaultClient : HttpClient := ⟨.follow⟩

/-- The copy that the constructors make of a client, or of the default one. -/
def copyClient (client : Option HttpClient) : HttpClient :=
  { client.getD defaultClient with checkRedirect := .useLastResponse }

/-- What comes back for one request; a body that cannot be read to its end is missing. -/
inductive Reply where
  | failed
  | received (statusCode : Nat) (location : Option Bytes) (body : Option Bytes)

def redirects (statusCode : Nat) : Bool := statusCode ∈ [301, 302, 303, 307, 308]

/-- `Do`: the outcome and the addresses that were asked. -/
def HttpClient.send (client : HttpClient) : List Reply → Bytes → TokenResponse × List Bytes
  | [], address => (.failed, [address])
  | .failed :: _, address => (.failed, [address])
  | .received statusCode location body :: rest, address =>
    match client.checkRedirect, location with
    | .follow, some target =>
      if redirects statusCode = true then
        let (outcome, asked) := client.send rest target
        (outcome, address :: asked)
      else (.received statusCode body, [address])
    | _, _ => (.received statusCode body, [address])

/-! ## Discovery -/

def maxMetadataBytes : Nat := 32 <<< 10

structure Metadata where
  issuer : Bytes
  authorizationEndpoint : Bytes
  tokenEndpoint : Bytes
  introspectionEndpoint : Bytes
  jwksURI : Bytes
  responseTypesSupported : List Bytes
  codeChallengeMethodsSupported : List Bytes
  idTokenSigningAlgValuesSupported : List Bytes
  deriving DecidableEq, Repr

/-- The fields of an introspection response; the dates are 64-bit numbers. -/
structure IntrospectionBody where
  active : Bool
  clientID : Bytes
  subject : Bytes
  sessionID : Bytes
  scope : Bytes
  tokenType : Bytes
  issuedAt : Int
  expiresAt : Int
  deriving DecidableEq, Repr

/-- `json.Unmarshal` into the three destinations. -/
structure Decoders where
  metadata : Bytes → Option Metadata
  raw : Bytes → Option Bytes
  introspection : Bytes → Option IntrospectionBody

section Discover

variable (P : Platform) (D : Decoders)

/-- The contents that `fetchJSON` decodes, and the addresses it asked. -/
def fetchJSON (client : HttpClient) (address : Bytes) (limit : Nat) (replies : List Reply) :
    Option Bytes × List Bytes :=
  match P.parseUrl address with
  | none => (none, [])
  | some _ =>
    match client.send replies address with
    | (.received 200 (some body), asked) =>
      let contents := body.take (limit + 1)
      (if contents.length > limit then none else some contents, asked)
    | (_, asked) => (none, asked)

def wellKnown : Bytes := ascii "/.well-known/openid-configuration"

def metadataAccepted (issuer : Bytes) (found : Metadata) : Bool :=
  found.issuer = issuer ∧ sameOriginEndpoint P issuer found.authorizationEndpoint = true ∧
    sameOriginEndpoint P issuer found.tokenEndpoint = true ∧
    sameOriginEndpoint P issuer found.jwksURI = true ∧
    (found.introspectionEndpoint = [] ∨
      sameOriginEndpoint P issuer found.introspectionEndpoint = true) ∧
    ascii "code" ∈ found.responseTypesSupported ∧
    ascii "S256" ∈ found.codeChallengeMethodsSupported ∧
    ascii "RS256" ∈ found.idTokenSigningAlgValuesSupported

/-- What `Discover` makes of the key set; `now` is its clock reading. -/
def configured (issuer clientID : Bytes) (found : Metadata) (now : Time) (jwks : Bytes) :
    Except OidcError Configuration :=
  match newVerifier P issuer clientID jwks with
  | .error _ => .error (.other "OIDC JWKS is invalid")
  | .ok verifier =>
    .ok ⟨found.authorizationEndpoint, found.tokenEndpoint, found.introspectionEndpoint,
      some verifier, now.add hour⟩

def discover (hasContext : Bool) (issuer clientID : Bytes) (client : Option HttpClient)
    (metadataReplies jwksReplies : List Reply) (now : Time) :
    Except OidcError Configuration × List Bytes :=
  if hasContext = false ∨ validIssuer P issuer = false ∨ clientID = [] then
    (.error (.other "invalid OIDC discovery configuration"), [])
  else
    let http := copyClient client
    let (document, asked) := fetchJSON P http (issuer ++ wellKnown) maxMetadataBytes metadataReplies
    match document.bind D.metadata with
    | none => (.error (.other "OIDC discovery failed"), asked)
    | some found =>
      if metadataAccepted P issuer found = false then
        (.error (.other "OIDC discovery metadata is invalid"), asked)
      else
        let (keys, asked') := fetchJSON P http found.jwksURI maxJWKSBytes jwksReplies
        match keys.bind D.raw with
        | none => (.error (.other "OIDC JWKS fetch failed"), asked ++ asked')
        | some jwks => (configured P issuer clientID found now jwks, asked ++ asked')

end Discover

/-! ## Introspection -/

def maxIntrospectionResponseBytes : Nat := 32 <<< 10

def errIntrospectionFailed : OidcError := .other "OIDC token introspection failed"

structure TokenStatus where
  active : Bool
  subject : Bytes
  sessionID : Bytes
  scope : Bytes
  issuedAt : Time
  expiresAt : Time
  deriving DecidableEq, Repr

structure TokenIntrospector where
  endpoint : Bytes
  clientID : Bytes
  secret : Bytes
  client : HttpClient
  deriving DecidableEq, Repr

section Introspect

variable (P : Platform) (D : Decoders)

def newTokenIntrospector (configuration : Option Configuration) (clientID clientSecret : Bytes)
    (client : Option HttpClient) : Except OidcError TokenIntrospector :=
  match configuration with
  | none => .error (.other "invalid OIDC introspection configuration")
  | some configuration =>
    match configuration.verifier with
    | none => .error (.other "invalid OIDC introspection configuration")
    | some verifier =>
      if clientID = [] ∨ clientID ≠ verifier.clientID ∨ clientSecret = [] ∨
          sameOriginEndpoint P verifier.issuer configuration.introspectionEndpoint = false then
        .error (.other "invalid OIDC introspection configuration")
      else
        .ok ⟨configuration.introspectionEndpoint, clientID, clientSecret, copyClient client⟩

def introspectionRequest (i : TokenIntrospector) (token : Bytes) : TokenRequest where
  endpoint := i.endpoint
  headers := [(ascii "Content-Type", ascii "application/x-www-form-urlencoded"),
    (ascii "Accept", ascii "application/json")]
  username := i.clientID
  password := i.secret
  form := Values.set (Values.set (fun _ => [])
    (ascii "token") token) (ascii "token_type_hint") (ascii "access_token")

/-- The tests on an active response. -/
def activeAccepted (i : TokenIntrospector) (now : Time) (body : IntrospectionBody) : Bool :=
  body.clientID = i.clientID ∧ body.subject ≠ [] ∧ body.sessionID ≠ [] ∧
    P.equalFold body.tokenType (ascii "Bearer") = true ∧ body.subject.length ≤ 1024 ∧
    body.sessionID.length ≤ 1024 ∧ body.scope.length ≤ 4096 ∧ 0 < body.issuedAt ∧
    body.issuedAt < body.expiresAt ∧
    (Time.unix body.issuedAt 0).after (now.add clockSkew) = false ∧
    now.before (Time.unix body.expiresAt 0) = true ∧
    (Time.unix body.expiresAt 0).after (now.add (24 * hour)) = false

/-- What `Introspect` makes of the response; `now` is its clock reading. -/
def tokenStatus (i : TokenIntrospector) (response : TokenResponse) (now : Time) :
    Except OidcError TokenStatus :=
  match response with
  | .received 200 (some bytes) =>
    let contents := bytes.take (maxIntrospectionResponseBytes + 1)
    if contents.length > maxIntrospectionResponseBytes then .error errIntrospectionFailed
    else
      match D.introspection contents with
      | none => .error errIntrospectionFailed
      | some body =>
        if body.active = false then .ok ⟨false, [], [], [], ⟨0⟩, ⟨0⟩⟩
        else if activeAccepted P i now body = false then .error errIntrospectionFailed
        else
          .ok ⟨true, body.subject, body.sessionID, body.scope, Time.unix body.issuedAt 0,
            Time.unix body.expiresAt 0⟩
  | _ => .error errIntrospectionFailed

def introspect (i : TokenIntrospector) (hasContext : Bool) (token : Bytes) (replies : List Reply)
    (now : Time) : Except OidcError TokenStatus × List Bytes :=
  if hasContext = false ∨ token = [] ∨ token.length > maxCodeBytes then
    (.error errIntrospectionFailed, [])
  else
    match P.parseUrl (introspectionRequest i token).endpoint with
    | none => (.error errIntrospectionFailed, [])
    | some _ =>
      let (response, asked) := i.client.send replies (introspectionRequest i token).endpoint
      (tokenStatus P D i response now, asked)

end Introspect

/-! ## The addresses asked -/

section Asked

variable {P : Platform} {D : Decoders}

/-- Without redirects only the address of the request is asked. -/
theorem send_asked {client : HttpClient} (last : client.checkRedirect = .useLastResponse)
    (replies : List Reply) (address : Bytes) : (client.send replies address).2 = [address] := by
  cases replies with
  | nil => rfl
  | cons reply rest =>
    cases reply with
    | failed => rfl
    | received statusCode location body => simp only [HttpClient.send, last]

@[simp] theorem copyClient_checkRedirect (client : Option HttpClient) :
    (copyClient client).checkRedirect = .useLastResponse := rfl

theorem fetchJSON_asked {client : HttpClient} (last : client.checkRedirect = .useLastResponse)
    {address : Bytes} {limit : Nat} {replies : List Reply} {asked : Bytes}
    (mem : asked ∈ (fetchJSON P client address limit replies).2) : asked = address := by
  have only := send_asked last replies address
  unfold fetchJSON at mem
  split at mem
  · cases mem
  · split at mem
    · rename_i sent
      rw [sent] at only
      dsimp only at only mem
      rw [only] at mem
      exact List.mem_singleton.mp mem
    · rename_i sent
      rw [sent] at only
      dsimp only at only mem
      rw [only] at mem
      exact List.mem_singleton.mp mem

/-- A document within the limit is returned as it is. -/
theorem fetchJSON_ok {client : HttpClient} (last : client.checkRedirect = .useLastResponse)
    {address : Bytes} (parses : (P.parseUrl address).isSome = true) {limit : Nat} {body : Bytes}
    (short : body.length ≤ limit) (rest : List Reply) :
    fetchJSON P client address limit (.received 200 none (some body) :: rest) =
      (some body, [address]) := by
  obtain ⟨u, parsed⟩ := Option.isSome_iff_exists.mp parses
  have whole : body.take (limit + 1) = body := List.take_of_length_le (by omega)
  have within : ¬ body.length > limit := by omega
  simp only [fetchJSON, parsed, HttpClient.send, last, whole, if_neg within]

theorem introspect_asked {i : TokenIntrospector} (last : i.client.checkRedirect = .useLastResponse)
    {hasContext : Bool} {token : Bytes} {replies : List Reply} {now : Time} {asked : Bytes}
    (mem : asked ∈ (introspect P D i hasContext token replies now).2) : asked = i.endpoint := by
  unfold introspect at mem
  split at mem
  · cases mem
  · split at mem
    · cases mem
    · simp only [send_asked last] at mem
      exact List.mem_singleton.mp mem

/-- `Discover` asks the issuer's document and the address of the keys that it has vetted. -/
theorem discover_asked {hasContext : Bool} {issuer clientID : Bytes} {client : Option HttpClient}
    {metadataReplies jwksReplies : List Reply} {now : Time} {asked : Bytes}
    (mem : asked ∈ (discover P D hasContext issuer clientID client metadataReplies jwksReplies
      now).2) :
    validIssuer P issuer = true ∧
      (asked = issuer ++ wellKnown ∨ sameOriginEndpoint P issuer asked = true) := by
  unfold discover at mem
  split at mem
  · cases mem
  · rename_i accepted
    rw [not_or, not_or] at accepted
    refine ⟨Bool.eq_true_of_not_eq_false accepted.2.1, ?_⟩
    simp only at mem
    split at mem
    · exact Or.inl (fetchJSON_asked rfl mem)
    · rename_i found _
      split at mem
      · exact Or.inl (fetchJSON_asked rfl mem)
      · rename_i vetted
        have origin : sameOriginEndpoint P issuer found.jwksURI = true := by
          have all := of_decide_eq_true (Bool.eq_true_of_not_eq_false vetted)
          exact all.2.2.2.1
        have both : asked ∈ (fetchJSON P (copyClient client) (issuer ++ wellKnown)
            maxMetadataBytes metadataReplies).2 ++
            (fetchJSON P (copyClient client) found.jwksURI maxJWKSBytes jwksReplies).2 := by
          split at mem
          · exact mem
          · exact mem
        rcases List.mem_append.mp both with first | second
        · exact Or.inl (fetchJSON_asked rfl first)
        · rw [fetchJSON_asked rfl second]
          exact Or.inr origin

/-- A discovery that succeeds, from what each of its parts returns. -/
theorem discover_ok {issuer clientID : Bytes} {client : Option HttpClient}
    {metadataReplies jwksReplies : List Reply} {contents keyContents jwks : Bytes}
    {asked asked' : List Bytes} {found : Metadata} {verifier : Verifier}
    (valid : validIssuer P issuer = true) (named : clientID ≠ [])
    (document : fetchJSON P (copyClient client) (issuer ++ wellKnown) maxMetadataBytes
      metadataReplies = (some contents, asked))
    (decoded : D.metadata contents = some found) (vetted : metadataAccepted P issuer found = true)
    (keys : fetchJSON P (copyClient client) found.jwksURI maxJWKSBytes jwksReplies =
      (some keyContents, asked'))
    (raw : D.raw keyContents = some jwks) (made : newVerifier P issuer clientID jwks = .ok verifier)
    (now : Time) :
    discover P D true issuer clientID client metadataReplies jwksReplies now =
      (.ok ⟨found.authorizationEndpoint, found.tokenEndpoint, found.introspectionEndpoint,
        some verifier, now.add hour⟩, asked ++ asked') := by
  simp only [discover, valid, named, document, Option.bind_some, decoded, vetted, keys, raw,
    configured, made, Bool.true_eq_false, or_self, if_false]

/-- The verifier of a discovered configuration was made for the issuer. -/
theorem discover_verifier {hasContext : Bool} {issuer clientID : Bytes} {client : Option HttpClient}
    {metadataReplies jwksReplies : List Reply} {now : Time} {c : Configuration}
    (discovered : (discover P D hasContext issuer clientID client metadataReplies jwksReplies
      now).1 = .ok c) :
    ∃ jwks verifier, newVerifier P issuer clientID jwks = .ok verifier ∧
      c.verifier = some verifier := by
  unfold discover at discovered
  split at discovered
  · cases discovered
  · simp only at discovered
    split at discovered
    · cases discovered
    · split at discovered
      · cases discovered
      · split at discovered
        · cases discovered
        · rename_i jwks _
          simp only [configured] at discovered
          split at discovered
          · cases discovered
          · rename_i verifier made
            cases discovered
            exact ⟨jwks, verifier, made, rfl⟩

theorem newTokenIntrospector_ok {configuration : Option Configuration} {clientID secret : Bytes}
    {client : Option HttpClient} {i : TokenIntrospector}
    (made : newTokenIntrospector P configuration clientID secret client = .ok i) :
    ∃ c verifier, configuration = some c ∧ c.verifier = some verifier ∧
      sameOriginEndpoint P verifier.issuer i.endpoint = true ∧
      i.client.checkRedirect = .useLastResponse := by
  unfold newTokenIntrospector at made
  split at made
  · cases made
  · rename_i c
    split at made
    · cases made
    · rename_i verifier set
      split at made
      · cases made
      · rename_i accepted
        cases made
        simp only [not_or] at accepted
        exact ⟨c, verifier, rfl, set, Bool.eq_true_of_not_eq_false accepted.2.2.2, rfl⟩

end Asked

end ProviderRequests
