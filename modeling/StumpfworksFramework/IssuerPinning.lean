import StumpfworksFramework.FormEncoding
import StumpfworksFramework.ProviderRequests
import StumpfworksFramework.Runs
import StumpfworksFramework.SealedLogins

/-!
# Requests stay with the issuer

An application discovers configurations, makes some of its own, alters their
exported fields whenever it likes, and builds login clients and introspectors
from them. It can only put verifiers into them that `NewVerifier` made, since the
fields of a verifier are not exported. Whoever answers the requests may answer
anything.

A login client may send a token request at any time here, for any transaction
and callback; when `complete` really does so is the subject of `LoginExchange`.
-/

namespace IssuerPinning

open ByteStrings Instants OidcClients OidcTransactions LoginExchange ProviderRequests Runs
open SealedLogins (sampleNow)
open UrlReferences (Url)

/-- A login client with the HTTP client it sends through. -/
structure Session where
  login : LoginClient
  http : HttpClient

/-- An address that was asked on behalf of an issuer. -/
structure Sent where
  issuer : Bytes
  address : Bytes
  deriving DecidableEq, Repr

/-- An authorization address that `Begin` returned for an issuer. -/
structure Opened where
  issuer : Bytes
  text : Option Bytes
  deriving DecidableEq, Repr

structure State where
  configurations : List Configuration
  sessions : List Session
  /-- each with the issuer of the verifier it was built with -/
  introspectors : List (Bytes × TokenIntrospector)
  sent : List Sent
  opened : List Opened

def start : State := ⟨[], [], [], [], []⟩

/-- `alter` replaces every field, also the one that is not exported. -/
inductive Action where
  | discover (hasContext : Bool) (issuer clientID : Bytes) (client : Option HttpClient)
    (metadataReplies jwksReplies : List Reply) (now : Time)
  | allocate (c : Configuration)
  | alter (i : Nat) (c : Configuration)
  | newLoginClient (i : Nat) (clientID secret redirectURI : Bytes) (client : Option HttpClient)
  | newTokenIntrospector (i : Nat) (clientID secret : Bytes) (client : Option HttpClient)
  | begin (j : Nat) (staleReading createdReading : Time) (draws : Draws)
  | complete (j : Nat) (t : Transaction) (callback : Values) (replies : List Reply)
  | introspect (k : Nat) (hasContext : Bool) (token : Bytes) (replies : List Reply) (now : Time)

section Model

variable (P : Platform) (D : Decoders)

/-- The addresses asked by the request of `complete`. -/
def Session.exchange (session : Session) (t : Transaction) (callback : Values)
    (replies : List Reply) : List Bytes :=
  match P.parseUrl (tokenRequest session.login t callback).endpoint with
  | none => []
  | some _ => (session.http.send replies (tokenRequest session.login t callback).endpoint).2

def State.log (s : State) (issuer : Bytes) (asked : List Bytes) : State :=
  { s with sent := s.sent ++ asked.map (Sent.mk issuer) }

def stepState (s : State) : Action → State
  | .discover hasContext issuer clientID client metadataReplies jwksReplies now =>
    let (result, asked) :=
      discover P D hasContext issuer clientID client metadataReplies jwksReplies now
    match result with
    | .error _ => s.log issuer asked
    | .ok c => { s.log issuer asked with configurations := s.configurations ++ [c] }
  | .allocate c => { s with configurations := s.configurations ++ [c] }
  | .alter i c => { s with configurations := s.configurations.set i c }
  | .newLoginClient i clientID secret redirectURI client =>
    match newLoginClient P s.configurations[i]? clientID secret redirectURI with
    | .error _ => s
    | .ok login => { s with sessions := s.sessions ++ [⟨login, copyClient client⟩] }
  | .newTokenIntrospector i clientID secret client =>
    match newTokenIntrospector P s.configurations[i]? clientID secret client,
        s.configurations[i]?.bind Configuration.verifier with
    | .ok introspector, some verifier =>
      { s with introspectors := s.introspectors ++ [(verifier.issuer, introspector)] }
    | _, _ => s
  | .begin j staleReading createdReading draws =>
    match s.sessions[j]? with
    | none => s
    | some session =>
      match LoginClient.begin P j session.login staleReading createdReading draws with
      | .error _ => s
      | .ok (u, _) =>
        { s with opened := s.opened ++ [⟨session.login.verifier.issuer, u.render P⟩] }
  | .complete j t callback replies =>
    match s.sessions[j]? with
    | none => s
    | some session =>
      s.log session.login.verifier.issuer (session.exchange P t callback replies)
  | .introspect k hasContext token replies now =>
    match s.introspectors[k]? with
    | none => s
    | some (issuer, introspector) =>
      s.log issuer (introspect P D introspector hasContext token replies now).2

def step (s : State) (a : Action) : State × Unit := (stepState P D s a, ())

/-- A verifier that `NewVerifier` made. -/
def Made (v : Verifier) : Prop := ∃ issuer clientID jwks, newVerifier P issuer clientID jwks = .ok v

/-- Configurations from outside the package have verifiers from `NewVerifier`, if any. -/
def Legal (_ : State) : Action → Prop
  | .allocate c => ∀ v ∈ c.verifier, Made P v
  | .alter _ c => ∀ v ∈ c.verifier, Made P v
  | _ => True

/-! ## What is promised of an address -/

/-- Scheme https, the issuer's host, no user, no query, and a path. -/
def AtIssuer (issuer address : Bytes) : Prop :=
  ∃ base u, P.parseUrl issuer = some base ∧ P.parseUrl address = some u ∧
    u.scheme = ascii "https" ∧ u.host = base.host ∧ u.hasUser = false ∧ u.rawQuery = [] ∧
    u.forceQuery = false ∧ u.path ≠ []

def Sent.Pinned (m : Sent) : Prop :=
  validIssuer P m.issuer = true ∧
    (AtIssuer P m.issuer m.address ∨ m.address = m.issuer ++ wellKnown)

/-- The address that was handed out has the scheme https and the issuer's host. -/
def Opened.Pinned (o : Opened) : Prop :=
  validIssuer P o.issuer = true ∧ ∃ text base u, o.text = some text ∧
    P.parseUrl o.issuer = some base ∧ P.parseUrl text = some u ∧
    u.scheme = ascii "https" ∧ u.host = base.host

/-- `URL.String` keeps scheme and host when a query is put on a vetted endpoint. -/
def KeepsOrigin : Prop :=
  ∀ issuer endpoint u query, sameOriginEndpoint P issuer endpoint = true →
    P.parseUrl endpoint = some u →
    ∃ v, P.parseUrl (P.renderUrl { u with rawQuery := P.encodeQuery query }) = some v ∧
      v.scheme = u.scheme ∧ v.host = u.host

end Model

section Proofs

variable {P : Platform} {D : Decoders} {s : State}

theorem Made.issuer {v : Verifier} (made : Made P v) : validIssuer P v.issuer = true := by
  obtain ⟨issuer, clientID, jwks, ok⟩ := made
  obtain ⟨rfl, _, valid, _⟩ := newVerifier_ok ok
  exact valid

theorem sameOrigin_parts {issuer endpoint : Bytes}
    (origin : sameOriginEndpoint P issuer endpoint = true) :
    ∃ base u, P.parseUrl issuer = some base ∧ P.parseUrl endpoint = some u ∧
      u.scheme = ascii "https" ∧ u.host = base.host ∧ u.hasUser = false ∧ u.path ≠ [] ∧
      u.rawQuery = [] ∧ u.forceQuery = false := by
  unfold sameOriginEndpoint at origin
  split at origin
  · rename_i base u parsed parsed'
    obtain ⟨scheme, host, user, path, query, force, _⟩ := of_decide_eq_true origin
    exact ⟨base, u, parsed, parsed', scheme, host, user, path, query, force⟩
  · cases origin

theorem atIssuer_of_sameOrigin {issuer endpoint : Bytes}
    (origin : sameOriginEndpoint P issuer endpoint = true) : AtIssuer P issuer endpoint := by
  obtain ⟨base, u, parsed, parsed', scheme, host, user, path, query, force⟩ :=
    sameOrigin_parts origin
  exact ⟨base, u, parsed, parsed', scheme, host, user, query, force, path⟩

theorem stepState_discovered {hasContext : Bool} {issuer clientID : Bytes}
    {client : Option HttpClient} {metadataReplies jwksReplies : List Reply} {now : Time}
    {c : Configuration} {asked : List Bytes}
    (discovered : discover P D hasContext issuer clientID client metadataReplies jwksReplies now =
      (.ok c, asked)) :
    stepState P D s (.discover hasContext issuer clientID client metadataReplies jwksReplies now) =
      { s.log issuer asked with configurations := s.configurations ++ [c] } := by
  simp only [stepState, discovered]

structure Session.Vetted (P : Platform) (session : Session) : Prop where
  issuer : validIssuer P session.login.verifier.issuer = true
  authorization : sameOriginEndpoint P session.login.verifier.issuer
    session.login.configuration.authorizationEndpoint = true
  token : sameOriginEndpoint P session.login.verifier.issuer
    session.login.configuration.tokenEndpoint = true
  last : session.http.checkRedirect = .useLastResponse

structure Inv (P : Platform) (s : State) : Prop where
  made : ∀ c ∈ s.configurations, ∀ v ∈ c.verifier, Made P v
  sessions : ∀ session ∈ s.sessions, session.Vetted P
  introspectors : ∀ k ∈ s.introspectors, validIssuer P k.1 = true ∧
    sameOriginEndpoint P k.1 k.2.endpoint = true ∧ k.2.client.checkRedirect = .useLastResponse
  sent : ∀ m ∈ s.sent, m.Pinned P
  opened : ∀ o ∈ s.opened, o.Pinned P

theorem Inv.log (inv : Inv P s) {issuer : Bytes} {asked : List Bytes}
    (pinned : ∀ address ∈ asked, Sent.Pinned P ⟨issuer, address⟩) : Inv P (s.log issuer asked) := by
  refine { inv with sent := ?_ }
  intro m mem
  rcases List.mem_append.mp mem with old | new
  · exact inv.sent m old
  · obtain ⟨address, here, rfl⟩ := List.mem_map.mp new
    exact pinned address here

theorem Inv.configured (inv : Inv P s) {c : Configuration} (made : ∀ v ∈ c.verifier, Made P v) :
    Inv P { s with configurations := s.configurations ++ [c] } := by
  refine { inv with made := ?_ }
  exact forall_mem_concat inv.made made

theorem Session.Vetted.exchange {session : Session} (vetted : session.Vetted P) {t : Transaction}
    {callback : Values} {replies : List Reply} {address : Bytes}
    (mem : address ∈ session.exchange P t callback replies) :
    Sent.Pinned P ⟨session.login.verifier.issuer, address⟩ := by
  unfold Session.exchange at mem
  split at mem
  · cases mem
  · rw [send_asked vetted.last] at mem
    rw [List.mem_singleton.mp mem]
    exact ⟨vetted.issuer, Or.inl (atIssuer_of_sameOrigin vetted.token)⟩

theorem Session.Vetted.begin (keeps : KeepsOrigin P) {session : Session}
    (vetted : session.Vetted P) {ref : ClientRef} {staleReading createdReading : Time}
    {draws : Draws} {u : AuthorizationURL} {t : Transaction}
    (began : LoginClient.begin P ref session.login staleReading createdReading draws = .ok (u, t)) :
    Opened.Pinned P ⟨session.login.verifier.issuer, u.render P⟩ := by
  obtain ⟨_, _, _, _, _, _, address⟩ := LoginClient.begin_ok began
  obtain ⟨base, endpoint, parsed, parsed', scheme, host, _⟩ := sameOrigin_parts vetted.authorization
  obtain ⟨v, again, sameScheme, sameHost⟩ := keeps _ _ endpoint u.query vetted.authorization parsed'
  have text : u.render P =
      some (P.renderUrl { endpoint with rawQuery := P.encodeQuery u.query }) := by
    have here : u.endpoint = session.login.configuration.authorizationEndpoint := by rw [address]
    rw [AuthorizationURL.render, here, parsed']
    rfl
  exact ⟨vetted.issuer, _, base, v, text, parsed, again, sameScheme.trans scheme,
    sameHost.trans host⟩

/-- Every step keeps what is known; only the application's own configurations need an
assumption. -/
theorem Inv.step (keeps : KeepsOrigin P) (inv : Inv P s) {a : Action} (legal : Legal P s a) :
    Inv P (stepState P D s a) := by
  cases a with
  | discover hasContext issuer clientID client metadataReplies jwksReplies now =>
    have logged : Inv P (s.log issuer
        (discover P D hasContext issuer clientID client metadataReplies jwksReplies now).2) := by
      refine inv.log fun address mem => ?_
      obtain ⟨valid, own | origin⟩ := discover_asked mem
      · exact ⟨valid, Or.inr own⟩
      · exact ⟨valid, Or.inl (atIssuer_of_sameOrigin origin)⟩
    simp only [stepState]
    split
    · exact logged
    · rename_i c discovered
      obtain ⟨jwks, verifier, made, set⟩ := discover_verifier discovered
      refine logged.configured fun v mem => ?_
      rw [set] at mem
      cases mem
      exact ⟨issuer, clientID, jwks, made⟩
  | allocate c => exact inv.configured legal
  | alter i c =>
    refine { inv with made := ?_ }
    intro c' mem
    rcases List.mem_or_eq_of_mem_set mem with old | rfl
    · exact inv.made c' old
    · exact legal
  | newLoginClient i clientID secret redirectURI client =>
    simp only [stepState]
    split
    · exact inv
    · rename_i login made
      obtain ⟨_, _, _, _, issuer, _, authorization, token⟩ := newLoginClient_ok made
      refine { inv with sessions := ?_ }
      exact forall_mem_concat inv.sessions ⟨issuer, authorization, token, rfl⟩
  | newTokenIntrospector i clientID secret client =>
    simp only [stepState]
    split
    · rename_i introspector verifier made found
      obtain ⟨c, verifier', here, set, origin, last⟩ := newTokenIntrospector_ok made
      rw [here, Option.bind_some, set] at found
      cases found
      have issuer := (inv.made c (List.mem_of_getElem? here) _ set).issuer
      refine { inv with introspectors := ?_ }
      exact forall_mem_concat inv.introspectors ⟨issuer, origin, last⟩
    · exact inv
  | begin j staleReading createdReading draws =>
    simp only [stepState]
    split
    · exact inv
    · rename_i session found
      split
      · exact inv
      · rename_i u t began
        have vetted := inv.sessions session (List.mem_of_getElem? found)
        refine { inv with opened := ?_ }
        exact forall_mem_concat inv.opened (vetted.begin keeps began)
  | complete j t callback replies =>
    simp only [stepState]
    split
    · exact inv
    · rename_i session found
      exact inv.log fun address mem =>
        (inv.sessions session (List.mem_of_getElem? found)).exchange mem
  | introspect k hasContext token replies now =>
    simp only [stepState]
    split
    · exact inv
    · rename_i issuer introspector found
      obtain ⟨valid, origin, last⟩ := inv.introspectors _ (List.mem_of_getElem? found)
      refine inv.log fun address mem => ?_
      rw [introspect_asked last mem]
      exact ⟨valid, Or.inl (atIssuer_of_sameOrigin origin)⟩

end Proofs

/-- In every run, whatever is answered and however configurations are altered, each address asked
lies with the issuer it was asked for, and each authorization address leads there. -/
theorem requests_pinned (P : Platform) (D : Decoders) (keeps : KeepsOrigin P)
    {h : List (Action × Unit)} {s : State} (run : Run (step P D) (Legal P) start h s) :
    (∀ m ∈ s.sent, m.Pinned P) ∧ ∀ o ∈ s.opened, o.Pinned P := by
  have fresh : Inv P start := by
    constructor <;> (intro _ mem; cases mem)
  have inv : Inv P s := by
    refine Run.invariant (P := fun _ s => Inv P s) fresh ?_ run
    intro _ _ _ _ inv legal
    exact inv.step keeps legal
  exact ⟨inv.sent, inv.opened⟩

/-! ## A provider that redirects

URLs as `net/url` reads them when they have the scheme https, no user and no
escapes, and queries as it writes them. -/

/-- A byte of the host: it ends before a path, a query or a fragment. -/
def hostByte (b : UInt8) : Bool := b ≠ 47 ∧ b ≠ 63 ∧ b ≠ 35

def plainParse (text : Bytes) : Option Url :=
  if text.take 8 = ascii "https://" then
    let rest := text.drop 8
    let tail := rest.dropWhile hostByte
    let body := tail.takeWhile (· ≠ 35)
    let query := body.dropWhile (· ≠ 63)
    some ⟨ascii "https", [], (rest.takeWhile hostByte).contains 64, rest.takeWhile hostByte,
      body.takeWhile (· ≠ 63), query = [63], query.drop 1, (tail.dropWhile (· ≠ 35)).drop 1⟩
  else none

def plainRender (u : Url) : Bytes :=
  u.scheme ++ ascii "://" ++ u.host ++ u.path ++
    (if u.forceQuery = true ∨ u.rawQuery ≠ [] then 63 :: u.rawQuery else []) ++
    if u.fragment = [] then [] else 35 :: u.fragment

/-- The names that `Begin` sets, sorted. -/
def queryNames : List Bytes := ["client_id", "code_challenge", "code_challenge_method", "nonce",
  "redirect_uri", "response_type", "scope", "state"].map ascii

def plainQuery (query : Values) : Bytes :=
  [38].intercalate (queryNames.flatMap fun name =>
    (query name).map fun value => FormEncoding.escape name ++ [61] ++ FormEncoding.escape value)

def plainPlatform : Platform :=
  { SealedLogins.samplePlatform with
    parseUrl := plainParse
    renderUrl := plainRender
    encodeQuery := plainQuery }

theorem plainParse_https (rest : Bytes) :
    ∃ v, plainParse (ascii "https://" ++ rest) = some v ∧ v.scheme = ascii "https" ∧
      v.host = rest.takeWhile hostByte := by
  have width : (ascii "https://").length = 8 := by decide
  have front : (ascii "https://" ++ rest).take 8 = ascii "https://" := by
    rw [← width, List.take_left]
  have back : (ascii "https://" ++ rest).drop 8 = rest := by
    rw [← width, List.drop_left]
  refine ⟨_, if_pos front, rfl, ?_⟩
  rw [back]

/-- The path begins where the host has ended. -/
theorem path_head {tail : Bytes} {b : UInt8} {rest : Bytes}
    (path : (tail.takeWhile (· ≠ 35)).takeWhile (· ≠ 63) = b :: rest) : tail.head? = some b := by
  have whole := List.takeWhile_append_dropWhile (p := fun b : UInt8 => decide (b ≠ 35)) (l := tail)
  have body := List.takeWhile_append_dropWhile (p := fun b : UInt8 => decide (b ≠ 63))
    (l := tail.takeWhile fun b => decide (b ≠ 35))
  rw [path] at body
  rw [← body] at whole
  rw [← whole]
  rfl

theorem plainParse_parts {text : Bytes} {u : Url} (parsed : plainParse text = some u) :
    u.scheme = ascii "https" ∧ (∀ b ∈ u.host, hostByte b = true) ∧
      ∀ b rest, u.path = b :: rest → hostByte b = false := by
  unfold plainParse at parsed
  split at parsed
  · cases parsed
    refine ⟨rfl, ?_, ?_⟩
    · intro b mem
      exact List.all_eq_true.mp (List.all_takeWhile) b mem
    · intro b rest path
      have head := List.head?_dropWhile_not hostByte (text.drop 8)
      rw [path_head path] at head
      simpa using head
  · cases parsed

theorem plainPlatform_keepsOrigin : KeepsOrigin plainPlatform := by
  intro issuer endpoint u query origin parsed
  obtain ⟨scheme, host, path⟩ := plainParse_parts parsed
  obtain ⟨_, u', _, parsed', _, _, _, nonempty, _⟩ := sameOrigin_parts origin
  cases parsed.symm.trans parsed'
  obtain ⟨first, rest, split⟩ := List.exists_cons_of_ne_nil nonempty
  have text : ∃ more, plainRender { u with rawQuery := plainQuery query } =
      ascii "https://" ++ (u.host ++ first :: more) := by
    have slashes : ascii "https://" = ascii "https" ++ ascii "://" := by decide
    refine ⟨rest ++ ((if u.forceQuery = true ∨ plainQuery query ≠ [] then
      63 :: plainQuery query else []) ++ if u.fragment = [] then [] else 35 :: u.fragment), ?_⟩
    simp only [plainRender, scheme, split, slashes, List.append_assoc, List.cons_append]
  obtain ⟨more, text⟩ := text
  obtain ⟨v, again, sameScheme, sameHost⟩ := plainParse_https (u.host ++ first :: more)
  refine ⟨v, ?_, sameScheme.trans scheme.symm, ?_⟩
  · rw [← text] at again
    exact again
  · rw [sameHost, List.takeWhile_append_of_pos host, List.takeWhile_cons_of_neg, List.append_nil]
    simp [path first rest split]

def sampleIssuer : Bytes := ascii "https://id.example"

def sampleMetadata : Metadata where
  issuer := sampleIssuer
  authorizationEndpoint := sampleIssuer ++ ascii "/authorize"
  tokenEndpoint := sampleIssuer ++ ascii "/token"
  introspectionEndpoint := sampleIssuer ++ ascii "/introspect"
  jwksURI := sampleIssuer ++ ascii "/keys"
  responseTypesSupported := [ascii "code"]
  codeChallengeMethodsSupported := [ascii "S256"]
  idTokenSigningAlgValuesSupported := [ascii "RS256"]

def sampleDocument : Bytes := List.flatten [
  ascii "\x7b\"issuer\":\"https://id.example\",",
  ascii "\"authorization_endpoint\":\"https://id.example/authorize\",",
  ascii "\"token_endpoint\":\"https://id.example/token\",",
  ascii "\"introspection_endpoint\":\"https://id.example/introspect\",",
  ascii "\"jwks_uri\":\"https://id.example/keys\",\"response_types_supported\":[\"code\"],",
  ascii "\"code_challenge_methods_supported\":[\"S256\"],",
  ascii "\"id_token_signing_alg_values_supported\":[\"RS256\"]\x7d"]

/-- JSON decoding at the two documents that are answered. -/
def sampleDecoders : Decoders where
  metadata := fun contents => if contents = sampleDocument then some sampleMetadata else none
  raw := fun contents => if contents = SealedLogins.sampleJwks then some contents else none
  introspection := fun _ => none

def sampleConfiguration (now : Time) : Configuration :=
  ⟨sampleIssuer ++ ascii "/authorize", sampleIssuer ++ ascii "/token",
    sampleIssuer ++ ascii "/introspect", some SealedLogins.sampleVerifier, now.add hour⟩

def sampleSession (now : Time) : LoginClient where
  configuration := sampleConfiguration now
  verifier := SealedLogins.sampleVerifier
  verifier_eq := rfl
  clientID := ascii "app"
  secret := [1]
  redirectURI := ascii "https://app.example/cb"

theorem sample_verifier : newVerifier plainPlatform sampleIssuer (ascii "app")
    SealedLogins.sampleJwks = .ok SealedLogins.sampleVerifier := by
  decide +kernel

theorem sample_issuer : validIssuer plainPlatform sampleIssuer = true := by decide +kernel

theorem sample_endpoints :
    ∀ path ∈ [ascii "/authorize", ascii "/token", ascii "/introspect", ascii "/keys"],
      sameOriginEndpoint plainPlatform sampleIssuer (sampleIssuer ++ path) = true := by
  decide +kernel

theorem sample_discovered (now : Time) :
    discover plainPlatform sampleDecoders true sampleIssuer (ascii "app") none
      [.received 200 none (some sampleDocument)]
      [.received 200 none (some SealedLogins.sampleJwks)] now =
    (.ok (sampleConfiguration now),
      [sampleIssuer ++ wellKnown, sampleIssuer ++ ascii "/keys"]) := by
  have documentShort : sampleDocument.length ≤ maxMetadataBytes := by
    rw [sampleDocument]
    repeat rw [ascii_ofList]
    decide +kernel
  have keysShort : SealedLogins.sampleJwks.length ≤ maxJWKSBytes := by decide +kernel
  have documentAddress : (plainPlatform.parseUrl (sampleIssuer ++ wellKnown)).isSome = true := by
    decide +kernel
  have keysAddress : (plainPlatform.parseUrl (sampleIssuer ++ ascii "/keys")).isSome = true := by
    decide +kernel
  have document := fetchJSON_ok (copyClient_checkRedirect none) documentAddress documentShort []
  have keys := fetchJSON_ok (copyClient_checkRedirect none) keysAddress keysShort []
  have found : sampleDecoders.metadata sampleDocument = some sampleMetadata := by
    simp only [sampleDecoders, if_true]
  have raw : sampleDecoders.raw SealedLogins.sampleJwks = some SealedLogins.sampleJwks := by
    simp only [sampleDecoders, if_true]
  have vetted : metadataAccepted plainPlatform sampleIssuer sampleMetadata = true := by
    simp [metadataAccepted, sampleMetadata, sample_endpoints]
  exact discover_ok sample_issuer (by decide) document found vetted keys raw sample_verifier now

theorem sample_client (now : Time) :
    newLoginClient plainPlatform (some (sampleConfiguration now)) (ascii "app") [1]
      (ascii "https://app.example/cb") = .ok (sampleSession now) := by
  have issuer : SealedLogins.sampleVerifier.issuer = sampleIssuer := rfl
  have redirect : validRedirect plainPlatform (ascii "https://app.example/cb") = true := by
    decide +kernel
  have clientID : ascii "app" ≠ [] ∧ SealedLogins.sampleVerifier.clientID = ascii "app" := by
    decide +kernel
  simp [newLoginClient, sampleConfiguration, sampleSession, issuer, sample_issuer,
    sample_endpoints, redirect, clientID]

def elsewhere : Bytes := ascii "https://evil.example/"

/-- The configuration after the application has pointed it elsewhere. -/
def alteredConfiguration : Configuration :=
  ⟨elsewhere, elsewhere, elsewhere, some SealedLogins.sampleVerifier, ⟨0⟩⟩

def redirectedDraws : Draws :=
  let draw : Option Draw := some ⟨List.replicate 32 2, rfl⟩
  ⟨draw, draw, draw⟩

def redirectedActions : List Action := [
  .discover true sampleIssuer (ascii "app") none [.received 200 none (some sampleDocument)]
    [.received 200 none (some SealedLogins.sampleJwks)] sampleNow,
  .newLoginClient 0 (ascii "app") [1] (ascii "https://app.example/cb") (some defaultClient),
  .newTokenIntrospector 0 (ascii "app") [1] none,
  .alter 0 alteredConfiguration,
  .newLoginClient 0 (ascii "app") [1] (ascii "https://app.example/cb") none,
  .begin 0 sampleNow sampleNow redirectedDraws,
  .complete 0 SealedLogins.sampleLogin (fun _ => [[1]]) [.received 307 (some elsewhere) none],
  .introspect 0 true [1] [.received 307 (some elsewhere) none] sampleNow]

theorem redirected_legal : LegalPlay (step plainPlatform sampleDecoders) (Legal plainPlatform)
    start redirectedActions := by
  refine legalPlay_of_forall ?_ _
  simp only [redirectedActions, List.forall_mem_cons, Legal, List.not_mem_nil, false_imp_iff,
    implies_true, and_true, true_and]
  intro _ v set
  cases set
  exact ⟨_, _, _, sample_verifier⟩

theorem sample_introspector :
    newTokenIntrospector plainPlatform (some (sampleConfiguration sampleNow)) (ascii "app") [1]
      none =
      .ok ⟨sampleIssuer ++ ascii "/introspect", ascii "app", [1], copyClient none⟩ := by
  decide +kernel

theorem altered_refused :
    newLoginClient plainPlatform (some alteredConfiguration) (ascii "app") [1]
      (ascii "https://app.example/cb") = .error (.other "invalid OIDC client configuration") := by
  decide +kernel

theorem sample_exchange (http : Option HttpClient) (t : Transaction) (callback : Values)
    (replies : List Reply) :
    Session.exchange plainPlatform ⟨sampleSession sampleNow, copyClient http⟩ t callback replies =
      [sampleIssuer ++ ascii "/token"] := by
  obtain ⟨u, parsed⟩ : ∃ u, plainPlatform.parseUrl (sampleIssuer ++ ascii "/token") = some u :=
    Option.isSome_iff_exists.mp (by decide +kernel)
  have endpoint : (tokenRequest (sampleSession sampleNow) t callback).endpoint =
      sampleIssuer ++ ascii "/token" := rfl
  simp only [Session.exchange, endpoint, parsed]
  exact send_asked rfl replies _

theorem redirected_final :
    ∃ opened, (play (step plainPlatform sampleDecoders) start redirectedActions).2 =
      ⟨[alteredConfiguration], [⟨sampleSession sampleNow, copyClient none⟩],
        [(sampleIssuer, ⟨sampleIssuer ++ ascii "/introspect", ascii "app", [1], copyClient none⟩)],
        [sampleIssuer ++ wellKnown, sampleIssuer ++ ascii "/keys", sampleIssuer ++ ascii "/token",
          sampleIssuer ++ ascii "/introspect"].map (Sent.mk sampleIssuer), [opened]⟩ := by
  obtain ⟨u, t, began⟩ : ∃ u t, LoginClient.begin plainPlatform 0 (sampleSession sampleNow)
      sampleNow sampleNow redirectedDraws = .ok (u, t) := ⟨_, _, rfl⟩
  have asked : (introspect plainPlatform sampleDecoders
      ⟨sampleIssuer ++ ascii "/introspect", ascii "app", [1], copyClient none⟩ true [1]
      [.received 307 (some elsewhere) none] sampleNow).2 =
        [sampleIssuer ++ ascii "/introspect"] := by
    decide +kernel
  have verifier : (sampleConfiguration sampleNow).verifier = some SealedLogins.sampleVerifier := rfl
  have issuer : SealedLogins.sampleVerifier.issuer = sampleIssuer := rfl
  have own : (sampleSession sampleNow).verifier.issuer = sampleIssuer := rfl
  simp only [redirectedActions, play, step]
  rw [stepState_discovered (sample_discovered sampleNow)]
  simp only [stepState, start, State.log, List.nil_append, List.getElem?_cons_zero, sample_client,
    sample_introspector, Option.bind_some, verifier, issuer, own, List.set_cons_zero,
    altered_refused, began, sample_exchange, asked, List.map_cons, List.map_nil, List.cons_append]
  exact ⟨_, rfl⟩

/-- A provider that redirects the token request and the introspection elsewhere, and an
application that points its configuration there: only the issuer is asked. -/
theorem requests_pinned_redirected :
    let final := (play (step plainPlatform sampleDecoders) start redirectedActions).2
    final.sent.map Sent.address = [sampleIssuer ++ wellKnown, sampleIssuer ++ ascii "/keys",
      sampleIssuer ++ ascii "/token", sampleIssuer ++ ascii "/introspect"] ∧
    final.opened.length = 1 ∧
    (∀ m ∈ final.sent, m.Pinned plainPlatform) ∧ ∀ o ∈ final.opened, o.Pinned plainPlatform := by
  intro final
  obtain ⟨opened, reached⟩ := redirected_final
  refine ⟨?_, ?_, ?_⟩
  · simp only [final, reached, List.map_cons, List.map_nil]
  · simp only [final, reached, List.length_singleton]
  · exact requests_pinned plainPlatform sampleDecoders plainPlatform_keepsOrigin
      (Run.of_play redirected_legal)

end IssuerPinning
