import StumpfworksFramework.FormEncoding
import StumpfworksFramework.LoginBinding
import StumpfworksFramework.TokenLifetime

/-!
# Logins at an honest provider

The other side of a login: a provider that follows OAuth 2.0 and OpenID Connect
at its authorization and token endpoints. It reads the query that the browser
carries and the form that the client sends, wants every parameter once, and
compares what belongs together. The user name and the password of the basic
authorization are read as RFC 6749 asks, each as a form component.

Both sides use one library for queries and one hash. How a provider writes its
ID token and its response is left open; `Issued` says what the client's library
reads in them.
-/

namespace HonestLogins

open ByteStrings Base64Url Instants UrlReferences FormEncoding OidcClients OidcTransactions
open LoginExchange TokenLifetime
open SealedLogins (sampleNow)

/-- Values under finitely many names. -/
def Finite (v : Values) : Prop := ∃ names : List Bytes, ∀ name ∉ names, v name = []

/-- The number of parameters that `net/url` reads. -/
def maxParameters : Nat := 10000

/-- `net/url` on queries: it reads them like a form, if they are not too many, and what it writes
is a form with the values. -/
structure Conforms (P : Platform) : Prop where
  parse : ∀ text, (text.splitOn 38).length ≤ maxParameters →
    P.parseQuery text = valuesOf (parse text)
  encode : ∀ v, Finite v → valuesOf (FormEncoding.parse (P.encodeQuery v)) = v

/-! ## The provider -/

structure Registration where
  clientID : Bytes
  secret : Bytes
  redirectURI : Bytes
  deriving DecidableEq, Repr

/-- What the provider keeps with a code. -/
structure Grant where
  code : Bytes
  redirectURI : Bytes
  challenge : Bytes
  nonce : Bytes
  deriving DecidableEq, Repr

/-- A parameter that is given once. -/
def once (v : Values) (name : String) : Option Bytes :=
  match v (ascii name) with
  | [value] => some value
  | _ => none

/-- The authorization endpoint: the grant, and the query that the browser takes back. -/
def authorize (r : Registration) (code query : Bytes) : Option (Grant × Bytes) :=
  let v : Values := valuesOf (parse query)
  if once v "response_type" = some (ascii "code") ∧ once v "client_id" = some r.clientID ∧
      once v "redirect_uri" = some r.redirectURI ∧ once v "scope" = some (ascii "openid") ∧
      once v "code_challenge_method" = some (ascii "S256") then
    match once v "state", once v "nonce", once v "code_challenge" with
    | some state, some nonce, some challenge =>
      some (⟨code, r.redirectURI, challenge, nonce⟩,
        encode [(ascii "code", code), (ascii "state", state)])
    | _, _, _ => none
  else none

/-- The text of a basic authorization. -/
def credentials (request : TokenRequest) : Bytes := request.username ++ 58 :: request.password

def readCredentials (text : Bytes) : Option (Bytes × Bytes) :=
  match cut 58 text with
  | (username, some password) =>
    match unescapeComponent username, unescapeComponent password with
    | some username, some password => some (username, password)
    | _, _ => none
  | (_, none) => none

/-- The token endpoint honours a code. -/
def redeems (P : Platform) (r : Registration) (grant : Grant) (request : TokenRequest) : Bool :=
  let v : Values := valuesOf (parse (P.encodeQuery request.form))
  readCredentials (credentials request) = some (r.clientID, r.secret) ∧
    once v "grant_type" = some (ascii "authorization_code") ∧ once v "code" = some grant.code ∧
    once v "redirect_uri" = some grant.redirectURI ∧
    (once v "code_verifier").map (fun verifier => encodeToString (P.sha256 verifier)) =
      some grant.challenge

def respond (P : Platform) (r : Registration) (grant : Grant) (body : Bytes)
    (request : TokenRequest) : TokenResponse :=
  if redeems P r grant request = true then .received 200 (some body) else .received 401 none

/-- The claims of the ID token for a grant. -/
def claimsFor (issuer : Bytes) (r : Registration) (grant : Grant) (subject : Bytes)
    (issuedAt expiry : Int) : IdClaims :=
  ⟨issuer, subject, [r.clientID], some expiry, none, some issuedAt, grant.nonce, []⟩

/-- The body of the response is read as a token whose ID token has these claims. -/
structure Issued (P : Platform) (v : Verifier) (claims : IdClaims) (token : TokenBody)
    (body : Bytes) : Prop where
  written : P.unmarshalToken body = some token
  size : body.length ≤ maxTokenResponseBytes
  given : token.idToken ≠ [] ∧ token.idToken.length ≤ maxTokenBytes
  signed : Signed P v token.idToken claims
  subject : claims.subject ≠ [] ∧ claims.subject.length ≤ 256

/-- The provider's data of a client. -/
def registration (c : LoginClient) : Registration := ⟨c.clientID, c.secret, c.redirectURI⟩

/-! ## The exchange -/

/-- A call of `complete` that nothing interrupts, with the provider's response to its request. -/
def exchange (P : Platform) (clients : ClientRef → LoginClient) (txs : TxRef → Transaction)
    (used : TxRef → Bool) (call : Call) (ageReading skewReading : Time)
    (provider : TokenRequest → TokenResponse) (now : Time) : Call :=
  let claimed := advance P clients txs used 0 call .swap
  let checked := advance P clients txs claimed.2 0 claimed.1 (.check ageReading skewReading)
  let sent := advance P clients txs checked.2 0 checked.1 (.send true)
  match sent.1.request with
  | none => sent.1
  | some request =>
    (advance P clients txs sent.2 0 sent.1 (.receive (provider request) now)).1

/-! ## Credentials -/

theorem length_cut {separator : UInt8} {before : Bytes} (mem : separator ∈ before) (after : Bytes) :
    (cut separator (before ++ after)).1.length < before.length := by
  induction before with
  | nil => cases mem
  | cons b rest ih =>
    rw [List.cons_append, cut]
    split
    · simp
    · rename_i other
      have inside := (List.mem_cons.mp mem).resolve_left (Ne.symm other)
      simpa using ih inside

/-- A provider reads back the credentials of a client exactly if the client ID has no colon, and
neither it nor the secret has a plus or a percent sign. -/
theorem readCredentials_iff {username password : Bytes} :
    readCredentials (username ++ 58 :: password) = some (username, password) ↔
      58 ∉ username ∧ (43 ∉ username ∧ 37 ∉ username) ∧ 43 ∉ password ∧ 37 ∉ password := by
  by_cases colon : 58 ∈ username
  · -- what stands before the first colon is too short to be read as the user name
    have short := length_cut colon (58 :: password)
    constructor
    · intro read
      unfold readCredentials at read
      generalize cut 58 (username ++ 58 :: password) = parts at short read
      split at read
      · split at read
        · rename_i decoded _
          cases read
          have longer := length_unescapeComponent decoded
          simp only at short
          omega
        · cases read
      · cases read
    · intro plain
      exact absurd colon plain.1
  · rw [readCredentials, cut_append colon, ← unescapeComponent_eq_self_iff,
      ← unescapeComponent_eq_self_iff]
    simp only [colon, not_false_eq_true, true_and]
    constructor
    · intro read
      split at read
      · rename_i user pass
        cases read
        exact ⟨user, pass⟩
      · cases read
    · rintro ⟨user, pass⟩
      rw [user, pass]

/-! ## What is read back -/

section Queries

variable {P : Platform} {c : LoginClient}

theorem finite_set {v : Values} (finite : Finite v) (name value : Bytes) :
    Finite (v.set name value) := by
  obtain ⟨names, rest⟩ := finite
  refine ⟨name :: names, fun other missing => ?_⟩
  rw [List.mem_cons, not_or] at missing
  rw [Values.set, if_neg missing.1, rest other missing.2]

theorem finite_valuesOf (pairs : List (Bytes × Bytes)) : Finite (valuesOf pairs) := by
  refine ⟨pairs.map Prod.fst, fun name missing => ?_⟩
  rw [valuesOf, List.filter_eq_nil_iff.mpr, List.map_nil]
  intro pair mem same
  exact missing (List.mem_map.mpr ⟨pair, mem, of_decide_eq_true same⟩)

/-- The authorization endpoint itself has no query. -/
theorem finite_authorizationQuery (std : Conforms P) (built : c.Built P)
    (state nonce verifier : Bytes) : Finite (authorizationQuery P c state nonce verifier) := by
  unfold authorizationQuery
  refine finite_set (finite_set (finite_set (finite_set (finite_set (finite_set (finite_set
    (finite_set ?_ _ _) _ _) _ _) _ _) _ _) _ _) _ _) _ _
  split
  · exact ⟨[], fun _ _ => rfl⟩
  · rename_i address parsed
    have empty : address.rawQuery = [] := by
      obtain ⟨⟨_, _, _, made⟩, _⟩ := built
      obtain ⟨_, _, _, _, _, _, origin, _⟩ := newLoginClient_ok made
      unfold sameOriginEndpoint at origin
      split at origin
      · rename_i base u _ found
        cases parsed.symm.trans found
        exact (of_decide_eq_true origin).2.2.2.2.1
      · cases origin
    rw [empty, std.parse [] (by decide)]
    exact finite_valuesOf _

/-- The provider reads the client's parameters and keeps the challenge and the nonce. -/
theorem authorize_begin (std : Conforms P) (built : c.Built P) {ref : ClientRef}
    {staleReading createdReading : Time}
    {draws : Draws} {u : AuthorizationURL} {t : Transaction}
    (begun : LoginClient.begin P ref c staleReading createdReading draws = .ok (u, t))
    (code : Bytes) :
    authorize (registration c) code (P.encodeQuery u.query) =
      some (⟨code, c.redirectURI, encodeToString (P.sha256 t.verifier), t.nonce⟩,
        encode [(ascii "code", code), (ascii "state", t.state)]) := by
  obtain ⟨_, state, nonce, verifier, rfl, rfl, rfl⟩ := LoginClient.begin_ok begun
  unfold authorize
  rw [std.encode _ (finite_authorizationQuery std built _ _ _)]
  exact if_pos ⟨rfl, rfl, rfl, rfl, rfl⟩

/-- The callback has the code and the state of the login. -/
theorem callback_read (std : Conforms P) (code state : Bytes) :
    P.parseQuery (encode [(ascii "code", code), (ascii "state", state)]) =
      valuesOf [(ascii "code", code), (ascii "state", state)] := by
  have two : ((encode [(ascii "code", code), (ascii "state", state)]).splitOn 38).length = 2 := by
    rw [splitOn_encode (List.cons_ne_nil _ _)]
    rfl
  rw [std.parse _ (two ▸ by decide), parse_encode]

theorem callback_accepted {code state : Bytes} (given : code ≠ [] ∧ code.length ≤ maxCodeBytes) :
    callbackAccepted (valuesOf [(ascii "code", code), (ascii "state", state)]) state = true :=
  callbackAccepted_iff.mpr ⟨⟨code, rfl, given⟩, rfl, rfl⟩

/-- The provider honours the code exactly if it recognises the client. -/
theorem redeems_iff (std : Conforms P) (c : LoginClient) (t : Transaction) (code state : Bytes) :
    redeems P (registration c) ⟨code, c.redirectURI, encodeToString (P.sha256 t.verifier), t.nonce⟩
        (tokenRequest c t (valuesOf [(ascii "code", code), (ascii "state", state)])) = true ↔
      58 ∉ c.clientID ∧ (43 ∉ c.clientID ∧ 37 ∉ c.clientID) ∧ 43 ∉ c.secret ∧ 37 ∉ c.secret := by
  rw [← readCredentials_iff, redeems, decide_eq_true_iff]
  have finite : Finite (tokenRequest c t
      (valuesOf [(ascii "code", code), (ascii "state", state)])).form :=
    finite_set (finite_set (finite_set (finite_set ⟨[], fun _ _ => rfl⟩ _ _) _ _) _ _) _ _
  rw [std.encode _ finite]
  constructor
  · intro honoured
    exact honoured.1
  · intro recognised
    exact ⟨recognised, rfl, rfl, rfl, rfl⟩

end Queries

/-! ## Complete logins -/

section Logins

variable {P : Platform} {clients : ClientRef → LoginClient} {txs : TxRef → Transaction}
  {used : TxRef → Bool} {ref : ClientRef} {τ : TxRef} {call : Call}
  {ageReading skewReading now : Time}

/-- An admitted call of a timely login sends its request and concludes with the response. -/
theorem exchange_done {provider : TokenRequest → TokenResponse} (entered : call.stage = .entered)
    (admitted : call.admitted txs = some (ref, τ)) (unused : used τ = false)
    (accepted : call.accepted txs τ ageReading skewReading = true) :
    (exchange P clients txs used call ageReading skewReading provider now).stage =
      .done (conclude P (clients ref) (txs τ) call.requireAccessToken
        (provider (tokenRequest (clients ref) (txs τ) call.callback)) now) := by
  have claimed : advance P clients txs used 0 call .swap =
      ({ call with stage := .claimed ref τ, won := true }, Function.update used τ true) := by
    simp [advance, entered, admitted, unused]
  have timely : Call.accepted txs { call with stage := .claimed ref τ, won := true } τ ageReading
      skewReading = true := accepted
  simp only [exchange, claimed]
  simp only [advance, timely, if_true]

/-- The response of a provider that honours the code is concluded with the identity. -/
theorem conclude_issued {v : LoginClient} {t : Transaction} {claims : IdClaims} {token : TokenBody}
    {body : Bytes} {issuedAt expiry : Int} {requireAccessToken : Bool}
    (size : body.length ≤ maxTokenResponseBytes) (written : P.unmarshalToken body = some token)
    (presented : Presented P v.verifier token.idToken t.nonce claims issuedAt expiry)
    (dates : datesAccepted now issuedAt expiry claims.notBefore = true)
    (access : requireAccessToken = true → accessTokenAccepted P token = true) :
    conclude P v t requireAccessToken (.received 200 (some body)) now =
      .ok ⟨⟨claims.issuer, claims.subject⟩, token.accessToken,
        wrap64 (token.expiresIn * second)⟩ := by
  have whole : body.take (maxTokenResponseBytes + 1) = body := List.take_of_length_le (by omega)
  have optional : ¬ (requireAccessToken = true ∧ accessTokenAccepted P token = false) := by
    rintro ⟨required, refused⟩
    rw [access required] at refused
    cases refused
  have verified := presented.verify now
  rw [if_neg (by simp [dates])] at verified
  simp only [conclude, whole, written, verified, if_neg optional, if_neg (Nat.not_lt.mpr size),
    ne_eq, not_true_eq_false, if_false]

theorem dates_of_alive {issuedAt expiry : Int} (clock : Clock now)
    (alive : Alive now issuedAt expiry) :
    datesAccepted now issuedAt expiry none = true := by
  have bounds := clock.2
  have begun := alive.begun
  have ordered := alive.ordered
  have issued := alive.issued
  have short := alive.short
  simp only [second] at bounds begun
  have issuedSigned : Signed64 issuedAt := ⟨by omega, by omega⟩
  have expirySigned : Signed64 expiry := ⟨by omega, by omega⟩
  rw [datesAccepted_iff, alive_iff clock issuedSigned expirySigned]
  exact ⟨alive, by simp⟩

/-- The client ID has no colon, and neither it nor the secret has a plus or a percent sign. -/
def Plain (c : LoginClient) : Prop :=
  58 ∉ c.clientID ∧ (43 ∉ c.clientID ∧ 37 ∉ c.clientID) ∧ 43 ∉ c.secret ∧ 37 ∉ c.secret

/-- What the circumstances of a login have to be for it to come to an end: the callback arrives in
time, and the ID token is alive when it is verified. -/
structure Timely (t : Transaction) (ageReading skewReading now : Time) (issuedAt expiry : Int) :
    Prop where
  young : ageReading.ns - t.createdAt.ns ≤ 5 * minute
  past : t.createdAt.ns - skewReading.ns ≤ minute
  clock : Clock now
  alive : Alive now issuedAt expiry

/-- The ID token for a grant of this login passes every test but those on dates. -/
theorem presented_issued {c : LoginClient} (built : c.Built P) {staleReading createdReading : Time}
    {draws : Draws} {u : AuthorizationURL} {t : Transaction}
    (begun : LoginClient.begin P ref c staleReading createdReading draws = .ok (u, t))
    {code redirectURI challenge subject : Bytes} {issuedAt expiry : Int} {token : TokenBody}
    {body : Bytes}
    (issued : Issued P c.verifier (claimsFor c.verifier.issuer (registration c)
      ⟨code, redirectURI, challenge, t.nonce⟩ subject issuedAt expiry) token body) :
    Presented P c.verifier token.idToken t.nonce (claimsFor c.verifier.issuer (registration c)
      ⟨code, redirectURI, challenge, t.nonce⟩ subject issuedAt expiry) issuedAt expiry := by
  obtain ⟨⟨_, _, _, newClient⟩, _⟩ := built
  have sameID := (newLoginClient_ok newClient).2.2.2.2.2.1
  obtain ⟨_, state, nonce, verifier, _, made, _⟩ := LoginClient.begin_ok begun
  have width : t.nonce.length = 43 := by
    rw [made, length_encodeToString, nonce.property]
  exact {
    expected := ⟨List.ne_nil_of_length_pos (by omega), by omega⟩
    given := issued.given
    signed := issued.signed
    dated := ⟨rfl, rfl⟩
    subject := ⟨rfl, issued.subject⟩
    audience := by
      rw [← sameID]
      exact List.mem_singleton_self _
    bound := rfl
    party := ⟨.inl rfl, .inl rfl⟩ }

/-- Every login that was begun is authorized by an honest provider, and a timely callback with the
provider's code gives the identity that the provider has signed, exactly if the provider
recognises the client: the credentials are sent as they are, and RFC 6749 has them read as form
components. -/
theorem honest_logins_complete (std : Conforms P) (built : (clients ref).Built P)
    {staleReading createdReading : Time} {draws : Draws} {u : AuthorizationURL} {t : Transaction}
    (begun : LoginClient.begin P ref (clients ref) staleReading createdReading draws = .ok (u, t))
    {code : Bytes} (given : code ≠ [] ∧ code.length ≤ maxCodeBytes) :
    ∃ grant callback,
      authorize (registration (clients ref)) code (P.encodeQuery u.query) = some (grant, callback) ∧
      ∀ (txs : TxRef → Transaction) (used : TxRef → Bool) (τ : TxRef)
        (ageReading skewReading now : Time)
        (issuedAt expiry : Int) (subject : Bytes) (token : TokenBody) (body : Bytes)
        (requireAccessToken : Bool), txs τ = t → used τ = false →
        Timely t ageReading skewReading now issuedAt expiry →
        Issued P (clients ref).verifier (claimsFor (clients ref).verifier.issuer
          (registration (clients ref)) grant subject issuedAt expiry) token body →
        (requireAccessToken = true → accessTokenAccepted P token = true) →
        ((exchange P clients txs used
            (enter txs (.client (some ref)) true (some τ) (P.parseQuery callback)
              requireAccessToken)
            ageReading skewReading (respond P (registration (clients ref)) grant body) now).stage =
          .done (.ok ⟨⟨(clients ref).verifier.issuer, subject⟩, token.accessToken,
            wrap64 (token.expiresIn * second)⟩) ↔ Plain (clients ref)) := by
  refine ⟨_, _, authorize_begin std built begun code, ?_⟩
  intro txs used τ ageReading skewReading now issuedAt expiry subject token body requireAccessToken
    here unused timely issued access
  rw [callback_read std]
  obtain ⟨_, state, nonce, verifier, _, made, _⟩ := LoginClient.begin_ok begun
  have owner : t.owner = some ref := by rw [made]
  have accepted : Call.accepted txs (enter txs (.client (some ref)) true (some τ)
      (valuesOf [(ascii "code", code), (ascii "state", t.state)]) requireAccessToken) τ ageReading
      skewReading = true := by
    rw [Call.accepted_iff, here]
    exact ⟨timely.young, timely.past, callback_accepted given⟩
  rw [exchange_done rfl (Call.admitted_eq_some.mpr ⟨rfl, rfl, rfl, here ▸ owner⟩) unused accepted,
    here]
  have presented : Presented P (clients ref).verifier token.idToken t.nonce _ issuedAt expiry :=
    presented_issued built begun issued
  unfold Plain respond
  rw [← redeems_iff std (clients ref) t code t.state]
  split
  · rename_i honoured
    have concluded := conclude_issued issued.size issued.written presented
      (dates_of_alive timely.clock timely.alive) access
    exact ⟨fun _ => honoured, fun _ => congrArg Stage.done concluded⟩
  · rename_i refused
    exact ⟨nofun, fun honoured => absurd honoured refused⟩

end Logins

/-! ## A login at the beginning of 2026 -/

open Classical in
/-- Queries are written under all names that have values. -/
noncomputable def writeQuery (v : Values) : Bytes :=
  if finite : Finite v then encode (pairsOf finite.choose.dedup v) else []

def sampleSeconds : Int := 1767225600

def sampleDraws : Draws :=
  ⟨some ⟨List.replicate 32 0, List.length_replicate⟩,
    some ⟨List.replicate 32 1, List.length_replicate⟩,
    some ⟨List.replicate 32 2, List.length_replicate⟩⟩

def sampleLogin : Transaction := { SealedLogins.sampleLogin with owner := some 65 }

noncomputable def honestPlatform : Platform :=
  { SealedLogins.samplePlatform with
    parseQuery := fun text =>
      if (text.splitOn 38).length ≤ maxParameters then valuesOf (parse text) else fun _ => []
    encodeQuery := writeQuery }

theorem honestPlatform_conforms : Conforms honestPlatform where
  parse := fun _ few => if_pos few
  encode := by
    intro v finite
    have rest : ∀ name ∉ finite.choose.dedup, v name = [] := by
      intro name missing
      exact finite.choose_spec name fun mem => missing (List.mem_dedup.mpr mem)
    show valuesOf (parse (writeQuery v)) = v
    rw [writeQuery, dif_pos finite, parse_encode, valuesOf_pairsOf (List.nodup_dedup _) rest]

theorem honest_logins_complete_sample :
    ∃ u, LoginClient.begin honestPlatform 65 (SealedLogins.sampleClients 65) sampleNow sampleNow
        sampleDraws = .ok (u, sampleLogin) ∧
      ∃ grant callback, authorize (registration (SealedLogins.sampleClients 65)) (ascii "code")
          (honestPlatform.encodeQuery u.query) = some (grant, callback) ∧
        (exchange honestPlatform SealedLogins.sampleClients (fun _ => sampleLogin) (fun _ => false)
          (enter (fun _ => sampleLogin) (.client (some 65)) true (some 0)
            (honestPlatform.parseQuery callback) false) sampleNow sampleNow
          (respond honestPlatform (registration (SealedLogins.sampleClients 65)) grant
            SealedLogins.sampleBody)
          sampleNow).stage = .done (.ok ⟨⟨ascii "https://id.example", ascii "alice"⟩, [], 0⟩) := by
  have built : (SealedLogins.sampleClients 65).Built honestPlatform :=
    (LoginBinding.sampleClients_built 65).withQueries _ _
  have begun : LoginClient.begin honestPlatform 65 (SealedLogins.sampleClients 65) sampleNow
      sampleNow sampleDraws = .ok (⟨ascii "https://id.example/authorize", _⟩, sampleLogin) := rfl
  refine ⟨_, begun, ?_⟩
  obtain ⟨grant, callback, authorized, complete⟩ := honest_logins_complete honestPlatform_conforms
    built begun (show ascii "code" ≠ [] ∧ _ from ⟨by decide, by decide⟩)
  have granted := authorize_begin honestPlatform_conforms built begun (ascii "code")
  rw [authorized] at granted
  refine ⟨grant, callback, authorized, ?_⟩
  have issued : Issued honestPlatform (SealedLogins.sampleClients 65).verifier
      (claimsFor (ascii "https://id.example") (registration (SealedLogins.sampleClients 65)) grant
        (ascii "alice") sampleSeconds (sampleSeconds + 300)) ⟨SealedLogins.sampleToken, [], [], 0⟩
      SealedLogins.sampleBody := by
    cases granted
    have size := SealedLogins.length_sampleToken
    have read : honestPlatform.unmarshalToken SealedLogins.sampleBody =
        some ⟨SealedLogins.sampleToken, [], [], 0⟩ := by
      rw [show honestPlatform.unmarshalToken = SealedLogins.samplePlatform.unmarshalToken from rfl]
      exact SealedLogins.unmarshalToken_sampleBody
    have parsed : honestPlatform.parseSigned SealedLogins.sampleToken =
        some SealedLogins.sampleParsed := by
      rw [show honestPlatform.parseSigned = SealedLogins.samplePlatform.parseSigned from rfl]
      exact SealedLogins.parseSigned_sampleToken
    refine ⟨read, ?_, ⟨List.ne_nil_of_length_pos (size ▸ by decide), size ▸ by decide⟩, ?_,
      by decide⟩
    · rw [SealedLogins.sampleBody, List.length_append, List.length_append, size]
      decide
    · exact ⟨SealedLogins.sampleParsed, _, SealedLogins.sampleModulus, parsed, rfl, by decide,
        by simp, rfl, SealedLogins.sampleParsed_claims⟩
  have timely : Timely sampleLogin sampleNow sampleNow sampleNow sampleSeconds
      (sampleSeconds + 300) := by
    refine ⟨by decide, by decide, ⟨by decide, by decide⟩, ⟨by decide, by decide, by decide,
      by decide, by decide⟩⟩
  refine (complete _ _ 0 sampleNow sampleNow sampleNow sampleSeconds (sampleSeconds + 300)
    (ascii "alice") _ _ false rfl rfl timely issued nofun).mpr ?_
  unfold Plain
  decide +kernel

end HonestLogins
