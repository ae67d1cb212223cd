import StumpfworksFramework.OidcTransactions

/-!
# Completing a login

`complete`, the common body of `Complete` and `CompleteWithToken`, cut where
another goroutine can interfere: the ownership test with the atomic swap of the
`used` flag, the checks that follow, the request to the token endpoint, and the
treatment of its response. A call keeps its arguments, its progress, and a
record of what it did: whether its swap found the flag clear, the two clock
readings it passed, and the request it sent.

Timeouts, and what happens to a request on the network, are not modelled; the
token endpoint may answer anything or nothing.
-/

namespace LoginExchange

open ByteStrings Instants OidcClients OidcTransactions

structure LoginResult where
  identity : Identity
  accessToken : Bytes
  expiresIn : Int
  deriving DecidableEq, Repr

/-- A request to the token endpoint; user name and password are the basic authorization. -/
structure TokenRequest where
  endpoint : Bytes
  headers : List (Bytes × Bytes)
  username : Bytes
  password : Bytes
  form : Values

/-- `failed` is an error of `Do`; a body that cannot be read to its end is missing. -/
inductive TokenResponse where
  | failed
  | received (statusCode : Nat) (body : Option Bytes)

/-- The tests on the callback's parameters. -/
def callbackAccepted (callback : Values) (state : Bytes) : Bool :=
  (callback (ascii "state")).length = 1 ∧ (callback (ascii "code")).length = 1 ∧
    (callback (ascii "error")).length = 0 ∧ callback.get (ascii "code") ≠ [] ∧
    (callback.get (ascii "code")).length ≤ maxCodeBytes ∧ callback.get (ascii "state") = state

def tokenRequest (c : LoginClient) (t : Transaction) (callback : Values) : TokenRequest where
  endpoint := c.configuration.tokenEndpoint
  headers := [(ascii "Content-Type", ascii "application/x-www-form-urlencoded"),
    (ascii "Accept", ascii "application/json")]
  username := c.clientID
  password := c.secret
  form := Values.set (Values.set (Values.set (Values.set (fun _ => [])
    (ascii "grant_type") (ascii "authorization_code"))
    (ascii "code") (callback.get (ascii "code")))
    (ascii "redirect_uri") c.redirectURI)
    (ascii "code_verifier") t.verifier

/-- The test on a token response when an access token is required. -/
def accessTokenAccepted (P : Platform) (token : TokenBody) : Bool :=
  token.accessToken ≠ [] ∧ token.accessToken.length ≤ maxCodeBytes ∧
    P.equalFold token.tokenType (ascii "Bearer") = true ∧
    0 < token.expiresIn ∧ token.expiresIn ≤ 86400

/-- What `complete` makes of the response; `now` is the verifier's clock reading. -/
def conclude (P : Platform) (c : LoginClient) (t : Transaction) (requireAccessToken : Bool)
    (response : TokenResponse) (now : Time) : Except OidcError LoginResult :=
  match response with
  | .failed => .error .errLoginFailed
  | .received statusCode body =>
    if statusCode ≠ 200 then .error .errLoginFailed
    else
      match body with
      | none => .error .errLoginFailed
      | some bytes =>
        let contents := bytes.take (maxTokenResponseBytes + 1)
        if contents.length > maxTokenResponseBytes then .error .errLoginFailed
        else
          match P.unmarshalToken contents with
          | none => .error .errLoginFailed
          | some token =>
            if requireAccessToken = true ∧ accessTokenAccepted P token = false then
              .error .errLoginFailed
            else
              match verifyIDToken P c.verifier now token.idToken t.nonce with
              | .error _ => .error .errLoginFailed
              | .ok identity =>
                .ok ⟨identity, token.accessToken, wrap64 (token.expiresIn * second)⟩

/-- Where a call of `complete` is. -/
inductive Stage where
  | entered
  | claimed (client : ClientRef) (transaction : TxRef)
  | matched (client : ClientRef) (transaction : TxRef)
  | sent (client : ClientRef) (transaction : TxRef)
  | done (result : Except OidcError LoginResult)

structure Call where
  receiver : Option ClientRef
  hasContext : Bool
  transaction : Option TxRef
  callback : Values
  requireAccessToken : Bool
  stage : Stage
  /-- the swap found the flag clear -/
  won : Bool
  /-- the readings that passed the test on the age and the test on the future -/
  readings : Option (Time × Time)
  request : Option TokenRequest
  /-- how many authorization addresses had been handed out when the request was sent -/
  emitted : Nat

inductive CallStep where
  | swap
  | check (ageReading skewReading : Time)
  | send (built : Bool)
  | receive (response : TokenResponse) (now : Time)

/-- Through a client, which may be nil, or through the transaction itself. -/
inductive Entry where
  | client (client : Option ClientRef)
  | transaction

section Steps

variable (P : Platform) (clients : ClientRef → LoginClient) (txs : TxRef → Transaction)

/-- `Transaction.Complete` calls the owner; without one it fails like a nil client. -/
def Entry.receiver (entry : Entry) (transaction : Option TxRef) : Option ClientRef :=
  match entry with
  | .client c => c
  | .transaction => transaction.bind fun τ => (txs τ).owner

def enter (entry : Entry) (hasContext : Bool) (transaction : Option TxRef) (callback : Values)
    (requireAccessToken : Bool) : Call where
  receiver := entry.receiver txs transaction
  hasContext := hasContext
  transaction := transaction
  callback := callback
  requireAccessToken := requireAccessToken
  stage := .entered
  won := false
  readings := none
  request := none
  emitted := 0

def Call.fail (call : Call) : Call := { call with stage := .done (.error .errLoginFailed) }

/-- The tests before the swap: client, context, transaction and ownership. -/
def Call.admitted (call : Call) : Option (ClientRef × TxRef) :=
  match call.receiver, call.transaction with
  | some c, some τ => if call.hasContext = true ∧ (txs τ).owner = some c then some (c, τ) else none
  | _, _ => none

/-- The tests after the swap, up to the callback's. -/
def Call.accepted (call : Call) (τ : TxRef) (ageReading skewReading : Time) : Bool :=
  ageReading.sub (txs τ).createdAt ≤ transactionLifetime ∧
    (txs τ).createdAt.after (skewReading.add clockSkew) = false ∧
    callbackAccepted call.callback (txs τ).state = true

/-- One step of a call, with the flags as it leaves them. A step that the call
is not ready for does nothing. -/
def advance (used : TxRef → Bool) (emitted : Nat) (call : Call) (step : CallStep) :
    Call × (TxRef → Bool) :=
  match call.stage, step with
  | .entered, .swap =>
    match call.admitted txs with
    | none => (call.fail, used)
    | some (c, τ) =>
      if used τ = true then (call.fail, used)
      else ({ call with stage := .claimed c τ, won := true }, Function.update used τ true)
  | .claimed c τ, .check ageReading skewReading =>
    if call.accepted txs τ ageReading skewReading = true then
      ({ call with stage := .matched c τ, readings := some (ageReading, skewReading) }, used)
    else (call.fail, used)
  | .matched c τ, .send built =>
    if built = true then
      ({ call with
          stage := .sent c τ
          request := some (tokenRequest (clients c) (txs τ) call.callback)
          emitted := emitted }, used)
    else (call.fail, used)
  | .sent c τ, .receive response now =>
    ({ call with
        stage :=
          .done (conclude P (clients c) (txs τ) call.requireAccessToken response now) }, used)
  | _, _ => (call, used)

end Steps

/-! ## Facts about the parts -/

theorem callbackAccepted_iff {callback : Values} {state : Bytes} :
    callbackAccepted callback state = true ↔
      (∃ code, callback (ascii "code") = [code] ∧ code ≠ [] ∧ code.length ≤ 4096) ∧
      callback (ascii "state") = [state] ∧ callback (ascii "error") = [] := by
  rw [callbackAccepted, decide_eq_true_iff]
  simp only [List.length_eq_one_iff, List.length_eq_zero_iff, Values.get, maxCodeBytes]
  constructor
  · rintro ⟨⟨st, hst⟩, ⟨code, hcode⟩, herror, nonempty, short, same⟩
    rw [hcode, List.headD_cons] at nonempty short
    rw [hst, List.headD_cons] at same
    exact ⟨⟨code, hcode, nonempty, short⟩, same ▸ hst, herror⟩
  · rintro ⟨⟨code, hcode, nonempty, short⟩, hst, herror⟩
    rw [hcode, hst]
    exact ⟨⟨state, rfl⟩, ⟨code, rfl⟩, herror, nonempty, short, rfl⟩

/-- An identity is only ever returned for an ID token with the transaction's nonce. -/
theorem conclude_ok {P : Platform} {c : LoginClient} {t : Transaction} {requireAccessToken : Bool}
    {response : TokenResponse} {now : Time} {result : LoginResult}
    (h : conclude P c t requireAccessToken response now = .ok result) :
    ∃ raw, verifyIDToken P c.verifier now raw t.nonce = .ok result.identity := by
  unfold conclude at h
  split at h
  · cases h
  · split at h
    · cases h
    · split at h
      · cases h
      · dsimp only at h
        split at h
        · cases h
        · split at h
          · cases h
          · rename_i token _
            split at h
            · cases h
            · split at h
              · cases h
              · rename_i identity verified
                cases h
                exact ⟨token.idToken, verified⟩

theorem Call.admitted_eq_some {txs : TxRef → Transaction} {call : Call} {c : ClientRef}
    {τ : TxRef} : call.admitted txs = some (c, τ) ↔
      call.receiver = some c ∧ call.transaction = some τ ∧ call.hasContext = true ∧
        (txs τ).owner = some c := by
  unfold Call.admitted
  constructor
  · intro h
    split at h
    · rename_i c' τ' receiver transaction
      split at h
      · rename_i own
        cases h
        exact ⟨receiver, transaction, own.1, own.2⟩
      · cases h
    · cases h
  · rintro ⟨receiver, transaction, context, owner⟩
    simp [receiver, transaction, context, owner]

/-- Exact ages decide the tests on the clock. -/
theorem Call.accepted_iff {txs : TxRef → Transaction} {call : Call} {τ : TxRef}
    {ageReading skewReading : Time} : call.accepted txs τ ageReading skewReading = true ↔
      ageReading.ns - (txs τ).createdAt.ns ≤ 5 * minute ∧
        (txs τ).createdAt.ns - skewReading.ns ≤ minute ∧
        callbackAccepted call.callback (txs τ).state = true := by
  have age := Time.sub_le_iff ageReading (txs τ).createdAt (d := transactionLifetime) (by decide)
    (by decide)
  have skew : (txs τ).createdAt.after (skewReading.add clockSkew) = false ↔
      (txs τ).createdAt.ns - skewReading.ns ≤ minute := by
    rw [Bool.eq_false_iff, ne_eq, Time.after_iff, Time.add_ns, clockSkew]
    omega
  simp only [Call.accepted, decide_eq_true_eq, age, skew]
  exact Iff.rfl

/-- Everything a step can do to a call and to the flags. -/
theorem advance_cases (P : Platform) (clients : ClientRef → LoginClient)
    (txs : TxRef → Transaction) (used : TxRef → Bool) (emitted : Nat) (call : Call)
    (step : CallStep) :
    let r := advance P clients txs used emitted call step
    r = (call, used) ∨
    (call.stage = .entered ∧ step = .swap ∧ r = (call.fail, used) ∧
      ∀ c τ, call.admitted txs = some (c, τ) → used τ = true) ∨
    (∃ c τ, call.stage = .entered ∧ step = .swap ∧ call.admitted txs = some (c, τ) ∧
      used τ = false ∧
      r = ({ call with stage := .claimed c τ, won := true }, Function.update used τ true)) ∨
    (∃ c τ, (call.stage = .claimed c τ ∨ call.stage = .matched c τ) ∧ r = (call.fail, used)) ∨
    (∃ c τ ageReading skewReading, call.stage = .claimed c τ ∧
      call.accepted txs τ ageReading skewReading = true ∧
      r = ({ call with stage := .matched c τ, readings := some (ageReading, skewReading) },
        used)) ∨
    (∃ c τ, call.stage = .matched c τ ∧
      r = ({ call with
              stage := .sent c τ
              request := some (tokenRequest (clients c) (txs τ) call.callback)
              emitted := emitted }, used)) ∨
    (∃ c τ response now, call.stage = .sent c τ ∧
      r = ({ call with
              stage :=
                .done (conclude P (clients c) (txs τ) call.requireAccessToken response now) },
        used)) := by
  intro r
  simp only [r]
  unfold advance
  split
  · rename_i stage
    split
    · rename_i rejected
      exact Or.inr (Or.inl ⟨stage, rfl, rfl, by simp [rejected]⟩)
    · rename_i c τ own
      split
      · rename_i taken
        refine Or.inr (Or.inl ⟨stage, rfl, rfl, ?_⟩)
        intro c' τ' own'
        rw [own] at own'
        cases own'
        exact taken
      · rename_i free
        exact Or.inr (Or.inr (Or.inl ⟨c, τ, stage, rfl, own, by simpa using free, rfl⟩))
  · rename_i c τ ageReading skewReading stage
    split
    · rename_i passed
      exact Or.inr (Or.inr (Or.inr (Or.inr (Or.inl
        ⟨c, τ, ageReading, skewReading, stage, passed, rfl⟩))))
    · exact Or.inr (Or.inr (Or.inr (Or.inl ⟨c, τ, Or.inl stage, rfl⟩)))
  · rename_i c τ built stage
    split
    · exact Or.inr (Or.inr (Or.inr (Or.inr (Or.inr (Or.inl ⟨c, τ, stage, rfl⟩)))))
    · exact Or.inr (Or.inr (Or.inr (Or.inl ⟨c, τ, Or.inr stage, rfl⟩)))
  · rename_i c τ response now stage
    exact Or.inr (Or.inr (Or.inr (Or.inr (Or.inr (Or.inr
      ⟨c, τ, response, now, stage, rfl⟩)))))
  · exact Or.inl rfl

end LoginExchange
