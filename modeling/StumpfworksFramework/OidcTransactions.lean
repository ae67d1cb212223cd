import StumpfworksFramework.Base64Url
import StumpfworksFramework.OidcClients

/-!
# Login transactions

A transaction is shared by reference. Its fields never change after `Begin` or
`Open` built it, so a heap of transactions is a function of references; the
atomic `used` flag, which does change, is kept apart from it. Clients are
immutable too and are referred to in the same way, because ownership is decided
by pointer equality.
-/

namespace OidcTransactions

open ByteStrings Base64Url Instants OidcClients

abbrev ClientRef := Nat
abbrev TxRef := Nat

structure Transaction where
  owner : Option ClientRef
  state : Bytes
  nonce : Bytes
  verifier : Bytes
  createdAt : Time
  deriving DecidableEq, Repr

def maxTokenResponseBytes : Nat := 32 <<< 10
def maxCodeBytes : Nat := 4096
def transactionLifetime : Int := 5 * minute

/-- 32 bytes from the system's random source. -/
abbrev Draw := {b : Bytes // b.length = 32}

/-- `randomURLString`; without a draw the random source failed. -/
def randomURLString : Option Draw → Except OidcError Bytes
  | none => .error (.other "random source failed")
  | some bytes => .ok (encodeToString bytes.val)

/-- An authorization address: the endpoint and the query it is opened with. -/
structure AuthorizationURL where
  endpoint : Bytes
  query : Values

def AuthorizationURL.render (P : Platform) (u : AuthorizationURL) : Option Bytes :=
  (P.parseUrl u.endpoint).map fun address =>
    P.renderUrl { address with rawQuery := P.encodeQuery u.query }

/-- The three strings drawn for one login. -/
structure Draws where
  state : Option Draw
  nonce : Option Draw
  verifier : Option Draw

/-- The query of the authorization address. `Set` replaces whatever the endpoint carried. -/
def authorizationQuery (P : Platform) (c : LoginClient) (state nonce verifier : Bytes) : Values :=
  let base : Values := match P.parseUrl c.configuration.authorizationEndpoint with
    | none => fun _ => []
    | some address => P.parseQuery address.rawQuery
  base |>.set (ascii "response_type") (ascii "code")
    |>.set (ascii "client_id") c.clientID
    |>.set (ascii "redirect_uri") c.redirectURI
    |>.set (ascii "scope") (ascii "openid")
    |>.set (ascii "state") state
    |>.set (ascii "nonce") nonce
    |>.set (ascii "code_challenge") (encodeToString (P.sha256 verifier))
    |>.set (ascii "code_challenge_method") (ascii "S256")

/-- `Begin` on the client at `ref`, with its two clock readings. -/
def LoginClient.begin (P : Platform) (ref : ClientRef) (c : LoginClient)
    (staleReading createdReading : Time) (draws : Draws) :
    Except OidcError (AuthorizationURL × Transaction) := do
  if c.configuration.validUntil.isZero = false ∧
      staleReading.before c.configuration.validUntil = false then
    throw .errStaleConfiguration
  let state ← randomURLString draws.state
  let nonce ← randomURLString draws.nonce
  let verifier ← randomURLString draws.verifier
  return (⟨c.configuration.authorizationEndpoint, authorizationQuery P c state nonce verifier⟩,
    ⟨some ref, state, nonce, verifier, createdReading⟩)

/-- The bytes of a browser secret or transaction field, if it is canonical. -/
def decodeBinding (binding : Bytes) : Option Bytes :=
  if binding.length ≠ 43 then none
  else
    match decodeString binding with
    | none => none
    | some decoded =>
      if decoded.length = 32 ∧ encodeToString decoded = binding then some decoded else none

theorem decodeBinding_eq_some_iff {binding bytes : Bytes} :
    decodeBinding binding = some bytes ↔ bytes.length = 32 ∧ encodeToString bytes = binding := by
  constructor
  · intro h
    rw [decodeBinding] at h
    split at h
    · cases h
    · split at h
      · cases h
      · split at h
        · rename_i canonical
          cases h
          exact canonical
        · cases h
  · rintro ⟨size, rfl⟩
    have width : (encodeToString bytes).length = 43 := by
      rw [length_encodeToString, size]
    simp [decodeBinding, width, decodeString_encodeToString, size]

/-- Canonical strings with the same bytes are equal. -/
theorem decodeBinding_injective {a b bytes : Bytes} (ha : decodeBinding a = some bytes)
    (hb : decodeBinding b = some bytes) : a = b :=
  (decodeBinding_eq_some_iff.mp ha).2.symm.trans (decodeBinding_eq_some_iff.mp hb).2

theorem decodeBinding_length {binding bytes : Bytes} (h : decodeBinding binding = some bytes) :
    binding.length = 43 := by
  obtain ⟨size, rfl⟩ := decodeBinding_eq_some_iff.mp h
  rw [length_encodeToString, size]

/-- Everything a successful `Begin` returns. -/
theorem LoginClient.begin_ok {P : Platform} {ref : ClientRef} {c : LoginClient}
    {staleReading createdReading : Time} {draws : Draws} {u : AuthorizationURL} {t : Transaction}
    (h : LoginClient.begin P ref c staleReading createdReading draws = .ok (u, t)) :
    (c.configuration.validUntil.isZero = true ∨
      staleReading.before c.configuration.validUntil = true) ∧
    ∃ state nonce verifier, draws = ⟨some state, some nonce, some verifier⟩ ∧
      t = ⟨some ref, encodeToString state.val, encodeToString nonce.val,
        encodeToString verifier.val, createdReading⟩ ∧
      u = ⟨c.configuration.authorizationEndpoint,
        authorizationQuery P c t.state t.nonce t.verifier⟩ := by
  obtain ⟨state, nonce, verifier⟩ := draws
  unfold LoginClient.begin at h
  split at h
  · cases h
  · rename_i fresh
    rcases state with _ | state
    · cases h
    rcases nonce with _ | nonce
    · cases h
    rcases verifier with _ | verifier
    · cases h
    cases h
    refine ⟨?_, state, nonce, verifier, rfl, rfl, rfl⟩
    by_cases zero : c.configuration.validUntil.isZero = true
    · exact Or.inl zero
    · exact Or.inr (by simpa [zero] using fresh)

/-- `Begin` reports a stale configuration for no other reason than its deadline. -/
theorem LoginClient.begin_stale_iff {P : Platform} {ref : ClientRef} {c : LoginClient}
    {staleReading createdReading : Time} {draws : Draws} :
    LoginClient.begin P ref c staleReading createdReading draws = .error .errStaleConfiguration ↔
      c.configuration.validUntil.isZero = false ∧
        staleReading.before c.configuration.validUntil = false := by
  obtain ⟨state, nonce, verifier⟩ := draws
  unfold LoginClient.begin
  split
  · rename_i stale
    exact ⟨fun _ => stale, fun _ => rfl⟩
  · rename_i fresh
    constructor
    · intro h
      rcases state with _ | state
      · cases h
      rcases nonce with _ | nonce
      · cases h
      rcases verifier with _ | verifier
      · cases h
      cases h
    · intro stale
      exact absurd stale fresh

end OidcTransactions
