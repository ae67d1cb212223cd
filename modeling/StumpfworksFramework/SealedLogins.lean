import StumpfworksFramework.TransactionCodec

/-!
# Sealed logins open again, and only for their own client

A record restores the transaction it was made of, for every client with the
same issuer, client ID and redirect URI, while the transaction is fresh. If the
cipher opens only what was sealed, and SHA-256 has no collisions, a client
opens no record of a client that differs in one of these three strings.
-/

namespace SealedLogins

open AuthenticatedEncryption ByteStrings Instants OidcClients OidcTransactions TransactionCodec

variable {P : Platform} {codec : Codec} {clients : ClientRef → LoginClient}

/-- The three strings that identify a client to its issuer. -/
def SameIdentity (c c' : LoginClient) : Prop :=
  c.verifier.issuer = c'.verifier.issuer ∧ c.clientID = c'.clientID ∧
    c.redirectURI = c'.redirectURI

theorem SameIdentity.transactionAAD {c c' : LoginClient} (same : SameIdentity c c') :
    transactionAAD P c = TransactionCodec.transactionAAD P c' := by
  obtain ⟨issuer, clientID, redirectURI⟩ := same
  rw [TransactionCodec.transactionAAD, TransactionCodec.transactionAAD, issuer, clientID,
    redirectURI]

theorem validTransactionFields_withOwner (t : Transaction) (owner : Option ClientRef) :
    validTransactionFields { t with owner := owner } = validTransactionFields t := rfl

/-- The cipher returns to a client of the same identity what was sealed. -/
theorem openBytes_record (codec : Codec) {call : SealCall} (size : call.nonce.length = 12)
    {ref : ClientRef}
    (own : call.additionalData = transactionAAD P (clients ref)) :
    codec.aead.openBytes (((codec.record call).drop 1).take 12) ((codec.record call).drop 13)
      (transactionAAD P (clients ref)) = some call.plaintext := by
  obtain ⟨nonce, ciphertext⟩ := record_parts codec size
  rw [nonce, ciphertext, ← own]
  exact codec.aead.open_sealBytes _ _ _ size

/-- When a client opens the record of a transaction sealed for its identity. -/
theorem open_record_ok_iff (codec : Codec) {call : SealCall} {t : Transaction} {ref : ClientRef}
    (size : call.nonce.length = 12) (plain : call.plaintext = plaintext t)
    (own : call.additionalData = transactionAAD P (clients ref))
    (fields : validTransactionFields t = true) (range : t.createdAt.NanoRange) (now : Time)
    (result : Transaction × Bool) :
    codec.open P clients ref (codec.record call) now = .ok result ↔
      validTransactionTime now t.createdAt = true ∧
        result = ({ t with owner := some ref }, false) := by
  have opened := openBytes_record codec size own
  have restored : restore ref call.plaintext = { t with owner := some ref } := by
    rw [plain, restore_plaintext fields, unix_timestamp range]
  have plainSize : call.plaintext.length = transactionPlainSize := by
    rw [plain, length_plaintext fields]
  rw [open_ok_iff]
  constructor
  · rintro ⟨_, _, plain', found, _, _, timely, rfl⟩
    rw [opened] at found
    cases found
    rw [restored] at timely ⊢
    exact ⟨timely, rfl⟩
  · rintro ⟨timely, rfl⟩
    refine ⟨length_record codec size plainSize, rfl, call.plaintext, opened, plainSize, ?_, ?_, ?_⟩
    · rw [restored, validTransactionFields_withOwner]
      exact fields
    · rw [restored]
      exact timely
    · rw [restored]

/-- Opening undoes sealing, at exactly the clock readings at which the transaction is fresh. -/
theorem open_seal_iff (P : Platform) (codec : Codec) (clients : ClientRef → LoginClient)
    {c c' : ClientRef} {t : Transaction} (owner : t.owner = some c)
    (range : t.createdAt.NanoRange) (same : SameIdentity (clients c) (clients c')) {now : Time}
    {random : Option {n : Bytes // n.length = 12}} {record : Bytes}
    (sealed : codec.seal P clients (some t) false now random = .ok record) (now' : Time) :
    record.length = 166 ∧
    ((∃ result, codec.open P clients c' record now' = .ok result) ↔
      t.createdAt.ns ≠ 0 ∧ t.createdAt.ns ≤ now'.ns + minute ∧
        now'.ns - t.createdAt.ns ≤ 5 * minute) ∧
    ∀ result, codec.open P clients c' record now' = .ok result →
      result = ({ t with owner := some c' }, false) := by
  obtain ⟨call, made, rfl⟩ := seal_ok_iff.mp sealed
  obtain ⟨nonceSize, plainSize⟩ := sealCall_sizes made
  have size := length_record codec nonceSize plainSize
  obtain ⟨_, client, nonce, given, owner', _, _, fields, _, rfl⟩ := sealCall_ok made
  cases given
  rw [owner] at owner'
  cases owner'
  have accepted := open_record_ok_iff codec nonceSize rfl same.transactionAAD fields range now'
  refine ⟨size, ?_, fun result h => ((accepted result).mp h).2⟩
  rw [← validTransactionTime_iff]
  constructor
  · rintro ⟨result, h⟩
    exact ((accepted result).mp h).1
  · intro timely
    exact ⟨_, (accepted _).mpr ⟨timely, rfl⟩⟩

/-! ## Records of other clients -/

/-- The three strings fit their 32-bit length fields. -/
def Short (issuer clientID redirectURI : Bytes) : Prop :=
  issuer.length < 2 ^ 32 ∧ clientID.length < 2 ^ 32 ∧ redirectURI.length < 2 ^ 32

theorem associatedBytes_injective {i c r i' c' r' : Bytes} (short : Short i c r)
    (short' : Short i' c' r') (same : associatedBytes i c r = associatedBytes i' c' r') :
    i = i' ∧ c = c' ∧ r = r' := by
  obtain ⟨hi, hc, hr⟩ := short
  obtain ⟨hi', hc', hr'⟩ := short'
  have parts : [i, c, r] = [i', c', r'] := by
    refine delimited_injective rfl ?_ ?_ same
    · simp only [List.forall_mem_cons, List.not_mem_nil, false_imp_iff, implies_true, and_true]
      exact ⟨hi, hc, hr⟩
    · simp only [List.forall_mem_cons, List.not_mem_nil, false_imp_iff, implies_true, and_true]
      exact ⟨hi', hc', hr'⟩
  simpa using parts

/-- The arguments of one call of `Seal`. -/
structure SealRequest where
  transaction : Option Transaction
  used : Bool
  now : Time
  random : Option {n : Bytes // n.length = 12}

def SealRequest.call (P : Platform) (clients : ClientRef → LoginClient) (r : SealRequest) :
    Except OidcError SealCall :=
  sealCall P clients r.transaction r.used r.now r.random

/-- The calls of the cipher that a list of `Seal` calls makes. -/
def cipherCalls (P : Platform) (clients : ClientRef → LoginClient) (requests : List SealRequest) :
    List SealCall :=
  requests.filterMap fun r => (r.call P clients).toOption

theorem mem_cipherCalls {requests : List SealRequest} {call : SealCall} :
    call ∈ cipherCalls P clients requests ↔ ∃ r ∈ requests, r.call P clients = .ok call := by
  simp only [cipherCalls, List.mem_filterMap]
  refine exists_congr fun r => and_congr_right fun _ => ?_
  cases r.call P clients with
  | error e => simp [Except.toOption]
  | ok made => simp [Except.toOption]

/-- A record of the right size and version is put together again from its parts. -/
theorem record_of_parts {record : Bytes} (size : record.length = transactionSealedSize)
    (version : record.head? = some transactionFormatVersion) :
    [transactionFormatVersion] ++ (record.drop 1).take 12 ++ record.drop 13 = record := by
  cases record with
  | nil => cases version
  | cons b rest =>
    cases version
    change transactionFormatVersion :: (rest.take 12 ++ rest.drop 12) = _
    rw [List.take_append_drop]

theorem length_nonce {record : Bytes} (size : record.length = transactionSealedSize) :
    ((record.drop 1).take 12).length = 12 := by
  simp only [List.length_take, List.length_drop, size]
  rfl

/-- What `Open` accepts is the record of a cipher call with the opener's associated data,
and the transaction is restored from the plaintext of that call. -/
theorem open_authentic {calls : List SealCall} {ref : ClientRef} {record : Bytes} {now : Time}
    {result : Transaction × Bool}
    (authentic : codec.aead.Authentic calls ((record.drop 1).take 12) (record.drop 13)
      (transactionAAD P (clients ref)))
    (opened : codec.open P clients ref record now = .ok result) :
    ∃ call ∈ calls, codec.record call = record ∧
      call.additionalData = transactionAAD P (clients ref) ∧
      result = (restore ref call.plaintext, false) ∧
      validTransactionFields (restore ref call.plaintext) = true := by
  obtain ⟨size, version, plain, found, _, fields, _, rfl⟩ := open_ok_iff.mp opened
  obtain ⟨made, sealed⟩ := authentic.sealed (length_nonce size) found
  refine ⟨_, made, ?_, rfl, rfl, fields⟩
  rw [Codec.record, sealed]
  exact record_of_parts size version

/-- A client opens only records that `Seal` made for a client with the same three strings,
and the hashed bytes leave no room for another reading of them. -/
theorem open_only_own_records (P : Platform) (collisionFree : Function.Injective P.sha256)
    (codec : Codec) (clients : ClientRef → LoginClient)
    (short : ∀ ref, Short (clients ref).verifier.issuer (clients ref).clientID
      (clients ref).redirectURI)
    (requests : List SealRequest) {ref : ClientRef} {record : Bytes} {now : Time}
    {result : Transaction × Bool}
    (ideal : codec.aead.Authentic (cipherCalls P clients requests) ((record.drop 1).take 12)
      (record.drop 13) (transactionAAD P (clients ref)))
    (opened : codec.open P clients ref record now = .ok result) :
    (∃ r ∈ requests, ∃ t client, r.transaction = some t ∧ t.owner = some client ∧
      codec.seal P clients r.transaction r.used r.now r.random = .ok record ∧
      SameIdentity (clients client) (clients ref)) ∧
    ∀ i c u i' c' u', Short i c u → Short i' c' u' →
      associatedBytes i c u = associatedBytes i' c' u' → i = i' ∧ c = c' ∧ u = u' := by
  refine ⟨?_, fun _ _ _ _ _ _ => associatedBytes_injective⟩
  obtain ⟨call, made, rfl, own, _⟩ := open_authentic ideal opened
  obtain ⟨r, requested, sealing⟩ := mem_cipherCalls.mp made
  obtain ⟨t, client, _, transaction, owner, _, _, _, _, rfl⟩ := sealCall_ok sealing
  refine ⟨r, requested, t, client, transaction, owner, ?_, ?_⟩
  · exact seal_ok_iff.mpr ⟨_, sealing, rfl⟩
  · exact associatedBytes_injective (short client) (short ref) (collisionFree own)

/-! ## A sealed login

Two clients of one application, made from one key set, and the record that
AES-256-GCM makes under the key and nonce of zero bytes. -/

/-- A modulus of 2048 one bits, as a key set writes it. -/
def sampleModulus : Bytes := Base64Url.encodeToString (List.replicate 256 255)

def sampleJwks : Bytes :=
  ascii "\x7b\"keys\":[\x7b\"kty\":\"RSA\",\"kid\":\"k1\"," ++
  ascii "\"use\":\"sig\",\"alg\":\"RS256\",\"n\":\"" ++
    sampleModulus ++ ascii "\",\"e\":\"AQAB\"\x7d]\x7d"

def sampleVerifier : Verifier :=
  ⟨ascii "https://id.example", ascii "app", [(ascii "k1", sampleModulus)]⟩

def sampleClient (secret : Bytes) : LoginClient where
  configuration := ⟨ascii "https://id.example/authorize", ascii "https://id.example/token", [],
    some sampleVerifier, ⟨0⟩⟩
  verifier := sampleVerifier
  verifier_eq := rfl
  clientID := ascii "app"
  secret := secret
  redirectURI := ascii "https://app.example/cb"

def sampleClients (ref : ClientRef) : LoginClient := sampleClient [UInt8.ofNat ref]

def sampleDigest : Bytes :=
  [4, 118, 93, 6, 134, 121, 57, 173, 142, 129, 255, 49, 145, 60, 157, 82, 140, 15, 45, 76,
   128, 1, 87, 207, 216, 106, 45, 227, 164, 129, 161, 152]

/-- The digest of the verifier of the login below. -/
def sampleChallenge : Bytes :=
  [108, 29, 99, 187, 218, 180, 55, 197, 67, 104, 203, 189, 136, 134, 168, 134, 167, 154, 217,
   119, 41, 126, 38, 94, 235, 241, 245, 245, 240, 21, 51, 185]

/-- A compact token, signed with RS256 under the key of the set; the modulus is the product of the
first eleven Fermat numbers, all of which have been factored. -/
def sampleToken : Bytes :=
  ascii "eyJhbGciOiJSUzI1NiIsImtpZCI6ImsxIn0.eyJpc3MiOiJodHRwczovL2lkLmV4YW1wbGUiLCJzdWIi" ++
  ascii "OiJhbGljZSIsImF1ZCI6ImFwcCIsImV4cCI6MTc2NzIyNTkwMCwiaWF0IjoxNzY3MjI1NjAwLCJub25j" ++
  ascii "ZSI6IkFRRUJBUUVCQVFFQkFRRUJBUUVCQVFFQkFRRUJBUUVCQVFFQkFRRUJBUUUifQ.iA-" ++
  ascii "_uahG5XwcKH-iqBZTmgRduwEUEmYkEnkpzU90MRMUW2daIOsipVB6APTaCoS8PGnpe-" ++
  ascii "kIUygUQgbdS8enJsoONZ_ZubD3vit4ELNupDm47U9jxNLLidtBLi6etRoSoQR3_Q-JaT3dzAaDBZ7Q6S" ++
  ascii "GWdc7TtT706mAgkHlqPfrbdYTAHBwgPdEkMA7EtHQus8V5j2uPXXJanQgClcvjpoGvPIIcNnq7OWQbpj" ++
  ascii "CuybFxosXt7lKZXiUtsAaPYiJusEUGUtdPHReq1Cwu4eCMZo8gRHmo9ba_j1kVEYowBvlcmxbBkQ5obX" ++
  ascii "2XuyyAAR4TnUv4snOHwWTuKjquYuuRPg"

theorem length_sampleToken : sampleToken.length = 569 := by
  unfold sampleToken
  repeat rw [ascii_ofList]
  decide +kernel

/-- The response of the token endpoint. -/
def sampleBody : Bytes := ascii "\x7b\"id_token\":\"" ++ sampleToken ++ ascii "\"\x7d"

def sampleClaims : IdClaims :=
  ⟨ascii "https://id.example", ascii "alice", [ascii "app"], some 1767225900, none,
    some 1767225600, Base64Url.encodeToString (List.replicate 32 1), []⟩

/-- The header of the token and what the key makes of it. -/
def sampleParsed : ParsedToken :=
  ⟨[⟨ascii "RS256", ascii "k1", false, []⟩], fun key =>
    if key = sampleModulus then some sampleClaims else none⟩

/-- The outside world at the inputs that occur: plain URLs, two digests, one key set and one token
in a response. -/
def samplePlatform : Platform where
  parseUrl := UrlReferences.parse UrlReferences.plainRules
  renderUrl := fun u => u.scheme ++ ascii "://" ++ u.host ++ u.path
  parseQuery := fun _ _ => []
  encodeQuery := fun _ => []
  trimSpace := id
  equalFold := fun a b => a = b
  sha256 := pinnedDigest
    [(associatedBytes (ascii "https://id.example") (ascii "app") (ascii "https://app.example/cb"),
      sampleDigest),
      (Base64Url.encodeToString (List.replicate 32 2), sampleChallenge)] 32
  parseJwks := fun jwks =>
    if jwks = sampleJwks then
      some [⟨some sampleModulus, true, true, 2048, ascii "k1", ascii "RS256", ascii "sig", false⟩]
    else none
  parseSigned := fun raw => if raw = sampleToken then some sampleParsed else none
  unmarshalToken := fun body =>
    if body = sampleBody then some ⟨sampleToken, [], [], 0⟩ else none

theorem unmarshalToken_sampleBody :
    samplePlatform.unmarshalToken sampleBody = some ⟨sampleToken, [], [], 0⟩ := by
  simp only [samplePlatform, if_true]

theorem sampleParsed_claims : sampleParsed.claims sampleModulus = some sampleClaims := by
  simp only [sampleParsed, if_true]

theorem parseSigned_sampleToken :
    samplePlatform.parseSigned sampleToken = some sampleParsed := by
  simp only [samplePlatform, if_true]

/-- Created at the beginning of 2026. -/
def sampleLogin : Transaction where
  owner := some 0
  state := Base64Url.encodeToString (List.replicate 32 0)
  nonce := Base64Url.encodeToString (List.replicate 32 1)
  verifier := Base64Url.encodeToString (List.replicate 32 2)
  createdAt := ⟨(unixToInternal + 1767225600) * second⟩

def sampleNow : Time := sampleLogin.createdAt

def sampleCiphertext : Bytes :=
  [143, 230, 1, 124, 12, 33, 42, 47, 70, 15, 132, 146, 251, 178, 220, 89, 51, 33, 66, 139,
   118, 231, 107, 53, 144, 227, 180, 207, 52, 71, 116, 207, 156, 11, 240, 105, 12, 11, 160,
   58, 0, 169, 24, 101, 22, 73, 116, 182, 22, 4, 137, 160, 208, 254, 61, 113, 48, 57, 95,
   162, 250, 73, 120, 94, 129, 129, 205, 50, 112, 237, 111, 118, 49, 208, 238, 161, 16, 212,
   37, 225, 237, 234, 11, 241, 145, 139, 231, 74, 175, 255, 93, 1, 29, 29, 92, 202, 226, 185,
   54, 170, 39, 198, 155, 67, 22, 243, 252, 162, 172, 111, 189, 78, 243, 73, 160, 204, 97,
   116, 161, 148, 42, 196, 246, 105, 218, 84, 33, 117, 10, 122, 68, 201, 55, 53, 14, 177, 55,
   173, 222, 36, 211, 67, 237, 209, 80, 98, 234, 179, 59, 93, 152, 253, 58]

def sampleCodec : Codec where
  aead := pinnedAead ⟨List.replicate 12 0, plaintext sampleLogin, sampleDigest⟩ sampleCiphertext
    (by decide +kernel) (by decide +kernel)

def sampleNonce : {n : Bytes // n.length = 12} := ⟨List.replicate 12 0, rfl⟩

def sampleRecord : Bytes := 1 :: List.replicate 12 0 ++ sampleCiphertext

theorem sample_sealed : sampleCodec.seal samplePlatform sampleClients (some sampleLogin) false
    (sampleLogin.createdAt.add minute) (some sampleNonce) = .ok sampleRecord := by
  decide +kernel

/-- Another replica opens the record two minutes after the login began. -/
theorem open_seal_iff_replica :
    sampleRecord.length = 166 ∧
    ((∃ result, sampleCodec.open samplePlatform sampleClients 1 sampleRecord
        (sampleLogin.createdAt.add (2 * minute)) = .ok result) ↔
      sampleLogin.createdAt.ns ≠ 0 ∧
        sampleLogin.createdAt.ns ≤ (sampleLogin.createdAt.add (2 * minute)).ns + minute ∧
        (sampleLogin.createdAt.add (2 * minute)).ns - sampleLogin.createdAt.ns ≤ 5 * minute) ∧
    ∀ result, sampleCodec.open samplePlatform sampleClients 1 sampleRecord
        (sampleLogin.createdAt.add (2 * minute)) = .ok result →
      result = ({ sampleLogin with owner := some 1 }, false) :=
  @open_seal_iff samplePlatform sampleCodec sampleClients 0 1 sampleLogin rfl (by decide)
    ⟨rfl, rfl, rfl⟩ _ _ _ sample_sealed _

theorem samplePlatform_collisionFree : Function.Injective samplePlatform.sha256 := by
  refine pinnedDigest_injective ?_ ?_
  · simp only [List.forall_mem_cons, List.not_mem_nil, false_imp_iff, implies_true, and_true]
    decide
  · simp only [List.forall_mem_cons, List.not_mem_nil, false_imp_iff, implies_true, and_true]
    decide +kernel

def sampleRequest : SealRequest :=
  ⟨some sampleLogin, false, sampleLogin.createdAt.add minute, some sampleNonce⟩

/-- The replica's record was made by the application's one call of `Seal`. -/
theorem open_only_own_records_replica :
    (∃ r ∈ [sampleRequest], ∃ t client, r.transaction = some t ∧ t.owner = some client ∧
      sampleCodec.seal samplePlatform sampleClients r.transaction r.used r.now r.random =
        .ok sampleRecord ∧
      SameIdentity (sampleClients client) (sampleClients 1)) ∧
    ∀ i c u i' c' u', Short i c u → Short i' c' u' →
      associatedBytes i c u = associatedBytes i' c' u' → i = i' ∧ c = c' ∧ u = u' := by
  have short : ∀ ref, Short (sampleClients ref).verifier.issuer (sampleClients ref).clientID
      (sampleClients ref).redirectURI := by
    intro ref
    have sizes : Short (ascii "https://id.example") (ascii "app")
        (ascii "https://app.example/cb") := ⟨by decide, by decide, by decide⟩
    exact sizes
  have ideal : sampleCodec.aead.Authentic (cipherCalls samplePlatform sampleClients [sampleRequest])
      ((sampleRecord.drop 1).take 12) (sampleRecord.drop 13)
      (transactionAAD samplePlatform (sampleClients 1)) := by
    intro p _
    exact ⟨⟨List.replicate 12 0, plaintext sampleLogin, sampleDigest⟩, by decide +kernel,
      by decide +kernel, by decide +kernel, by decide +kernel⟩
  have opened : sampleCodec.open samplePlatform sampleClients 1 sampleRecord
      (sampleLogin.createdAt.add (2 * minute)) =
        .ok ({ sampleLogin with owner := some 1 }, false) := by
    decide +kernel
  exact open_only_own_records samplePlatform samplePlatform_collisionFree sampleCodec sampleClients
    short [sampleRequest] ideal opened

end SealedLogins
