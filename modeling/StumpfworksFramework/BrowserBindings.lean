import StumpfworksFramework.SealedLogins
import StumpfworksFramework.StoreRefinement

/-!
# Browser bindings and their one spelling

The browser's secret travels as a cookie, is filed as a hash, and has the same
form as the state, nonce and verifier of a transaction. `decodeBinding` decides
that form everywhere. Go's decoder of base64url skips line breaks and ignores
the unused bits of the last character, so several strings may stand for the same
bytes; what follows from the canonical check is stated for every operation that
accepts such a string.

`http.Cookie.Valid` is a parameter. An expiry instant, a domain and the fields
that only a received cookie has are never set and left out.
-/

namespace BrowserBindings

open AuthenticatedEncryption Base64Url ByteStrings FiniteMaps Instants OidcClients OidcTransactions
open Runs SealedLogins StoreRefinement TransactionCodec TransactionStore

/-! ## The cookie -/

/-- `NewBrowserBinding`. -/
def newBrowserBinding : Option Draw → Except OidcError Bytes := randomURLString

inductive SameSite where
  | defaultMode
  | laxMode
  | strictMode
  | noneMode
  deriving DecidableEq, Repr

structure Cookie where
  name : Bytes
  value : Bytes
  path : Bytes
  maxAge : Int
  secure : Bool
  httpOnly : Bool
  sameSite : SameSite
  deriving DecidableEq, Repr

section Cookie

variable (valid : Cookie → Bool)

def validateBindingCookie (cookie : Cookie) : Except OidcError Unit :=
  if (ascii "__Host-").isPrefixOf cookie.name = false then
    .error (.other "OIDC binding cookie requires __Host- prefix")
  else if valid cookie = false then .error (.other "invalid OIDC binding cookie name")
  else .ok ()

/-- A prepared cookie, handed out once it has passed the check. -/
def checkedCookie (cookie : Cookie) : Except OidcError Cookie :=
  match validateBindingCookie valid cookie with
  | .error e => .error e
  | .ok () => .ok cookie

def bindingCookie (name browserBinding : Bytes) : Except OidcError Cookie :=
  match decodeBinding browserBinding with
  | none => .error .errLoginFailed
  | some _ =>
    checkedCookie valid
      ⟨name, browserBinding, ascii "/", transactionLifetime / second, true, true, .laxMode⟩

def clearBindingCookie (name : Bytes) : Except OidcError Cookie :=
  checkedCookie valid ⟨name, [], ascii "/", -1, true, true, .laxMode⟩

variable {valid}

theorem checkedCookie_ok_iff {cookie result : Cookie} :
    checkedCookie valid cookie = .ok result ↔
      (ascii "__Host-").isPrefixOf cookie.name = true ∧ valid cookie = true ∧ cookie = result := by
  unfold checkedCookie validateBindingCookie
  by_cases hostOnly : (ascii "__Host-").isPrefixOf cookie.name = true
  · by_cases accepted : valid cookie = true
    · simp [hostOnly, accepted]
    · simp [hostOnly, accepted]
  · simp [hostOnly]

theorem bindingCookie_ok_iff {name browserBinding : Bytes} {cookie : Cookie} :
    bindingCookie valid name browserBinding = .ok cookie ↔
      (∃ decoded, decodeBinding browserBinding = some decoded) ∧
        checkedCookie valid ⟨name, browserBinding, ascii "/", transactionLifetime / second, true,
          true, .laxMode⟩ = .ok cookie := by
  unfold bindingCookie
  cases decodeBinding browserBinding with
  | none => simp
  | some decoded => simp

theorem bindingCookie_value {name browserBinding : Bytes} {cookie : Cookie}
    (made : bindingCookie valid name browserBinding = .ok cookie) :
    cookie.value = browserBinding := by
  obtain ⟨_, _, rfl⟩ := checkedCookie_ok_iff.mp (bindingCookie_ok_iff.mp made).2
  rfl

/-- Clearing reaches the cookie it is meant for: only the value and the age differ. -/
theorem clearBindingCookie_scope {name browserBinding : Bytes} {kept cleared : Cookie}
    (made : bindingCookie valid name browserBinding = .ok kept)
    (gone : clearBindingCookie valid name = .ok cleared) :
    cleared = { kept with value := [], maxAge := -1 } := by
  obtain ⟨_, _, rfl⟩ := checkedCookie_ok_iff.mp (bindingCookie_ok_iff.mp made).2
  obtain ⟨_, _, rfl⟩ := checkedCookie_ok_iff.mp gone
  rfl

end Cookie

theorem newBrowserBinding_ok {random : Option Draw} {browserBinding : Bytes}
    (drawn : newBrowserBinding random = .ok browserBinding) :
    ∃ draw, random = some draw ∧ decodeBinding browserBinding = some draw.val := by
  cases random with
  | none => cases drawn
  | some draw =>
    cases drawn
    exact ⟨draw, rfl, decodeBinding_eq_some_iff.mpr ⟨draw.property, rfl⟩⟩

/-! ## The store -/

section Store

variable {P : Platform} {txs : TxRef → Transaction}

theorem put_files {used : TxRef → Bool} {store : Store} {t : TxRef} {b : Bytes} {sawUsed : Bool}
    {pruneReading now : Time}
    (stored : (store.put P txs used (some t) b sawUsed pruneReading now).2 = .ok ()) :
    ∃ e, (store.put P txs used (some t) b sawUsed pruneReading now).1.entries.lookup
        (txs t).state = some e ∧ Files P e (t, b) := by
  rcases store.put_cases P txs used (some t) b sawUsed pruneReading now with
    ⟨failed, _⟩ | ⟨t', decoded, room, _, own, valid, _, _, _, _, _, entries⟩
  · rw [failed] at stored
    cases stored
  · cases own
    rw [entries, AList.lookup_insert]
    exact ⟨_, rfl, rfl, decoded, valid, rfl⟩

theorem files_spelling (apart : SecretsHashApart P) {e : PendingEntry} {t t' : TxRef} {b b' : Bytes}
    (files : Files P e (t, b)) (files' : Files P e (t', b')) : b = b' := by
  obtain ⟨_, decoded, valid, hash⟩ := files
  exact (files'.opens_iff apart valid).mp hash.symm

theorem returned_of_step {s : State} {state b : Bytes} {now : Time} {raced : Bool} {t : TxRef}
    (returned : (step P txs s (.take state b now raced)).2 = .returned t) :
    (s.store.take P txs s.used state b now raced).2.2 = .ok t := by
  simp only [step] at returned
  cases taken : (s.store.take P txs s.used state b now raced).2.2 with
  | error e =>
    rw [taken] at returned
    cases returned
  | ok t' =>
    rw [taken] at returned
    cases returned
    rfl

/-- A filed transaction is handed out against the string it was filed with and no other. With
another string an entry stays as it is, unless it is dead anyway. -/
theorem take_own_spelling (apart : SecretsHashApart P) {e : PendingEntry} {t : TxRef}
    {b b' state : Bytes} (files : Files P e (t, b)) {used : TxRef → Bool} {store : Store}
    (found : store.entries.lookup state = some e) {now : Time} {raced : Bool} :
    (∀ t', (store.take P txs used state b' now raced).2.2 = .ok t' → b' = b ∧ t' = t) ∧
      (b' ≠ b → expired txs now t = false → used t = false →
        store.take P txs used state b' now raced = (store, used, .error .errLoginFailed)) := by
  have held : e.transaction = t := files.1
  rcases store.take_cases P txs used state b' now raced with
    same | ⟨e', found', _, dead, same⟩ | ⟨e', decoded, found', valid, hash, ended⟩
  · rw [same]
    refine ⟨fun t' returned => ?_, fun _ _ _ => rfl⟩
    cases returned
  · rw [found] at found'
    cases found'
    rw [held] at dead
    refine ⟨fun t' returned => ?_, fun _ fresh unused => ?_⟩
    · rw [same] at returned
      cases returned
    · rw [fresh, unused] at dead
      simp at dead
  · rw [found] at found'
    cases found'
    have own : b' = b := (files.opens_iff apart valid).mp hash
    refine ⟨fun t' returned => ⟨own, ?_⟩, fun other => absurd own other⟩
    rcases ended with ⟨_, same⟩ | ⟨_, same⟩
    · rw [same] at returned
      cases returned
    · rw [same] at returned
      cases returned
      exact held

end Store

/-! ## Sealed transactions -/

/-- The strings of two transactions are the same, byte for byte. -/
def SameStrings (t t' : Transaction) : Prop :=
  t.state = t'.state ∧ t.nonce = t'.nonce ∧ t.verifier = t'.verifier

/-- The strings of two transactions stand for the same bytes. -/
def SameBytes (t t' : Transaction) : Prop :=
  decodeBinding t.state = decodeBinding t'.state ∧
    decodeBinding t.nonce = decodeBinding t'.nonce ∧
    decodeBinding t.verifier = decodeBinding t'.verifier

theorem spelling_unique {a b : Bytes} (valid : ∃ bytes, decodeBinding a = some bytes)
    (same : decodeBinding a = decodeBinding b) : a = b := by
  obtain ⟨bytes, h⟩ := valid
  exact decodeBinding_injective h (same.symm.trans h)

theorem sameStrings_of_sameBytes {t t' : Transaction} (fields : validTransactionFields t = true)
    (same : SameBytes t t') : SameStrings t t' := by
  obtain ⟨state, nonce, verifier⟩ := validTransactionFields_iff.mp fields
  exact ⟨spelling_unique state same.1, spelling_unique nonce same.2.1,
    spelling_unique verifier same.2.2⟩

theorem sameStrings_of_plaintext {t t' : Transaction} (fields : validTransactionFields t = true)
    (fields' : validTransactionFields t' = true) (same : plaintext t = plaintext t') :
    SameStrings t t' := by
  have restored : restore 0 (plaintext t) = restore 0 (plaintext t') := by rw [same]
  rw [restore_plaintext fields, restore_plaintext fields'] at restored
  injection restored with _ state nonce verifier _
  exact ⟨state, nonce, verifier⟩

section Codec

variable {P : Platform} {codec : Codec} {clients : ClientRef → LoginClient}

theorem sealCall_fields {t : Transaction} {used : Bool} {now : Time}
    {random : Option {n : Bytes // n.length = 12}} {call : SealCall}
    (made : sealCall P clients (some t) used now random = .ok call) :
    validTransactionFields t = true ∧ call.plaintext = plaintext t ∧
      ∃ client, t.owner = some client ∧
        call.additionalData = transactionAAD P (clients client) := by
  obtain ⟨t', client, nonce, own, owner, _, _, fields, _, rfl⟩ := sealCall_ok made
  cases own
  exact ⟨fields, rfl, client, owner, rfl⟩

/-- Under one digest of the client a record determines its plaintext. -/
theorem record_plaintext {call call' : SealCall} (size : call.nonce.length = 12)
    (size' : call'.nonce.length = 12) (digest : call.additionalData = call'.additionalData)
    (same : codec.record call = codec.record call') : call.plaintext = call'.plaintext := by
  obtain ⟨nonce, body⟩ := record_parts codec size
  obtain ⟨nonce', body'⟩ := record_parts codec size'
  rw [same] at nonce body
  have nonces : call.nonce = call'.nonce := nonce.symm.trans nonce'
  have opened := codec.aead.open_sealBytes call.nonce call.plaintext call.additionalData size
  rw [← body, body', nonces, digest, codec.aead.open_sealBytes _ _ _ size'] at opened
  exact (Option.some.inj opened).symm

theorem sealCall_spelling {t t' : Transaction} {used used' : Bool} {now now' : Time}
    {random random' : Option {n : Bytes // n.length = 12}} {call call' : SealCall}
    (made : sealCall P clients (some t) used now random = .ok call)
    (made' : sealCall P clients (some t') used' now' random' = .ok call')
    (same : call.plaintext = call'.plaintext) : SameStrings t t' := by
  obtain ⟨fields, plain, _⟩ := sealCall_fields made
  obtain ⟨fields', plain', _⟩ := sealCall_fields made'
  rw [plain, plain'] at same
  exact sameStrings_of_plaintext fields fields' same

/-- One record for two transactions of one client carries one set of strings. -/
theorem seal_spelling {t t' : Transaction} (owners : t.owner = t'.owner) {used used' : Bool}
    {now now' : Time} {random random' : Option {n : Bytes // n.length = 12}} {record : Bytes}
    (sealed : codec.seal P clients (some t) used now random = .ok record)
    (sealed' : codec.seal P clients (some t') used' now' random' = .ok record) :
    SameStrings t t' := by
  obtain ⟨call, made, own⟩ := seal_ok_iff.mp sealed
  obtain ⟨call', made', own'⟩ := seal_ok_iff.mp sealed'
  obtain ⟨_, _, client, owner, digest⟩ := sealCall_fields made
  obtain ⟨_, _, client', owner', digest'⟩ := sealCall_fields made'
  have clients_eq : client = client' := by
    rw [owner, owner'] at owners
    exact Option.some.inj owners
  subst clients_eq
  refine sealCall_spelling made made' ?_
  exact record_plaintext (sealCall_sizes made).1 (sealCall_sizes made').1
    (digest.trans digest'.symm) (own.trans own'.symm)

theorem open_fields {ref : ClientRef} {record : Bytes} {now : Time} {t : Transaction} {flag : Bool}
    (opened : codec.open P clients ref record now = .ok (t, flag)) :
    validTransactionFields t = true := by
  obtain ⟨_, _, plain, _, _, fields, _, result⟩ := open_ok_iff.mp opened
  cases result
  exact fields

end Codec

/-! ## One spelling -/

/-- What is accepted as 32 random bytes has one spelling, for `decodeBinding` itself and for
every operation that relies on it. -/
structure OneSpelling (P : Platform) (valid : Cookie → Bool) (txs : TxRef → Transaction)
    (codec : Codec) (clients : ClientRef → LoginClient) : Prop where
  canonical : ∀ s b, decodeBinding s = some b ↔ b.length = 32 ∧ s = encodeToString b
  unique : ∀ s s' b, decodeBinding s = some b → decodeBinding s' = some b → s = s'
  drawn : ∀ random s, newBrowserBinding random = .ok s →
    ∃ draw, random = some draw ∧ decodeBinding s = some draw.val
  cookie : ∀ name name' s s' c c', bindingCookie valid name s = .ok c →
    bindingCookie valid name' s' = .ok c' →
      (∃ b, decodeBinding s = some b) ∧ (c.value = c'.value → s = s') ∧
        (decodeBinding s = decodeBinding s' → s = s')
  /-- Equal entries were filed with equal strings, whatever else the two calls differ in. -/
  put : SecretsHashApart P → ∀ store used t s sawUsed pruneReading now,
    (Store.put P txs used store (some t) s sawUsed pruneReading now).2 = .ok () →
    ∀ store' used' t' s' sawUsed' pruneReading' now',
      (Store.put P txs used' store' (some t') s' sawUsed' pruneReading' now').2 = .ok () →
      (Store.put P txs used store (some t) s sawUsed pruneReading now).1.entries.lookup
          (txs t).state =
        (Store.put P txs used' store' (some t') s' sawUsed' pruneReading' now').1.entries.lookup
          (txs t').state → s = s'
  /-- As long as the entry that a `Put` filed is there, `Take` opens it with that very string. -/
  take : SecretsHashApart P → ∀ store used t s sawUsed pruneReading now,
    (Store.put P txs used store (some t) s sawUsed pruneReading now).2 = .ok () →
    ∀ later : Store, later.entries.lookup (txs t).state =
        (Store.put P txs used store (some t) s sawUsed pruneReading now).1.entries.lookup
          (txs t).state →
    ∀ used' s' now' raced,
      (∀ t', (later.take P txs used' (txs t).state s' now' raced).2.2 = .ok t' →
        s' = s ∧ t' = t) ∧
      (s' ≠ s → expired txs now' t = false → used' t = false →
        later.take P txs used' (txs t).state s' now' raced =
          (later, used', .error .errLoginFailed))
  /-- In a run from a new store every entry was filed with a string that alone opens it. -/
  entry : SecretsHashApart P → ∀ capacity store used h s,
    newTransactionStore capacity = .ok store →
    Run (step P txs) (fun _ _ => True) ⟨store, used⟩ h s →
    ∀ k e, s.store.entries.lookup k = some e → ∃ b, StoredWith txs h k e.transaction b ∧
      ∀ b' now raced t, (step P txs s (.take k b' now raced)).2 = .returned t → b' = b
  sealed : ∀ t t' used used' now now' random random',
    (∀ call call', sealCall P clients (some t) used now random = .ok call →
      sealCall P clients (some t') used' now' random' = .ok call' →
        call.plaintext = call'.plaintext ∨ SameBytes t t' → SameStrings t t') ∧
    (∀ record, codec.seal P clients (some t) used now random = .ok record →
      codec.seal P clients (some t') used' now' random' = .ok record →
        t.owner = t'.owner → SameStrings t t')
  opened : ∀ ref ref' record record' now now' t t' flag flag',
    codec.open P clients ref record now = .ok (t, flag) →
    codec.open P clients ref' record' now' = .ok (t', flag') →
      SameBytes t t' → SameStrings t t'

theorem bindings_have_one_spelling (P : Platform) (valid : Cookie → Bool)
    (txs : TxRef → Transaction) (codec : Codec) (clients : ClientRef → LoginClient) :
    OneSpelling P valid txs codec clients where
  canonical s b := by
    rw [decodeBinding_eq_some_iff, eq_comm (a := s)]
  unique s s' b h h' := decodeBinding_injective h h'
  drawn random s made := newBrowserBinding_ok made
  cookie name name' s s' c c' made made' := by
    have accepted := (bindingCookie_ok_iff.mp made).1
    refine ⟨accepted, fun same => ?_, spelling_unique accepted⟩
    rw [bindingCookie_value made, bindingCookie_value made'] at same
    exact same
  put apart store used t s sawUsed pruneReading now stored
      store' used' t' s' sawUsed' pruneReading' now' stored' same := by
    obtain ⟨e, found, files⟩ := put_files stored
    obtain ⟨e', found', files'⟩ := put_files stored'
    rw [found, found', Option.some.injEq] at same
    subst same
    exact files_spelling apart files files'
  take apart store used t s sawUsed pruneReading now stored later still used' s' now' raced := by
    obtain ⟨e, found, files⟩ := put_files stored
    exact take_own_spelling apart files (still.trans found)
  entry apart capacity store used h s made run k e found := by
    obtain ⟨_, _, l, behind⟩ := run_behind apart made used run
    obtain ⟨b, held, files⟩ := behind.agrees.entry found
    refine ⟨b, behind.stored held, fun b' now raced t returned => ?_⟩
    exact ((take_own_spelling apart files found).1 t (returned_of_step returned)).1
  sealed t t' used used' now now' random random' := by
    refine ⟨fun call call' made made' same => ?_, fun record made made' owners =>
      seal_spelling owners made made'⟩
    rcases same with same | same
    · exact sealCall_spelling made made' same
    · exact sameStrings_of_sameBytes (sealCall_fields made).1 same
  opened ref ref' record record' now now' t t' flag flag' made _ same :=
    sameStrings_of_sameBytes (open_fields made) same

/-- The secret of 32 zero bytes is spelled `AAA…`. The decoder reads the same bytes out of
`AAA…B`, and drops a line break, but neither string is accepted. -/
theorem bindings_have_one_spelling_zero :
    let zeros : Bytes := List.replicate 32 0
    let spelling : Bytes := List.replicate 43 65
    let txs : TxRef → Transaction := fun _ => pendingLogin
    let empty : Store := ⟨1, ∅, Nat.zero_le _⟩
    let filed := (empty.put zeroSecretPlatform txs (fun _ => false) (some 0) spelling false ⟨0⟩
      ⟨minute⟩).1
    newBrowserBinding (some ⟨zeros, rfl⟩) = .ok spelling ∧
      decodeString (List.replicate 42 65 ++ [66]) = some zeros ∧
      decodeBinding (List.replicate 42 65 ++ [66]) = none ∧
      decodeString (spelling ++ [10]) = some zeros ∧ decodeBinding (spelling ++ [10]) = none ∧
      (∀ s, decodeBinding s = some zeros ↔ s = spelling) ∧
      (filed.take zeroSecretPlatform txs (fun _ => false) pendingLogin.state spelling
        ⟨3 * minute⟩ false).2.2 = .ok 0 ∧
      ∀ s t, (filed.take zeroSecretPlatform txs (fun _ => false) pendingLogin.state s
        ⟨3 * minute⟩ false).2.2 = .ok t → s = spelling := by
  intro zeros spelling txs empty filed
  have one := bindings_have_one_spelling zeroSecretPlatform (fun _ => true) txs sampleCodec
    sampleClients
  have stored : (empty.put zeroSecretPlatform txs (fun _ => false) (some 0) spelling false ⟨0⟩
      ⟨minute⟩).2 = .ok () := by decide +kernel
  have accepted : decodeBinding spelling = some zeros := by decide +kernel
  refine ⟨by decide +kernel, by decide +kernel, by decide +kernel, by decide +kernel,
    by decide +kernel, fun s => ⟨fun h => one.unique _ _ _ h accepted, ?_⟩, by decide +kernel, ?_⟩
  · rintro rfl
    exact accepted
  · intro s t returned
    exact ((one.take zeroSecretPlatform_apart _ _ _ _ _ _ _ stored filed rfl _ _ _ _).1 t
      returned).1

end BrowserBindings
