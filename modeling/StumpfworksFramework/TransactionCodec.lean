import StumpfworksFramework.AuthenticatedEncryption
import StumpfworksFramework.OidcTransactions

/-!
# Sealed transactions

`Seal` writes state, nonce, verifier and creation instant at fixed offsets and
encrypts them, with a digest of issuer, client ID and redirect URI as
associated data; `Open` restores the transaction for a client. The cipher is
AES-256-GCM under one key: nonces of 12 bytes, ciphertexts 16 bytes longer than
the plaintext. A codec is never nil here and its cipher never missing.
-/

namespace TransactionCodec

open AuthenticatedEncryption ByteStrings Instants OidcClients OidcTransactions

def transactionFormatVersion : UInt8 := 1
def transactionPlainSize : Nat := 3 * 43 + 8
def transactionSealedSize : Nat := 1 + 12 + transactionPlainSize + 16

structure Codec where
  aead : Aead 12 16

def validTransactionFields (t : Transaction) : Bool :=
  (decodeBinding t.state).isSome && (decodeBinding t.nonce).isSome &&
    (decodeBinding t.verifier).isSome

def validTransactionTime (now createdAt : Time) : Bool :=
  !createdAt.isZero && !createdAt.after (now.add clockSkew) &&
    decide (now.sub createdAt ≤ transactionLifetime)

/-- The bytes that `transactionAAD` hashes; a length is truncated to 32 bits. -/
def associatedBytes (issuer clientID redirectURI : Bytes) : Bytes :=
  delimited 4 [issuer, clientID, redirectURI]

def transactionAAD (P : Platform) (client : LoginClient) : Bytes :=
  P.sha256 (associatedBytes client.verifier.issuer client.clientID client.redirectURI)

/-- `binary.BigEndian.PutUint64` of the Unix nanoseconds, converted to unsigned. -/
def timestamp (t : Time) : Bytes := bigEndian 8 (t.unixNano % 2 ^ 64).toNat

def plaintext (t : Transaction) : Bytes :=
  t.state ++ t.nonce ++ t.verifier ++ timestamp t.createdAt

/-- The fields of `Open`'s new transaction, cut out of the plaintext. -/
def restore (client : ClientRef) (plain : Bytes) : Transaction where
  owner := some client
  state := plain.take 43
  nonce := (plain.drop 43).take 43
  verifier := (plain.drop 86).take 43
  createdAt := Time.unix 0 (wrap64 (ofBigEndian (plain.drop 129)))

section Codec

variable (P : Platform) (codec : Codec) (clients : ClientRef → LoginClient)

/-- `Seal` up to its call of the cipher. -/
def sealCall (transaction : Option Transaction) (used : Bool) (now : Time)
    (random : Option {n : Bytes // n.length = 12}) : Except OidcError SealCall :=
  match transaction with
  | none => .error .errLoginFailed
  | some t =>
    match t.owner with
    | none => .error .errLoginFailed
    | some client =>
      if used = true ∨ validTransactionFields t = false then .error .errLoginFailed
      else if validTransactionTime now t.createdAt = false then .error .errLoginFailed
      else
        match random with
        | none => .error .errLoginFailed
        | some nonce => .ok ⟨nonce.val, plaintext t, transactionAAD P (clients client)⟩

/-- The record that carries the result of a call of the cipher. -/
def Codec.record (call : SealCall) : Bytes :=
  [transactionFormatVersion] ++ call.nonce ++
    codec.aead.sealBytes call.nonce call.plaintext call.additionalData

/-- `Seal`; without a random nonce the random source failed. -/
def Codec.seal (transaction : Option Transaction) (used : Bool) (now : Time)
    (random : Option {n : Bytes // n.length = 12}) : Except OidcError Bytes :=
  (sealCall P clients transaction used now random).map codec.record

/-- `Open` for the client at `ref`: the new transaction and its `used` flag. -/
def Codec.open (ref : ClientRef) (record : Bytes) (now : Time) :
    Except OidcError (Transaction × Bool) :=
  if record.length ≠ transactionSealedSize ∨ record.head? ≠ some transactionFormatVersion then
    .error .errLoginFailed
  else
    match codec.aead.openBytes ((record.drop 1).take 12) (record.drop 13)
        (transactionAAD P (clients ref)) with
    | none => .error .errLoginFailed
    | some plain =>
      if plain.length ≠ transactionPlainSize then .error .errLoginFailed
      else
        let t := restore ref plain
        if validTransactionFields t = false ∨ validTransactionTime now t.createdAt = false then
          .error .errLoginFailed
        else .ok (t, false)

end Codec

/-! ## What the operations do -/

section Inversion

variable {P : Platform} {codec : Codec} {clients : ClientRef → LoginClient}

theorem validTransactionFields_iff {t : Transaction} :
    validTransactionFields t = true ↔
      (∃ b, decodeBinding t.state = some b) ∧ (∃ b, decodeBinding t.nonce = some b) ∧
        ∃ b, decodeBinding t.verifier = some b := by
  simp [validTransactionFields, Option.isSome_iff_exists, and_assoc]

/-- The saturating difference decides the exact age. -/
theorem validTransactionTime_iff {now createdAt : Time} :
    validTransactionTime now createdAt = true ↔
      createdAt.ns ≠ 0 ∧ createdAt.ns ≤ now.ns + minute ∧
        now.ns - createdAt.ns ≤ 5 * minute := by
  have age := Time.sub_le_iff now createdAt (d := transactionLifetime) (by decide) (by decide)
  simp only [validTransactionTime, Bool.and_eq_true, decide_eq_true_eq, age, Bool.not_eq_true',
    Bool.eq_false_iff, ne_eq, Time.isZero_iff, Time.after_iff, Time.add_ns, not_lt, clockSkew,
    and_assoc]
  exact Iff.rfl

theorem sealCall_ok {transaction : Option Transaction} {used : Bool} {now : Time}
    {random : Option {n : Bytes // n.length = 12}} {call : SealCall}
    (made : sealCall P clients transaction used now random = .ok call) :
    ∃ t client nonce, transaction = some t ∧ t.owner = some client ∧ random = some nonce ∧
      used = false ∧ validTransactionFields t = true ∧
      validTransactionTime now t.createdAt = true ∧
      call = ⟨nonce.val, plaintext t, transactionAAD P (clients client)⟩ := by
  unfold sealCall at made
  split at made
  · cases made
  · rename_i t
    split at made
    · cases made
    · rename_i client owner
      split at made
      · cases made
      · rename_i proper
        split at made
        · cases made
        · rename_i timely
          split at made
          · cases made
          · rename_i nonce
            cases made
            simp only [not_or, Bool.not_eq_true, Bool.not_eq_false] at proper timely
            exact ⟨t, client, nonce, rfl, owner, rfl, proper.1, proper.2, timely, rfl⟩

theorem seal_ok_iff {transaction : Option Transaction} {used : Bool} {now : Time}
    {random : Option {n : Bytes // n.length = 12}} {record : Bytes} :
    codec.seal P clients transaction used now random = .ok record ↔
      ∃ call, sealCall P clients transaction used now random = .ok call ∧
        codec.record call = record := by
  unfold Codec.seal
  cases sealCall P clients transaction used now random with
  | error e => simp [Except.map]
  | ok call => simp [Except.map]

/-- Exactly when `Open` accepts a record, and what it returns then. -/
theorem open_ok_iff {ref : ClientRef} {record : Bytes} {now : Time} {result : Transaction × Bool} :
    codec.open P clients ref record now = .ok result ↔
      record.length = transactionSealedSize ∧ record.head? = some transactionFormatVersion ∧
      ∃ plain, codec.aead.openBytes ((record.drop 1).take 12) (record.drop 13)
          (transactionAAD P (clients ref)) = some plain ∧
        plain.length = transactionPlainSize ∧
        validTransactionFields (restore ref plain) = true ∧
        validTransactionTime now (restore ref plain).createdAt = true ∧
        result = (restore ref plain, false) := by
  unfold Codec.open
  split
  · rename_i malformed
    constructor
    · intro h
      cases h
    · rintro ⟨size, version, _⟩
      exact absurd malformed (by simp [size, version])
  · rename_i wellFormed
    simp only [not_or, not_not, ne_eq] at wellFormed
    split
    · rename_i refused
      constructor
      · intro h
        cases h
      · rintro ⟨_, _, plain, opened, _⟩
        rw [refused] at opened
        cases opened
    · rename_i plain opened
      simp only [wellFormed, opened, Option.some.injEq, true_and, exists_eq_left']
      by_cases size : plain.length = transactionPlainSize
      · simp only [size, ne_eq, not_true_eq_false, if_false, true_and]
        split
        · rename_i invalid
          constructor
          · intro h
            cases h
          · rintro ⟨fields, time, _⟩
            simp [fields, time] at invalid
        · rename_i valid
          simp only [not_or, Bool.not_eq_false] at valid
          simp [valid, eq_comm]
      · simp [size]

theorem decodeBinding_isSome_length {b : Bytes} (valid : ∃ bytes, decodeBinding b = some bytes) :
    b.length = 43 := by
  obtain ⟨bytes, h⟩ := valid
  exact decodeBinding_length h

theorem length_plaintext {t : Transaction} (fields : validTransactionFields t = true) :
    (plaintext t).length = transactionPlainSize := by
  obtain ⟨state, nonce, verifier⟩ := validTransactionFields_iff.mp fields
  simp [plaintext, timestamp, transactionPlainSize, decodeBinding_isSome_length state,
    decodeBinding_isSome_length nonce, decodeBinding_isSome_length verifier]

/-- The signed nanoseconds survive the conversion to unsigned and back. -/
theorem wrap64_unsigned (x : Int) : wrap64 ((x % 2 ^ 64).toNat : Int) = wrap64 x := by
  have nonneg : 0 ≤ x % 2 ^ 64 := Int.emod_nonneg x (by decide)
  rw [Int.toNat_of_nonneg nonneg]
  unfold wrap64
  omega

theorem unix_timestamp {t : Time} (range : t.NanoRange) :
    Time.unix 0 (wrap64 (ofBigEndian (timestamp t))) = t := by
  have small : (t.unixNano % 2 ^ 64).toNat < 256 ^ 8 := by omega
  have stays : wrap64 t.unixNano = t.unixNano := by
    unfold Time.unixNano
    rw [Time.wrap64_of_range range.1 range.2]
    exact Time.wrap64_of_range range.1 range.2
  rw [timestamp, ofBigEndian_bigEndian_of_lt small, wrap64_unsigned, stays,
    Time.unix_unixNano range]

/-- Cutting the plaintext of a transaction restores its fields. -/
theorem restore_plaintext {t : Transaction} (fields : validTransactionFields t = true)
    (ref : ClientRef) :
    restore ref (plaintext t) =
      { t with
        owner := some ref
        createdAt := Time.unix 0 (wrap64 (ofBigEndian (timestamp t.createdAt))) } := by
  obtain ⟨state, nonce, verifier⟩ := validTransactionFields_iff.mp fields
  have s := decodeBinding_isSome_length state
  have n := decodeBinding_isSome_length nonce
  have v := decodeBinding_isSome_length verifier
  have whole : plaintext t = t.state ++ (t.nonce ++ (t.verifier ++ timestamp t.createdAt)) := by
    rw [plaintext, List.append_assoc, List.append_assoc]
  have afterState : (plaintext t).drop 43 = t.nonce ++ (t.verifier ++ timestamp t.createdAt) := by
    rw [whole, List.drop_left' s]
  have afterNonce : (plaintext t).drop 86 = t.verifier ++ timestamp t.createdAt := by
    rw [show 86 = 43 + 43 from rfl, ← List.drop_drop, afterState, List.drop_left' n]
  have afterVerifier : (plaintext t).drop 129 = timestamp t.createdAt := by
    rw [show 129 = 86 + 43 from rfl, ← List.drop_drop, afterNonce, List.drop_left' v]
  have first : (plaintext t).take 43 = t.state := by
    rw [whole, List.take_left' s]
  simp only [restore, first, afterState, afterNonce, afterVerifier, List.take_left' n,
    List.take_left' v]

/-- A record is cut into the nonce and the ciphertext it was made of. -/
theorem record_parts (codec : Codec) {call : SealCall} (size : call.nonce.length = 12) :
    ((codec.record call).drop 1).take 12 = call.nonce ∧
      (codec.record call).drop 13 =
        codec.aead.sealBytes call.nonce call.plaintext call.additionalData := by
  have body : (codec.record call).drop 1 =
      call.nonce ++ codec.aead.sealBytes call.nonce call.plaintext call.additionalData := rfl
  refine ⟨?_, ?_⟩
  · rw [body, List.take_left' size]
  · rw [show 13 = 1 + 12 from rfl, ← List.drop_drop, body, List.drop_left' size]

theorem length_record (codec : Codec) {call : SealCall} (size : call.nonce.length = 12)
    (plain : call.plaintext.length = transactionPlainSize) :
    (codec.record call).length = transactionSealedSize := by
  simp [Codec.record, codec.aead.length_sealBytes, size, plain, transactionSealedSize]
  omega

theorem sealCall_sizes {transaction : Option Transaction} {used : Bool} {now : Time}
    {random : Option {n : Bytes // n.length = 12}} {call : SealCall}
    (made : sealCall P clients transaction used now random = .ok call) :
    call.nonce.length = 12 ∧ call.plaintext.length = transactionPlainSize := by
  obtain ⟨t, client, nonce, _, _, _, _, fields, _, rfl⟩ := sealCall_ok made
  exact ⟨nonce.property, length_plaintext fields⟩

end Inversion

end TransactionCodec
