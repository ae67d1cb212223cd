import Mathlib.Data.Nat.Digits.Defs
import StumpfworksFramework.HexText
import StumpfworksFramework.Instants

/-!
# Verified certificates

`VerifyIssued` and `VerifiedPeer` with their checks and errors. A certificate is
handed over as a value whose fields the caller could have changed, so both parse
its encoding again and look at nothing else. What `crypto/x509` does is a
parameter, apart from the defaults of its verifier, which are written out: without
roots it takes those of the system, at the zero time the current time, and without
usages those of a server.
-/

namespace PeerCertificates

open ByteStrings HexText Instants

/-! ## Certificates and the library -/

inductive ExtKeyUsage where
  | anyUsage
  | serverAuth
  | clientAuth
  | other (code : Nat)
  deriving DecidableEq, Repr

/-- The fields that are read. Pointers may be nil; addresses and URIs are given by their text. -/
structure Certificate (κ : Type) where
  raw : Bytes
  serialNumber : Option Int
  notBefore : Time
  notAfter : Time
  extKeyUsage : List ExtKeyUsage
  publicKey : κ
  uris : List (Option Bytes)
  dnsNames : List Bytes
  emailAddresses : List Bytes
  ipAddresses : List Bytes

abbrev CertPool (κ : Type) := List (Certificate κ)

/-- The options of the verifier, all of them given. -/
structure Chosen (κ : Type) where
  roots : CertPool κ
  intermediates : CertPool κ
  currentTime : Time
  keyUsages : List ExtKeyUsage
  dnsName : Bytes

/-- Functions of `crypto/x509` and `crypto/sha256`; `chains` is the verifier with every option
given. -/
structure Library (κ : Type) where
  parseCertificate : Bytes → Option (Certificate κ)
  parsePKIXPublicKey : Bytes → Option κ
  marshalPKIXPublicKey : κ → Option Bytes
  verifyHostname : Certificate κ → Bytes → Bool
  chains : Certificate κ → Chosen κ → Option (List (List (Certificate κ)))
  sha256 : Bytes → Bytes

/-- What the process has besides its arguments. -/
structure Ambient (κ : Type) where
  systemRoots : CertPool κ
  clock : Time

structure VerifyOptions (κ : Type) where
  roots : Option (CertPool κ)
  intermediates : Option (CertPool κ)
  currentTime : Time
  keyUsages : List ExtKeyUsage
  dnsName : Bytes

structure Metadata where
  fingerprintSHA256 : Bytes
  serial : Bytes
  notBefore : Time
  notAfter : Time
  uris : List Bytes
  dnsNames : List Bytes
  emailAddresses : List Bytes
  ipAddresses : List Bytes
  deriving DecidableEq, Repr

structure PeerOptions where
  now : Time
  usage : ExtKeyUsage
  dnsName : Bytes
  deriving DecidableEq, Repr

structure IssuedOptions (κ : Type) extends PeerOptions where
  roots : Option (CertPool κ)
  intermediates : Option (CertPool κ)
  expectedPublicKeyDER : Bytes
  pinnedRoot : Option (Certificate κ)

/-- Certificates of a handshake, with nil pointers. -/
structure ConnectionState (κ : Type) where
  peerCertificates : List (Option (Certificate κ))
  verifiedChains : List (List (Option (Certificate κ)))

inductive Failure where
  | errInvalidInput
  | errUnverifiedPeer
  | errCertificateRejected
  | errKeyMismatch
  | errPinMismatch
  deriving DecidableEq, Repr

def maxCertificateBytes : Nat := 1 <<< 20
def maxIdentities : Nat := 128

/-! ## The checks -/

/-- `big.Int.Text(16)`. -/
def hexNumber : Int → Bytes
  | .ofNat n => if n = 0 then [48] else (Nat.digits 16 n).reverse.map (lowerDigit ∘ UInt8.ofNat)
  | .negSucc n => 45 :: (Nat.digits 16 (n + 1)).reverse.map (lowerDigit ∘ UInt8.ofNat)

section Checks

variable {κ : Type} (X : Library κ)

/-- `Certificate.Verify` with the defaults it puts in. -/
def verify (A : Ambient κ) (leaf : Certificate κ) (o : VerifyOptions κ) :
    Option (List (List (Certificate κ))) :=
  X.chains leaf
    ⟨o.roots.getD A.systemRoots, o.intermediates.getD [],
      if o.currentTime.isZero then A.clock else o.currentTime,
      if o.keyUsages = [] then [.serverAuth] else o.keyUsages, o.dnsName⟩

def validOptions (o : PeerOptions) : Bool :=
  o.now.isZero = false ∧ (o.usage = .clientAuth ∨ o.usage = .serverAuth) ∧
    (o.usage ≠ .serverAuth ∨ o.dnsName ≠ [])

def canonical (c : Option (Certificate κ)) : Except Failure (Certificate κ) :=
  match c with
  | none => .error .errInvalidInput
  | some c =>
    if c.raw.length = 0 ∨ c.raw.length > maxCertificateBytes then .error .errInvalidInput
    else
      match X.parseCertificate c.raw with
      | none => .error .errInvalidInput
      | some leaf => .ok leaf

def validLeaf (c : Certificate κ) (o : PeerOptions) : Bool :=
  match c.serialNumber with
  | none => false
  | some serial =>
    if serial ≤ 0 ∨ o.now.before c.notBefore ∨ o.now.after c.notAfter then false
    else if c.extKeyUsage.foldl (fun explicit usage => explicit || usage == o.usage) false = false
    then false
    else o.dnsName == [] || X.verifyHostname c o.dnsName

/-- The loop over the URIs. -/
def uriTexts : List (Option Bytes) → Except Failure (List Bytes)
  | [] => .ok []
  | none :: _ => .error .errCertificateRejected
  | some uri :: rest =>
    match uriTexts rest with
    | .error e => .error e
    | .ok texts => .ok (uri :: texts)

/-- The callers have checked that there is a serial number. -/
def metadata (c : Certificate κ) : Except Failure Metadata :=
  if c.uris.length + c.dnsNames.length + c.emailAddresses.length + c.ipAddresses.length >
      maxIdentities then .error .errCertificateRejected
  else
    match uriTexts c.uris with
    | .error e => .error e
    | .ok uris =>
      .ok ⟨hexEncode (X.sha256 c.raw), hexNumber (c.serialNumber.getD 0), c.notBefore, c.notAfter,
        uris, c.dnsNames, c.emailAddresses, c.ipAddresses⟩

/-- The first certificate of the peer and of the first verified chain, if neither is missing. -/
def evidence : Option (ConnectionState κ) → Option (Certificate κ × Certificate κ)
  | some ⟨some peer :: _, (some first :: _) :: _⟩ => some (peer, first)
  | _ => none

def verifiedPeer (state : Option (ConnectionState κ)) (o : PeerOptions) :
    Except Failure Metadata :=
  if validOptions o = false then .error .errInvalidInput
  else
    match evidence state with
    | none => .error .errUnverifiedPeer
    | some (peer, first) =>
      if peer.raw ≠ first.raw then .error .errUnverifiedPeer
      else
        match canonical X (some peer) with
        | .error e => .error e
        | .ok leaf =>
          if validLeaf X leaf o = false then .error .errCertificateRejected else metadata X leaf

/-- The loop over the verified chains. -/
def pinned (want : Bytes) (chains : List (List (Certificate κ))) : Bool :=
  chains.foldl (fun found chain =>
    match chain.getLast? with
    | none => found
    | some root => found || X.sha256 root.raw == want) false

def checkPin (pinnedRoot : Option (Certificate κ)) (chains : List (List (Certificate κ))) :
    Except Failure Unit :=
  match pinnedRoot with
  | none => .ok ()
  | some root =>
    match canonical X (some root) with
    | .error _ => .error .errInvalidInput
    | .ok pin =>
      if pinned X (X.sha256 pin.raw) chains = false then .error .errPinMismatch else .ok ()

def verifyIssued (A : Ambient κ) (certificate : Option (Certificate κ)) (o : IssuedOptions κ) :
    Except Failure Metadata :=
  if validOptions o.toPeerOptions = false ∨ o.roots = none ∨ o.expectedPublicKeyDER.length = 0 ∨
      o.expectedPublicKeyDER.length > maxCertificateBytes then .error .errInvalidInput
  else
    match (X.parsePKIXPublicKey o.expectedPublicKeyDER).bind X.marshalPKIXPublicKey with
    | none => .error .errInvalidInput
    | some expectedDER =>
      match canonical X certificate with
      | .error e => .error e
      | .ok leaf =>
        if validLeaf X leaf o.toPeerOptions = false then .error .errCertificateRejected
        else
          match X.marshalPKIXPublicKey leaf.publicKey with
          | none => .error .errCertificateRejected
          | some actualDER =>
            if actualDER ≠ expectedDER then .error .errKeyMismatch
            else
              match verify X A leaf ⟨o.roots, o.intermediates, o.now, [o.usage], o.dnsName⟩ with
              | none => .error .errCertificateRejected
              | some chains =>
                match checkPin X o.pinnedRoot chains with
                | .error e => .error e
                | .ok _ => metadata X leaf

end Checks

/-! ## What acceptance means -/

section Acceptance

variable {κ : Type} {X : Library κ}

/-- A leaf that is valid at the time, made for the usage by name, and for the host if one is
given. -/
structure Suits (X : Library κ) (leaf : Certificate κ) (o : PeerOptions) : Prop where
  serial : ∃ serial, leaf.serialNumber = some serial ∧ 0 < serial
  fresh : leaf.notBefore.ns ≤ o.now.ns ∧ o.now.ns ≤ leaf.notAfter.ns
  usage : o.usage ∈ leaf.extKeyUsage
  host : o.dnsName ≠ [] → X.verifyHostname leaf o.dnsName = true

/-- The metadata are those of the leaf, which has at most 128 identities and no missing URI. -/
structure Describes (X : Library κ) (m : Metadata) (leaf : Certificate κ) : Prop where
  few : leaf.uris.length + leaf.dnsNames.length + leaf.emailAddresses.length +
    leaf.ipAddresses.length ≤ 128
  fingerprint : m.fingerprintSHA256 = hexEncode (X.sha256 leaf.raw)
  serial : m.serial = hexNumber (leaf.serialNumber.getD 0)
  validity : m.notBefore = leaf.notBefore ∧ m.notAfter = leaf.notAfter
  uris : leaf.uris = m.uris.map some
  names : m.dnsNames = leaf.dnsNames ∧ m.emailAddresses = leaf.emailAddresses ∧
    m.ipAddresses = leaf.ipAddresses

/-- An encoding whose leaf suits valid options and has these metadata. -/
structure Acceptable (X : Library κ) (der : Bytes) (o : PeerOptions) (leaf : Certificate κ)
    (m : Metadata) : Prop where
  clock : o.now.ns ≠ 0
  purpose : o.usage = .clientAuth ∨ (o.usage = .serverAuth ∧ o.dnsName ≠ [])
  size : 1 ≤ der.length ∧ der.length ≤ 2 ^ 20
  parsed : X.parseCertificate der = some leaf
  suits : Suits X leaf o
  describes : Describes X m leaf

theorem foldl_or_iff {α : Type} (p : α → Bool) (l : List α) (b : Bool) :
    l.foldl (fun found a => found || p a) b = true ↔ b = true ∨ ∃ a ∈ l, p a = true := by
  induction l generalizing b with
  | nil => simp
  | cons a rest ih =>
    rw [List.foldl_cons, ih, Bool.or_eq_true]
    simp [or_assoc]

theorem validOptions_iff (o : PeerOptions) :
    validOptions o = true ↔ o.now.ns ≠ 0 ∧
      (o.usage = .clientAuth ∨ (o.usage = .serverAuth ∧ o.dnsName ≠ [])) := by
  simp only [validOptions, decide_eq_true_eq, Bool.eq_false_iff, ne_eq, Time.isZero_iff]
  constructor
  · rintro ⟨clock, client | server, named⟩
    · exact ⟨clock, .inl client⟩
    · exact ⟨clock, .inr ⟨server, named.resolve_left (not_not.mpr server)⟩⟩
  · rintro ⟨clock, client | ⟨server, named⟩⟩
    · refine ⟨clock, .inl client, .inl ?_⟩
      rw [client]
      decide
    · exact ⟨clock, .inr server, .inr named⟩

theorem validLeaf_iff (leaf : Certificate κ) (o : PeerOptions) :
    validLeaf X leaf o = true ↔ Suits X leaf o := by
  unfold validLeaf
  constructor
  · intro valid
    split at valid
    · cases valid
    rename_i serial given
    split at valid
    · cases valid
    rename_i timely
    split at valid
    · cases valid
    rename_i explicit
    simp only [not_or, Time.before_iff, Time.after_iff, not_lt, not_le] at timely
    obtain ⟨listed, mem, same⟩ :=
      ((foldl_or_iff _ _ _).mp (Bool.eq_true_of_not_eq_false explicit)).resolve_left
        Bool.false_ne_true
    refine ⟨⟨serial, given, timely.1⟩, timely.2, ?_, ?_⟩
    · exact (beq_iff_eq.mp same) ▸ mem
    · intro named
      simpa [named] using valid
  · rintro ⟨⟨serial, given, positive⟩, fresh, usage, host⟩
    rw [given]
    have timely : ¬(serial ≤ 0 ∨ o.now.before leaf.notBefore = true ∨
        o.now.after leaf.notAfter = true) := by
      simp only [not_or, Time.before_iff, Time.after_iff, not_lt, not_le]
      exact ⟨positive, fresh⟩
    have explicit : leaf.extKeyUsage.foldl (fun explicit usage => explicit || usage == o.usage)
        false = true :=
      (foldl_or_iff _ _ _).mpr (.inr ⟨o.usage, usage, beq_self_eq_true _⟩)
    simp only [if_neg timely, explicit, Bool.true_eq_false, if_false, Bool.or_eq_true,
      beq_iff_eq]
    by_cases named : o.dnsName = []
    · exact .inl named
    · exact .inr (host named)

theorem uriTexts_ok_iff {uris : List (Option Bytes)} {texts : List Bytes} :
    uriTexts uris = .ok texts ↔ uris = texts.map some := by
  induction uris generalizing texts with
  | nil =>
    rw [uriTexts, Except.ok.injEq, List.nil_eq, List.nil_eq, List.map_eq_nil_iff]
  | cons uri rest ih =>
    rcases uri with _ | uri
    · rw [uriTexts]
      refine ⟨nofun, ?_⟩
      rcases texts with _ | ⟨text, texts⟩
      · simp
      · simp
    · rw [uriTexts]
      constructor
      · intro ok
        split at ok
        · cases ok
        · rename_i found decoded
          cases ok
          rw [ih.mp decoded]
          rfl
      · intro same
        rcases texts with _ | ⟨text, texts⟩
        · cases same
        · rw [List.map_cons, List.cons.injEq, Option.some.injEq] at same
          rw [ih.mpr same.2, same.1]

theorem metadata_ok_iff (leaf : Certificate κ) (m : Metadata) :
    metadata X leaf = .ok m ↔ Describes X m leaf := by
  unfold metadata
  constructor
  · intro ok
    split at ok
    · cases ok
    rename_i few
    split at ok
    · cases ok
    rename_i texts decoded
    cases ok
    exact ⟨not_lt.mp few, rfl, rfl, ⟨rfl, rfl⟩, uriTexts_ok_iff.mp decoded, rfl, rfl, rfl⟩
  · rintro ⟨few, fingerprint, serial, ⟨notBefore, notAfter⟩, uris, dns, email, ip⟩
    obtain ⟨_, _, _, _, texts, _, _, _⟩ := m
    dsimp only at *
    subst fingerprint serial notBefore notAfter dns email ip
    have below : ¬leaf.uris.length + leaf.dnsNames.length + leaf.emailAddresses.length +
        leaf.ipAddresses.length > maxIdentities := not_lt.mpr few
    rw [if_neg below, uriTexts_ok_iff.mpr uris]

theorem canonical_ok_iff (c : Certificate κ) (leaf : Certificate κ) :
    canonical X (some c) = .ok leaf ↔
      (1 ≤ c.raw.length ∧ c.raw.length ≤ 2 ^ 20) ∧ X.parseCertificate c.raw = some leaf := by
  have limit : maxCertificateBytes = 2 ^ 20 := by decide
  simp only [canonical, limit]
  constructor
  · intro ok
    split at ok
    · cases ok
    rename_i size
    split at ok
    · cases ok
    rename_i parsed
    cases ok
    exact ⟨by omega, parsed⟩
  · rintro ⟨size, parsed⟩
    rw [if_neg (by omega), parsed]

theorem pinned_iff (want : Bytes) (chains : List (List (Certificate κ))) :
    pinned X want chains = true ↔
      ∃ chain ∈ chains, ∃ root, chain.getLast? = some root ∧ X.sha256 root.raw = want := by
  have same : pinned X want chains = chains.foldl (fun found chain =>
      found || chain.getLast?.any fun root => X.sha256 root.raw == want) false := by
    unfold pinned
    congr 1
    funext found chain
    rcases chain.getLast? with _ | root
    · simp
    · rfl
  rw [same, foldl_or_iff]
  simp [Option.any_eq_true]

/-- The key of the leaf is the expected one, in the library's own encoding of both. -/
def KeyBound (X : Library κ) (leaf : Certificate κ) (expectedDER : Bytes) : Prop :=
  1 ≤ expectedDER.length ∧ expectedDER.length ≤ 2 ^ 20 ∧
    ∃ expected encoded, X.parsePKIXPublicKey expectedDER = some expected ∧
      X.marshalPKIXPublicKey expected = some encoded ∧
      X.marshalPKIXPublicKey leaf.publicKey = some encoded

/-- The leaf has chains to the given roots at the given time for the given usage, and one of
them ends in a root with the digest of the pinned one if there is one. -/
def Chained (X : Library κ) (leaf : Certificate κ) (o : IssuedOptions κ) : Prop :=
  ∃ roots chains, o.roots = some roots ∧
    X.chains leaf ⟨roots, o.intermediates.getD [], o.now, [o.usage], o.dnsName⟩ = some chains ∧
    ∀ root, o.pinnedRoot = some root → (1 ≤ root.raw.length ∧ root.raw.length ≤ 2 ^ 20) ∧
      ∃ pin, X.parseCertificate root.raw = some pin ∧
        ∃ chain ∈ chains, ∃ last, chain.getLast? = some last ∧
          X.sha256 last.raw = X.sha256 pin.raw

/-- With valid options the verifier is left nothing to fill in. -/
theorem verify_explicit (A : Ambient κ) (leaf : Certificate κ) {o : IssuedOptions κ}
    {roots : CertPool κ} (given : o.roots = some roots) (clock : o.now.ns ≠ 0) :
    verify X A leaf ⟨o.roots, o.intermediates, o.now, [o.usage], o.dnsName⟩ =
      X.chains leaf ⟨roots, o.intermediates.getD [], o.now, [o.usage], o.dnsName⟩ := by
  have set : o.now.isZero = false := by
    rw [Bool.eq_false_iff, ne_eq, Time.isZero_iff]
    exact clock
  simp [verify, given, set]

theorem verifiedPeer_ok_iff (state : Option (ConnectionState κ)) (o : PeerOptions) (m : Metadata) :
    verifiedPeer X state o = .ok m ↔
      ∃ peer first leaf, evidence state = some (peer, first) ∧ peer.raw = first.raw ∧
        Acceptable X peer.raw o leaf m := by
  unfold verifiedPeer
  constructor
  · intro ok
    split at ok
    · cases ok
    rename_i options
    obtain ⟨clock, purpose⟩ := (validOptions_iff o).mp (Bool.eq_true_of_not_eq_false options)
    split at ok
    · cases ok
    rename_i peer first shown
    split at ok
    · cases ok
    rename_i same
    split at ok
    · cases ok
    rename_i leaf decoded
    obtain ⟨size, parsed⟩ := (canonical_ok_iff peer leaf).mp decoded
    split at ok
    · cases ok
    rename_i valid
    have suits := (validLeaf_iff leaf o).mp (Bool.eq_true_of_not_eq_false valid)
    exact ⟨peer, first, leaf, shown, not_not.mp same, clock, purpose, size, parsed, suits,
      (metadata_ok_iff leaf m).mp ok⟩
  · rintro ⟨peer, first, leaf, shown, same, clock, purpose, size, parsed, suits, describes⟩
    have options := (validOptions_iff o).mpr ⟨clock, purpose⟩
    have decoded := (canonical_ok_iff peer leaf).mpr ⟨size, parsed⟩
    have valid := (validLeaf_iff leaf o).mpr suits
    simp only [options, shown, same, decoded, valid, Bool.true_eq_false, if_false, ne_eq,
      not_true_eq_false]
    exact (metadata_ok_iff leaf m).mpr describes

theorem checkPin_ok_iff (pinnedRoot : Option (Certificate κ))
    (chains : List (List (Certificate κ))) :
    checkPin X pinnedRoot chains = .ok () ↔ ∀ root, pinnedRoot = some root →
      (1 ≤ root.raw.length ∧ root.raw.length ≤ 2 ^ 20) ∧
        ∃ pin, X.parseCertificate root.raw = some pin ∧
          ∃ chain ∈ chains, ∃ last, chain.getLast? = some last ∧
            X.sha256 last.raw = X.sha256 pin.raw := by
  rcases pinnedRoot with _ | root
  · simp [checkPin]
  · unfold checkPin
    constructor
    · rintro ok _ ⟨⟩
      dsimp only at ok
      split at ok
      · cases ok
      rename_i pin decoded
      obtain ⟨size, parsed⟩ := (canonical_ok_iff root pin).mp decoded
      split at ok
      · cases ok
      rename_i found
      obtain ⟨chain, mem, last, ends, same⟩ :=
        (pinned_iff _ _).mp (Bool.eq_true_of_not_eq_false found)
      exact ⟨size, pin, parsed, chain, mem, last, ends, same⟩
    · intro holds
      obtain ⟨size, pin, parsed, chain, mem, last, ends, same⟩ := holds root rfl
      have decoded := (canonical_ok_iff root pin).mpr ⟨size, parsed⟩
      have found := (pinned_iff (X := X) (X.sha256 pin.raw) chains).mpr
        ⟨chain, mem, last, ends, same⟩
      simp only [decoded, found, Bool.true_eq_false, if_false]

theorem verifyIssued_ok_iff (A : Ambient κ) (certificate : Option (Certificate κ))
    (o : IssuedOptions κ) (m : Metadata) :
    verifyIssued X A certificate o = .ok m ↔
      ∃ c leaf, certificate = some c ∧ Acceptable X c.raw o.toPeerOptions leaf m ∧
        KeyBound X leaf o.expectedPublicKeyDER ∧ Chained X leaf o := by
  have limit : maxCertificateBytes = 2 ^ 20 := by decide
  unfold verifyIssued
  rw [limit]
  constructor
  · intro ok
    split at ok
    · cases ok
    rename_i input
    simp only [not_or] at input
    obtain ⟨options, rooted, keyed, short⟩ := input
    obtain ⟨clock, purpose⟩ := (validOptions_iff _).mp (Bool.eq_true_of_not_eq_false options)
    obtain ⟨roots, rooted⟩ := Option.ne_none_iff_exists'.mp rooted
    split at ok
    · cases ok
    rename_i encoded marshalled
    obtain ⟨expected, read, written⟩ := Option.bind_eq_some_iff.mp marshalled
    split at ok
    · cases ok
    rename_i leaf decoded
    rcases certificate with _ | c
    · cases decoded
    obtain ⟨size, parsed⟩ := (canonical_ok_iff c leaf).mp decoded
    split at ok
    · cases ok
    rename_i valid
    split at ok
    · cases ok
    rename_i actual own
    split at ok
    · cases ok
    rename_i same
    rw [not_not] at same
    subst same
    split at ok
    · cases ok
    rename_i chains built
    rw [verify_explicit A leaf rooted clock] at built
    split at ok
    · cases ok
    rename_i pin
    refine ⟨c, leaf, rfl, ⟨clock, purpose, size, parsed,
      (validLeaf_iff leaf _).mp (Bool.eq_true_of_not_eq_false valid),
      (metadata_ok_iff leaf m).mp ok⟩,
      ⟨by omega, by omega, expected, actual, read, written, own⟩,
      ⟨roots, chains, rooted, built, (checkPin_ok_iff _ _).mp pin⟩⟩
  · rintro ⟨c, leaf, rfl, ⟨clock, purpose, size, parsed, suits, describes⟩,
      ⟨some, short, expected, encoded, read, written, own⟩, ⟨roots, chains, rooted, built, pin⟩⟩
    have options := (validOptions_iff o.toPeerOptions).mpr ⟨clock, purpose⟩
    have input : ¬(validOptions o.toPeerOptions = false ∨ o.roots = none ∨
        o.expectedPublicKeyDER.length = 0 ∨ o.expectedPublicKeyDER.length > 2 ^ 20) := by
      rw [options, rooted]
      simp only [Bool.true_eq_false, reduceCtorEq, false_or]
      omega
    have decoded := (canonical_ok_iff c leaf).mpr ⟨size, parsed⟩
    have valid := (validLeaf_iff leaf o.toPeerOptions).mpr suits
    have pinOk := (checkPin_ok_iff _ _).mpr pin
    rw [if_neg input]
    simp only [read, Option.bind_some, written, decoded, valid, own, ne_eq, not_true_eq_false,
      Bool.true_eq_false, if_false, verify_explicit A leaf rooted clock, built, pinOk]
    exact (metadata_ok_iff leaf m).mpr describes

/-! ## What the results rest on -/

def encoding (c : Option (Certificate κ)) : Option Bytes := c.map Certificate.raw

theorem canonical_congr {c c' : Option (Certificate κ)} (same : encoding c = encoding c') :
    canonical X c = canonical X c' := by
  rcases c with _ | c
  · rcases c' with _ | c'
    · rfl
    · cases same
  · rcases c' with _ | c'
    · cases same
    · have raw : c.raw = c'.raw := Option.some.inj same
      simp only [canonical, raw]

theorem checkPin_congr {root root' : Option (Certificate κ)} (same : encoding root = encoding root')
    (chains : List (List (Certificate κ))) : checkPin X root chains = checkPin X root' chains := by
  have decoded := canonical_congr (X := X) same
  rcases root with _ | root
  · rcases root' with _ | root'
    · rfl
    · cases same
  · rcases root' with _ | root'
    · cases same
    · simp only [checkPin, decoded]

theorem verifyIssued_congr (A A' : Ambient κ) {c c' root : Option (Certificate κ)}
    {o : IssuedOptions κ} (same : encoding c = encoding c')
    (pin : encoding o.pinnedRoot = encoding root) :
    verifyIssued X A c o = verifyIssued X A' c' { o with pinnedRoot := root } := by
  unfold verifyIssued
  split
  · rfl
  rename_i input
  simp only [not_or] at input
  obtain ⟨clock, _⟩ := (validOptions_iff _).mp (Bool.eq_true_of_not_eq_false input.1)
  obtain ⟨roots, rooted⟩ := Option.ne_none_iff_exists'.mp input.2.1
  simp only [canonical_congr same, verify_explicit _ _ rooted clock, checkPin_congr pin]

theorem verifiedPeer_congr {state state' : Option (ConnectionState κ)} (o : PeerOptions)
    (same : (evidence state).map (fun e => (e.1.raw, e.2.raw)) =
      (evidence state').map (fun e => (e.1.raw, e.2.raw))) :
    verifiedPeer X state o = verifiedPeer X state' o := by
  unfold verifiedPeer
  generalize evidence state = shown at same
  generalize evidence state' = shown' at same
  rcases shown with _ | ⟨peer, first⟩
  · rcases shown' with _ | _
    · rfl
    · cases same
  · rcases shown' with _ | ⟨peer', first'⟩
    · cases same
    · obtain ⟨own, chain⟩ : peer.raw = peer'.raw ∧ first.raw = first'.raw := by
        simpa using same
      have decoded : canonical X (some peer) = canonical X (some peer') :=
        canonical_congr (congrArg some own)
      simp only [own, chain, decoded]

end Acceptance

/-- The results are the same for certificates with the same encodings, whatever else their values
hold, and for every clock and every set of roots that the system may have. -/
theorem verdicts_rest_on_encodings {κ : Type} (X : Library κ) :
    (∀ (A A' : Ambient κ) (c c' root : Option (Certificate κ)) (o : IssuedOptions κ),
      encoding c = encoding c' → encoding o.pinnedRoot = encoding root →
        verifyIssued X A c o = verifyIssued X A' c' { o with pinnedRoot := root }) ∧
    ∀ (state state' : Option (ConnectionState κ)) (o : PeerOptions),
      (evidence state).map (fun e => (e.1.raw, e.2.raw)) =
        (evidence state').map (fun e => (e.1.raw, e.2.raw)) →
      verifiedPeer X state o = verifiedPeer X state' o :=
  ⟨fun A A' _ _ _ _ same pin => verifyIssued_congr A A' same pin,
    fun _ _ o same => verifiedPeer_congr o same⟩

/-- A library whose certificates are their encodings, and its one certificate for clients. -/
def sampleCertificate : Certificate Bytes :=
  ⟨[7], some 5, ⟨10⟩, ⟨20⟩, [.clientAuth], [3], [some [1]], [], [], []⟩

def sampleLibrary : Library Bytes where
  parseCertificate := fun raw => if raw = [7] then some sampleCertificate else none
  parsePKIXPublicKey := some
  marshalPKIXPublicKey := some
  verifyHostname := fun _ _ => true
  chains := fun leaf o => if o.roots = [] then none else some [[leaf] ++ o.roots.take 1]
  sha256 := id

def sampleOptions : IssuedOptions Bytes :=
  ⟨⟨⟨15⟩, .clientAuth, []⟩, some [sampleCertificate], none, [3], some sampleCertificate⟩

/-- A certificate whose fields were exchanged is still judged by its encoding. -/
theorem verdicts_rest_on_encodings_exchanged :
    let forged : Certificate Bytes := { sampleCertificate with notAfter := ⟨12⟩, publicKey := [4] }
    verifyIssued sampleLibrary ⟨[], ⟨0⟩⟩ (some forged) sampleOptions =
      verifyIssued sampleLibrary ⟨[sampleCertificate], ⟨99⟩⟩ (some sampleCertificate)
        { sampleOptions with pinnedRoot := some forged } ∧
    verifiedPeer sampleLibrary (some ⟨[some forged], [[some forged]]⟩) sampleOptions.toPeerOptions =
      verifiedPeer sampleLibrary (some ⟨[some sampleCertificate], [[some sampleCertificate]]⟩)
        sampleOptions.toPeerOptions := by
  intro forged
  obtain ⟨issued, presented⟩ := verdicts_rest_on_encodings sampleLibrary
  exact ⟨issued _ _ _ _ _ _ rfl rfl, presented _ _ _ rfl⟩

/-- A certificate is accepted from a handshake, or as issued, exactly for the stated reasons: both
ask the same of the encoded leaf, and issuing also asks for the expected key, for a chain to the
given roots and for the digest of the pinned root at its end. -/
theorem certificates_accepted_iff {κ : Type} (X : Library κ) :
    (∀ state o m, verifiedPeer X state o = .ok m ↔
      ∃ peer first leaf, evidence state = some (peer, first) ∧ peer.raw = first.raw ∧
        Acceptable X peer.raw o leaf m) ∧
    ∀ A certificate o m, verifyIssued X A certificate o = .ok m ↔
      ∃ c leaf, certificate = some c ∧ Acceptable X c.raw o.toPeerOptions leaf m ∧
        KeyBound X leaf o.expectedPublicKeyDER ∧ Chained X leaf o :=
  ⟨verifiedPeer_ok_iff, verifyIssued_ok_iff⟩

/-- The sample certificate is accepted as issued and has a chain that ends in the pinned root. -/
theorem certificates_accepted_iff_sample :
    ∃ m leaf, verifyIssued sampleLibrary ⟨[], ⟨0⟩⟩ (some sampleCertificate) sampleOptions = .ok m ∧
      Acceptable sampleLibrary [7] sampleOptions.toPeerOptions leaf m ∧
      Chained sampleLibrary leaf sampleOptions := by
  have accepted : verifyIssued sampleLibrary ⟨[], ⟨0⟩⟩ (some sampleCertificate) sampleOptions =
      .ok ⟨[48, 55], [53], ⟨10⟩, ⟨20⟩, [[1]], [], [], []⟩ := by
    decide +kernel
  obtain ⟨_, leaf, same, acceptable, _, chained⟩ :=
    ((certificates_accepted_iff sampleLibrary).2 _ _ _ _).mp accepted
  cases same
  exact ⟨_, leaf, accepted, acceptable, chained⟩

end PeerCertificates
