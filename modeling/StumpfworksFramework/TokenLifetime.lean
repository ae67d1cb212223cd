import StumpfworksFramework.OidcClients

/-!
# The lifetime of an ID token

The dates of a token are signed 64-bit numbers of seconds that the provider
chooses. Converting one to an instant wraps, so a date close to the upper end
becomes an instant long before year 1, and a difference of instants saturates.
The tests on the dates are compared here with the same tests over the integers.
-/

namespace TokenLifetime

open ByteStrings Instants OidcClients

def Signed64 (x : Int) : Prop := -2 ^ 63 ≤ x ∧ x < 2 ^ 63

/-- Nanoseconds since the Unix epoch. -/
def sinceEpoch (now : Time) : Int := now.ns - unixToInternal * second

/-- From the Unix epoch to the end of year 9999. -/
def Clock (now : Time) : Prop := 0 ≤ sinceEpoch now ∧ sinceEpoch now < 253402300800 * second

/-- The tests on `iat` and `exp` without any bound on the numbers. -/
structure Alive (now : Time) (issuedAt expiry : Int) : Prop where
  issued : 1 ≤ issuedAt
  unexpired : sinceEpoch now < expiry * second
  ordered : issuedAt < expiry
  short : expiry - issuedAt ≤ 600
  begun : issuedAt * second ≤ sinceEpoch now + 60 * second

section Dates

variable {now : Time} {x issuedAt expiry : Int}

theorem unix_ns (x : Int) : (Time.unix x 0).ns = wrap64 (x + unixToInternal) * second := by
  simp [Time.unix]

/-- A date is converted as it is, or it becomes an instant far before year 1. -/
theorem unix_cases (signed : Signed64 x) :
    (Time.unix x 0).ns = (x + unixToInternal) * second ∨
    (2 ^ 63 - unixToInternal ≤ x ∧
      (Time.unix x 0).ns = (x + unixToInternal - 2 ^ 64) * second) := by
  obtain ⟨low, high⟩ := signed
  rw [unix_ns]
  by_cases fits : x + unixToInternal < 2 ^ 63
  · left
    rw [Time.wrap64_of_range (by simp only [unixToInternal]; omega) fits]
  · right
    have wrapped : wrap64 (x + unixToInternal) = x + unixToInternal - 2 ^ 64 := by
      simp only [wrap64, unixToInternal] at fits ⊢
      omega
    exact ⟨by omega, by rw [wrapped]⟩

theorem unix_of_small (signed : Signed64 x) (small : x < 2 ^ 63 - unixToInternal) :
    (Time.unix x 0).ns = (x + unixToInternal) * second := by
  rcases unix_cases signed with kept | ⟨large, _⟩
  · exact kept
  · omega

/-- Converting back undoes the wrapping. -/
theorem unixSec_unix (signed : Signed64 x) : (Time.unix x 0).unixSec = x := by
  obtain ⟨low, high⟩ := signed
  rw [Time.unixSec, unix_ns, Int.mul_ediv_cancel _ (by decide : second ≠ 0)]
  simp only [wrap64, unixToInternal]
  omega

theorem after_eq_false_iff (t u : Time) : t.after u = false ↔ t.ns ≤ u.ns := by
  rw [Bool.eq_false_iff, ne_eq, Time.after_iff, Int.not_lt]

theorem datesAccepted_iff (now : Time) (issuedAt expiry : Int) (notBefore : Option Int) :
    datesAccepted now issuedAt expiry notBefore = true ↔
      (0 < (Time.unix issuedAt 0).unixSec ∧ now.ns < (Time.unix expiry 0).ns ∧
        (Time.unix issuedAt 0).ns < (Time.unix expiry 0).ns ∧
        (Time.unix expiry 0).sub (Time.unix issuedAt 0) ≤ maxLifetime ∧
        (Time.unix issuedAt 0).ns ≤ now.ns + clockSkew) ∧
      ∀ n ∈ notBefore, (Time.unix n 0).ns ≤ now.ns + clockSkew := by
  unfold datesAccepted
  cases notBefore with
  | none => simp [after_eq_false_iff]
  | some n => simp [after_eq_false_iff, and_assoc]

/-- A wrapped expiry lies before the clock, and a wrapped issue date too long before the expiry
for the saturated difference to pass. -/
theorem alive_iff (clock : Clock now) (issuedSigned : Signed64 issuedAt)
    (expirySigned : Signed64 expiry) :
    (0 < (Time.unix issuedAt 0).unixSec ∧ now.ns < (Time.unix expiry 0).ns ∧
      (Time.unix issuedAt 0).ns < (Time.unix expiry 0).ns ∧
      (Time.unix expiry 0).sub (Time.unix issuedAt 0) ≤ maxLifetime ∧
      (Time.unix issuedAt 0).ns ≤ now.ns + clockSkew) ↔ Alive now issuedAt expiry := by
  have bound : maxLifetime = 600 * second := by decide
  have skew : clockSkew = 60 * second := by decide
  rw [unixSec_unix issuedSigned, Time.sub_le_iff _ _ (by decide) (by decide), bound, skew]
  obtain ⟨epoch, year⟩ := clock
  have issuedHigh := issuedSigned.2
  have expiryHigh := expirySigned.2
  simp only [sinceEpoch, second, unixToInternal] at epoch year
  constructor
  · rintro ⟨issued, unexpired, ordered, short, begun⟩
    rcases unix_cases expirySigned with expires | ⟨_, expires⟩
    · rcases unix_cases issuedSigned with issues | ⟨_, issues⟩
      · rw [expires] at unexpired
        rw [expires, issues] at ordered short
        rw [issues] at begun
        simp only [second, unixToInternal] at unexpired ordered short begun
        refine ⟨issued, ?_, ?_, ?_, ?_⟩
        · simp only [sinceEpoch, second, unixToInternal]
          omega
        · omega
        · omega
        · simp only [sinceEpoch, second, unixToInternal]
          omega
      · rw [expires] at unexpired
        rw [expires, issues] at short
        simp only [second, unixToInternal] at unexpired short
        omega
    · rw [expires] at unexpired
      simp only [second, unixToInternal] at unexpired
      omega
  · rintro ⟨issued, unexpired, ordered, short, begun⟩
    simp only [sinceEpoch, second, unixToInternal] at unexpired begun
    -- a date that has begun is too small to wrap, and so is an expiry ten minutes later
    have issues := unix_of_small issuedSigned (by simp only [unixToInternal]; omega)
    have expires := unix_of_small expirySigned (by simp only [unixToInternal]; omega)
    rw [issues, expires]
    simp only [second, unixToInternal]
    refine ⟨issued, ?_, ?_, ?_, ?_⟩ <;> omega

end Dates

/-- The date tests of `VerifyIDToken` are exact for every pair of 64-bit dates: beside the test on
`nbf` they pass if and only if the token is alive in the sense of the integers. -/
theorem datesAccepted_exact {now : Time} {issuedAt expiry : Int} (clock : Clock now)
    (issuedSigned : Signed64 issuedAt) (expirySigned : Signed64 expiry) (notBefore : Option Int) :
    datesAccepted now issuedAt expiry notBefore = true ↔
      Alive now issuedAt expiry ∧
      ∀ n ∈ notBefore, (Time.unix n 0).after (now.add clockSkew) = false := by
  rw [datesAccepted_iff, alive_iff clock issuedSigned expirySigned]
  simp only [after_eq_false_iff, Time.add_ns]

/-- A token of five minutes, read one minute after it was issued. -/
theorem datesAccepted_exact_sample :
    datesAccepted (Time.unix 1700000060 0) 1700000000 1700000300 none = true ∧
      Alive (Time.unix 1700000060 0) 1700000000 1700000300 := by
  have accepted : datesAccepted (Time.unix 1700000060 0) 1700000000 1700000300 none = true := by
    decide
  refine ⟨accepted, ((datesAccepted_exact ?_ ?_ ?_ none).mp accepted).1⟩
  · constructor <;> decide
  · constructor <;> decide
  · constructor <;> decide

/-! ## Tokens that pass every test but those on dates -/

section Presented

variable (P : Platform) (verifier : Verifier) (raw nonce : Bytes)

/-- The token is signed by one of the keys, and these are its claims. -/
def Signed (claims : IdClaims) : Prop :=
  ∃ parsed header key, P.parseSigned raw = some parsed ∧ parsed.headers = [header] ∧
    (header.algorithm = ascii "RS256" ∧ header.keyID ≠ [] ∧ header.hasJSONWebKey = false) ∧
    (∀ e ∈ header.extraHeaders, e.1 = ascii "typ" ∧ e.2 = some (ascii "JWT")) ∧
    verifier.keys.lookup header.keyID = some key ∧ parsed.claims key = some claims

structure Presented (claims : IdClaims) (issuedAt expiry : Int) : Prop where
  expected : nonce ≠ [] ∧ nonce.length ≤ 256
  given : raw ≠ [] ∧ raw.length ≤ maxTokenBytes
  signed : Signed P verifier raw claims
  dated : claims.expiry = some expiry ∧ claims.issuedAt = some issuedAt
  subject : claims.issuer = verifier.issuer ∧ claims.subject ≠ [] ∧ claims.subject.length ≤ 256
  audience : verifier.clientID ∈ claims.audience
  bound : claims.nonce = nonce
  party : (claims.audience.length = 1 ∨ claims.authorizedParty = verifier.clientID) ∧
    (claims.authorizedParty = [] ∨ claims.authorizedParty = verifier.clientID)

variable {P verifier raw nonce} {claims : IdClaims} {issuedAt expiry : Int}

/-- What remains for such a token are its dates. -/
theorem Presented.verify (presented : Presented P verifier raw nonce claims issuedAt expiry)
    (now : Time) :
    verifyIDToken P verifier now raw nonce =
      if datesAccepted now issuedAt expiry claims.notBefore = false then .error .errInvalidToken
      else .ok ⟨claims.issuer, claims.subject⟩ := by
  obtain ⟨parsed, header, key, parses, one, algorithm, extra, known, decoded⟩ := presented.signed
  have sizes : ¬ (nonce = [] ∨ nonce.length > 256 ∨ raw = [] ∨ raw.length > maxTokenBytes) := by
    rintro (empty | long | empty | long)
    · exact presented.expected.1 empty
    · exact absurd presented.expected.2 (Nat.not_le.mpr long)
    · exact presented.given.1 empty
    · exact absurd presented.given.2 (Nat.not_le.mpr long)
  have headers : ¬ (header.algorithm ≠ ascii "RS256" ∨ header.keyID = [] ∨
      header.hasJSONWebKey = true) := by
    simp [algorithm]
  have extras : ¬ header.extraHeaders.any
      (fun e => e.1 ≠ ascii "typ" ∨ e.2 ≠ some (ascii "JWT")) = true := by
    intro other
    obtain ⟨e, mem, wrong⟩ := List.any_eq_true.mp other
    rcases of_decide_eq_true wrong with name | value
    · exact name (extra e mem).1
    · exact value (extra e mem).2
  have identified : ¬ (claims.issuer ≠ verifier.issuer ∨ claims.subject = [] ∨
      claims.subject.length > 256 ∨ verifier.clientID ∉ claims.audience ∨
      claims.nonce ≠ nonce) := by
    rintro (issuer | empty | long | audience | other)
    · exact issuer presented.subject.1
    · exact presented.subject.2.1 empty
    · exact absurd presented.subject.2.2 (Nat.not_le.mpr long)
    · exact audience presented.audience
    · exact other presented.bound
  have authorized : ¬ ((claims.audience.length ≠ 1 ∧
      claims.authorizedParty ≠ verifier.clientID) ∨
      (claims.authorizedParty ≠ [] ∧ claims.authorizedParty ≠ verifier.clientID)) := by
    have party := presented.party
    tauto
  rw [verifyIDToken, if_neg sizes]
  simp only [parses, one]
  rw [if_neg headers, if_neg extras]
  simp only [known, Option.bind_some, decoded, presented.dated]
  rw [if_neg identified, if_neg authorized]

/-- Nothing else is verified. -/
theorem verifyIDToken_ok {now : Time} {identity : Identity}
    (verified : verifyIDToken P verifier now raw nonce = .ok identity) :
    ∃ claims issuedAt expiry, Presented P verifier raw nonce claims issuedAt expiry ∧
      datesAccepted now issuedAt expiry claims.notBefore = true := by
  unfold verifyIDToken at verified
  split at verified
  · cases verified
  rename_i sizes
  split at verified
  · cases verified
  rename_i parsed parses
  split at verified
  · rename_i header one
    split at verified
    · cases verified
    rename_i algorithm
    split at verified
    · cases verified
    rename_i extra
    split at verified
    · cases verified
    rename_i claims found
    split at verified
    · rename_i expiry issuedAt hasExpiry hasIssuedAt
      split at verified
      · cases verified
      rename_i identified
      split at verified
      · cases verified
      rename_i authorized
      split at verified
      · cases verified
      rename_i dates
      obtain ⟨key, known, decoded⟩ := Option.bind_eq_some_iff.mp found
      simp only [not_or, ne_eq, not_not, Nat.not_lt, Bool.not_eq_true] at sizes algorithm identified
      have typed : ∀ e ∈ header.extraHeaders, e.1 = ascii "typ" ∧ e.2 = some (ascii "JWT") := by
        intro e mem
        have right := List.any_eq_false.mp (Bool.eq_false_of_not_eq_true extra) e mem
        simpa [not_or] using right
      refine ⟨claims, issuedAt, expiry, ?_, Bool.eq_true_of_not_eq_false dates⟩
      exact
        { expected := ⟨sizes.1, sizes.2.1⟩
          given := ⟨sizes.2.2.1, sizes.2.2.2⟩
          signed := ⟨parsed, header, key, parses, one, algorithm, typed, known, decoded⟩
          dated := ⟨hasExpiry, hasIssuedAt⟩
          subject := ⟨identified.1, identified.2.1, identified.2.2.1⟩
          audience := identified.2.2.2.1
          bound := identified.2.2.2.2
          party := by tauto }
    · cases verified
  · cases verified

end Presented

/-- No token is verified outside its lifetime, whatever dates its provider wrote. -/
theorem verified_alive {P : Platform} {verifier : Verifier} {now : Time} {raw nonce : Bytes}
    {identity : Identity} (clock : Clock now)
    (signed : ∀ parsed key claims, P.parseSigned raw = some parsed →
      parsed.claims key = some claims →
      (∀ x ∈ claims.issuedAt, Signed64 x) ∧ ∀ x ∈ claims.expiry, Signed64 x)
    (verified : verifyIDToken P verifier now raw nonce = .ok identity) :
    ∃ parsed key claims issuedAt expiry, P.parseSigned raw = some parsed ∧
      parsed.claims key = some claims ∧ claims.issuedAt = some issuedAt ∧
      claims.expiry = some expiry ∧ Alive now issuedAt expiry := by
  obtain ⟨claims, issuedAt, expiry, presented, dates⟩ := verifyIDToken_ok verified
  obtain ⟨parsed, header, key, parses, _, _, _, _, decoded⟩ := presented.signed
  obtain ⟨hasExpiry, hasIssuedAt⟩ := presented.dated
  obtain ⟨issuedSigned, expirySigned⟩ := signed parsed key claims parses decoded
  have alive := (alive_iff clock (issuedSigned issuedAt hasIssuedAt)
    (expirySigned expiry hasExpiry)).mp ((datesAccepted_iff ..).mp dates).1
  exact ⟨parsed, key, claims, issuedAt, expiry, parses, decoded, hasIssuedAt, hasExpiry, alive⟩

end TokenLifetime
