import StumpfworksFramework.TokenLifetime

/-!
# The date before which a token is not accepted

`nbf` is compared with the clock once, after its conversion, and no test on the
lifetime stands behind it. The conversion wraps for the last 62135596800 numbers
of the 64-bit range, and there a date in the far future would read as one long
past. No such date gets that far: the library that decodes the claims refuses
dates from `2 ^ 62` on.
-/

namespace NotBeforeDates

open ByteStrings Instants OidcClients TokenLifetime

/-- The date has come, with one minute of skew. -/
def Begun (now : Time) (notBefore : Int) : Prop :=
  notBefore * second ≤ sinceEpoch now + 60 * second

section Dates

variable {now : Time} {n : Int}

theorem begun_iff : Begun now n ↔ (n + unixToInternal) * second ≤ (now.add clockSkew).ns := by
  have skew : clockSkew = 60 * second := by decide
  rw [Begun, sinceEpoch, Time.add_ns, skew, Int.add_mul]
  omega

/-- Beyond the range of exact conversion every date passes. -/
theorem passes_iff (clock : Clock now) (signed : Signed64 n) :
    (Time.unix n 0).after (now.add clockSkew) = false ↔
      Begun now n ∨ 2 ^ 63 - unixToInternal ≤ n := by
  rw [after_eq_false_iff]
  by_cases small : n < 2 ^ 63 - unixToInternal
  · rw [unix_of_small signed small, ← begun_iff]
    constructor
    · exact Or.inl
    · rintro (begun | large)
      · exact begun
      · omega
  · constructor
    · intro _
      exact Or.inr (Int.not_lt.mp small)
    · intro _
      have wrapped : (Time.unix n 0).ns = (n + unixToInternal - 2 ^ 64) * second := by
        obtain ⟨_, high⟩ := signed
        rw [unix_ns]
        congr 1
        simp only [wrap64, unixToInternal] at small ⊢
        omega
      obtain ⟨epoch, _⟩ := clock
      have skew : (0 : Int) ≤ clockSkew := by decide
      obtain ⟨_, high⟩ := signed
      rw [wrapped, Time.add_ns]
      simp only [sinceEpoch, second, unixToInternal] at epoch ⊢
      omega

theorem datesAccepted_some (now : Time) (issuedAt expiry n : Int) :
    datesAccepted now issuedAt expiry (some n) = true ↔
      datesAccepted now issuedAt expiry none = true ∧
        (Time.unix n 0).after (now.add clockSkew) = false := by
  rw [datesAccepted_iff, datesAccepted_iff, after_eq_false_iff]
  simp

end Dates

/-- Dates that `go-jose` decodes. -/
def Decodable (date : Int) : Prop := -2 ^ 62 < date ∧ date < 2 ^ 62

/-- Every date among decoded claims is decodable. -/
def DecodesDates (P : Platform) : Prop :=
  ∀ raw parsed key claims, P.parseSigned raw = some parsed → parsed.claims key = some claims →
    ∀ date ∈ [claims.expiry, claims.notBefore, claims.issuedAt], ∀ n ∈ date, Decodable n

section Tokens

variable {P : Platform} {verifier : Verifier} {now : Time} {raw nonce : Bytes} {claims : IdClaims}
variable {issuedAt expiry n : Int}

theorem decodable_of_signed (decodes : DecodesDates P) (signed : Signed P verifier raw claims)
    (carried : claims.notBefore = some n) : Decodable n := by
  obtain ⟨parsed, _, key, parses, _, _, _, _, decoded⟩ := signed
  exact decodes raw parsed key claims parses decoded claims.notBefore (by simp) n carried

/-- Decodable dates do not wrap. -/
theorem passes_of_decodable (clock : Clock now) (decodable : Decodable n) :
    (Time.unix n 0).after (now.add clockSkew) = false ↔ Begun now n := by
  obtain ⟨low, high⟩ := decodable
  have small : ¬ 2 ^ 63 - unixToInternal ≤ n := by
    simp only [unixToInternal]
    omega
  rw [passes_iff clock ⟨by omega, by omega⟩, or_iff_left small]

theorem accepted_iff_begun (clock : Clock now) (decodes : DecodesDates P)
    (presented : Presented P verifier raw nonce claims issuedAt expiry)
    (current : datesAccepted now issuedAt expiry none = true)
    (carried : claims.notBefore = some n) :
    (∃ identity, verifyIDToken P verifier now raw nonce = .ok identity) ↔ Begun now n := by
  have decodable := decodable_of_signed decodes presented.signed carried
  rw [presented.verify now, carried, ← passes_of_decodable clock decodable]
  cases dates : datesAccepted now issuedAt expiry (some n) with
  | false =>
    rw [← Bool.not_eq_true, datesAccepted_some] at dates
    simp only [if_true, reduceCtorEq, exists_false, false_iff]
    exact fun passes => dates ⟨current, passes⟩
  | true =>
    have passes := ((datesAccepted_some ..).mp dates).2
    simp [passes]

end Tokens

/-- No token is accepted before its `nbf`, and a token that is valid apart from it is accepted from
then on. -/
theorem notBefore_respected {P : Platform} (decodes : DecodesDates P) {now : Time}
    (clock : Clock now) (verifier : Verifier) (raw nonce : Bytes) :
    (∀ identity, verifyIDToken P verifier now raw nonce = .ok identity →
      ∃ claims, Signed P verifier raw claims ∧ claims.nonce = nonce ∧
        ∀ n ∈ claims.notBefore, Begun now n) ∧
    ∀ claims issuedAt expiry n, Presented P verifier raw nonce claims issuedAt expiry →
      datesAccepted now issuedAt expiry none = true → claims.notBefore = some n →
      ((∃ identity, verifyIDToken P verifier now raw nonce = .ok identity) ↔ Begun now n) := by
  constructor
  · intro identity verified
    obtain ⟨claims, issuedAt, expiry, presented, dates⟩ := verifyIDToken_ok verified
    refine ⟨claims, presented.signed, presented.bound, fun n carried => ?_⟩
    rw [show claims.notBefore = some n from carried, datesAccepted_some] at dates
    exact (accepted_iff_begun clock decodes presented dates.1 carried).mp ⟨identity, verified⟩
  · intro claims issuedAt expiry n presented current carried
    exact accepted_iff_begun clock decodes presented current carried

/-! ## A token with a date

It is signed with RS256 under the key whose modulus is below. -/

def sampleModulus : Bytes :=
  ascii "vuFQD_fHfnEwRH9OKimryk9_kSbhZnPAkWyp_6J1icAGWQGbYR27PdvDkFhxsxb-who0uNXRdHWFASIJl_NdSn" ++
  ascii "p7kuZxqvtoFE3AgiiuZl7VwhGB3SmsJgQGAAgRJ7S2jWrv4Q24fRzBdPXYsm4uu5e--kp_0VmupnjgAINuiqDg" ++
  ascii "8HC0piI0o5itNB8Sn3ESiUBGDix5bPLuTGS3cVEYm7e806p-5TcGhvSnGXE7EkR4W5vhwp7Q79PBNOJWpgk7QO" ++
  ascii "EQBXcQYaY1KFKOqPgRoXf_UeJNrNPQYibhBBPXBFgdmPy0n8enAdxkNyoje1MjacBgBJj9CnPZw1S2LlcLiw"

def sampleHeader : Bytes := ascii "eyJhbGciOiJSUzI1NiIsImtpZCI6ImsxIiwidHlwIjoiSldUIn0"

def presentToken : Bytes :=
  sampleHeader ++
  ascii ".eyJpc3MiOiJodHRwczovL2lkLmV4YW1wbGUiLCJzdWIiOiJ1c2VyLTEiLCJhdWQiOiJhcHAiLCJleHAiOjE3M" ++
  ascii "DAwMDAzMDAsIm5iZiI6MTcwMDAwMDAwMCwiaWF0IjoxNzAwMDAwMDAwLCJub25jZSI6Im4xIn0.KZhahnnNzwk" ++
  ascii "PvCM0oH_kvp6OHqrFRnVmM-EkSayTxYLDGysGb5Xl0dRk-ykWsD9IzmP0mvClaMkaeRwikCqkczxImZDMtH3ve" ++
  ascii "OhDLICEnJ9P0ls1OuVYCoeCqv0gN44G5LU-zq0JqP-mr-sKLgUHHc9cy-9mMZ-D8MzwyH2sB4JvPxMXLwSMDG0" ++
  ascii "X3E38GPNYrBlpMwEQEXkZ3cxbD6as0BIlVk8mLA3-NgfMsJQAtZpKnyOU3Y8XE4pGkn7hx85uNRRpFGWCwazk_" ++
  ascii "NW6ZLPTTjmHhsmUBKOBvxR_pf4qZ-0I_UuWcbJDpWFhTN36VXFvkkzrwAtsvOhBQNneRmN5wg"

def sampleClaims : IdClaims where
  issuer := ascii "https://id.example"
  subject := ascii "user-1"
  audience := [ascii "app"]
  expiry := some 1700000300
  notBefore := some 1700000000
  issuedAt := some 1700000000
  nonce := ascii "n1"
  authorizedParty := []

def sampleJose : JoseHeader :=
  ⟨ascii "RS256", ascii "k1", false, [(ascii "typ", some (ascii "JWT"))]⟩

def sampleParsed : ParsedToken where
  headers := [sampleJose]
  claims := fun key => if key = sampleModulus then some sampleClaims else none

def samplePlatform : Platform where
  parseUrl := fun _ => none
  renderUrl := fun _ => []
  parseQuery := fun _ _ => []
  encodeQuery := fun _ => []
  trimSpace := id
  equalFold := fun a b => a = b
  sha256 := id
  parseJwks := fun _ => none
  parseSigned := fun raw => if raw = presentToken then some sampleParsed else none
  unmarshalToken := fun _ => none

def sampleVerifier : Verifier :=
  ⟨ascii "https://id.example", ascii "app", [(ascii "k1", sampleModulus)]⟩

theorem samplePlatform_decodes : DecodesDates samplePlatform := by
  intro raw parsed key claims parses decoded date listed n carried
  simp only [samplePlatform] at parses
  split at parses
  · cases parses
    simp only [sampleParsed] at decoded
    split at decoded
    · cases decoded
      simp only [sampleClaims, List.mem_cons, List.not_mem_nil, or_false] at listed
      rcases listed with rfl | rfl | rfl
      · cases carried
        exact ⟨by decide, by decide⟩
      · cases carried
        exact ⟨by decide, by decide⟩
      · cases carried
        exact ⟨by decide, by decide⟩
    · cases decoded
  · cases parses

theorem sample_clock : Clock (Time.unix 1700000060 0) := by
  constructor <;> decide

theorem sample_signed : Signed samplePlatform sampleVerifier presentToken sampleClaims := by
  have parsed : samplePlatform.parseSigned presentToken = some sampleParsed := by
    simp only [samplePlatform, if_true]
  have known : sampleVerifier.keys.lookup sampleJose.keyID = some sampleModulus := by
    simp only [sampleVerifier, sampleJose, List.lookup_cons_self]
  have decoded : sampleParsed.claims sampleModulus = some sampleClaims := by
    simp only [sampleParsed, if_true]
  exact ⟨sampleParsed, sampleJose, sampleModulus, parsed, rfl, by decide, by decide, known, decoded⟩

theorem length_presentToken : presentToken.length = 554 := by
  rw [presentToken, sampleHeader]
  repeat rw [ascii_ofList]
  decide +kernel

theorem sample_presented :
    Presented samplePlatform sampleVerifier presentToken (ascii "n1") sampleClaims 1700000000
      1700000300 where
  expected := by decide
  given := ⟨List.ne_nil_of_length_pos (length_presentToken ▸ by decide),
    length_presentToken ▸ by decide⟩
  signed := sample_signed
  dated := ⟨rfl, rfl⟩
  subject := ⟨rfl, by simp only [sampleClaims]; decide, by simp only [sampleClaims]; decide⟩
  audience := List.mem_singleton_self _
  bound := rfl
  party := ⟨Or.inl rfl, Or.inl rfl⟩

/-- The token is accepted a minute after its date. -/
theorem notBefore_respected_present :
    (∃ identity, verifyIDToken samplePlatform sampleVerifier (Time.unix 1700000060 0) presentToken
        (ascii "n1") = .ok identity) ∧
      Begun (Time.unix 1700000060 0) 1700000000 := by
  have begun : Begun (Time.unix 1700000060 0) 1700000000 := by
    unfold Begun
    decide
  obtain ⟨_, accepted⟩ := notBefore_respected samplePlatform_decodes sample_clock sampleVerifier
    presentToken (ascii "n1")
  exact ⟨(accepted _ _ _ _ sample_presented (by decide) rfl).mpr begun, begun⟩

end NotBeforeDates
