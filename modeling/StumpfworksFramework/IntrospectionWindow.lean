import StumpfworksFramework.ProviderRequests
import StumpfworksFramework.TokenLifetime

/-!
# Which introspection results are active

`Introspect` compares the two dates of a response as numbers and again as
instants, and the conversion to instants wraps. The window around the clock
pins the expiry to its true value, and with it the issue date, which is smaller.
So an active result describes a token that is alive over the integers, and
every such token gives an active result.
-/

namespace IntrospectionWindow

open ByteStrings Instants OidcClients OidcTransactions LoginExchange ProviderRequests TokenLifetime


/-- What `strings.EqualFold` documents, at a text whose letters have no folding outside ASCII. -/
def FoldsBearer (P : Platform) : Prop :=
  ∀ text, P.equalFold text (ascii "Bearer") = true ↔ text.map lowerByte = ascii "bearer"

/-- The dates of the response, over the integers. -/
structure Window (now : Time) (issuedAt expiresAt : Int) : Prop where
  issued : 1 ≤ issuedAt
  ordered : issuedAt < expiresAt
  begun : issuedAt * second ≤ sinceEpoch now + 60 * second
  unexpired : sinceEpoch now < expiresAt * second
  soon : expiresAt * second ≤ sinceEpoch now + 24 * 3600 * second

/-- An active response about a token that the client may rely on. -/
structure Live (i : TokenIntrospector) (now : Time) (body : IntrospectionBody) : Prop where
  active : body.active = true
  client : body.clientID = i.clientID
  subject : body.subject ≠ [] ∧ body.subject.length ≤ 1024
  session : body.sessionID ≠ [] ∧ body.sessionID.length ≤ 1024
  scope : body.scope.length ≤ 4096
  bearer : body.tokenType.map lowerByte = ascii "bearer"
  window : Window now body.issuedAt body.expiresAt

def zeroStatus : TokenStatus := ⟨false, [], [], [], ⟨0⟩, ⟨0⟩⟩

def activeStatus (body : IntrospectionBody) : TokenStatus :=
  ⟨true, body.subject, body.sessionID, body.scope, Time.unix body.issuedAt 0,
    Time.unix body.expiresAt 0⟩

/-- The two results of the call in the source: an error comes with the zero status. -/
def returned : Except OidcError TokenStatus → TokenStatus × Option OidcError
  | .error e => (zeroStatus, some e)
  | .ok status => (status, none)

section Dates

variable {now : Time} {issuedAt expiresAt : Int}

/-- The comparisons of wrapped instants, behind those of the numbers, are exact. -/
theorem window_iff (clock : Clock now) (issuedSigned : Signed64 issuedAt)
    (expirySigned : Signed64 expiresAt) :
    (0 < issuedAt ∧ issuedAt < expiresAt ∧
      (Time.unix issuedAt 0).after (now.add clockSkew) = false ∧
      now.before (Time.unix expiresAt 0) = true ∧
      (Time.unix expiresAt 0).after (now.add (24 * hour)) = false) ↔
      Window now issuedAt expiresAt := by
  have skew : clockSkew = 60 * second := by decide
  have day : 24 * hour = 24 * 3600 * second := by decide
  rw [after_eq_false_iff, after_eq_false_iff, Time.before_iff, Time.add_ns, Time.add_ns, skew, day]
  obtain ⟨epoch, year⟩ := clock
  have issuedHigh := issuedSigned.2
  have expiryHigh := expirySigned.2
  simp only [sinceEpoch, second, unixToInternal] at epoch year
  constructor
  · rintro ⟨issued, ordered, begun, unexpired, soon⟩
    rcases unix_cases expirySigned with expires | ⟨_, expires⟩
    · rw [expires] at unexpired soon
      simp only [second, unixToInternal] at unexpired soon
      -- the expiry is within a day of the clock, so the earlier date does not wrap either
      have issues := unix_of_small issuedSigned (by simp only [unixToInternal]; omega)
      rw [issues] at begun
      simp only [second, unixToInternal] at begun
      constructor
      · omega
      · exact ordered
      all_goals
        simp only [sinceEpoch, second, unixToInternal]
        omega
    · -- a wrapped expiry lies before the clock
      rw [expires] at unexpired
      simp only [second, unixToInternal] at unexpired
      omega
  · rintro ⟨issued, ordered, begun, unexpired, soon⟩
    simp only [sinceEpoch, second, unixToInternal] at begun unexpired soon
    have expires := unix_of_small expirySigned (by simp only [unixToInternal]; omega)
    have issues := unix_of_small issuedSigned (by simp only [unixToInternal]; omega)
    rw [issues, expires]
    simp only [second, unixToInternal]
    refine ⟨?_, ordered, ?_, ?_, ?_⟩ <;> omega

end Dates

section Calls

variable {P : Platform} {D : Decoders} {i : TokenIntrospector} {now : Time}
  {body : IntrospectionBody} {hasContext : Bool} {token : Bytes} {replies : List Reply}

theorem activeAccepted_iff (folds : FoldsBearer P) (clock : Clock now)
    (issuedSigned : Signed64 body.issuedAt) (expirySigned : Signed64 body.expiresAt)
    (active : body.active = true) : activeAccepted P i now body = true ↔ Live i now body := by
  rw [activeAccepted, decide_eq_true_eq]
  constructor
  · rintro ⟨client, subject, session, bearer, subjectShort, sessionShort, scope, dates⟩
    exact
      { active := active
        client := client
        subject := ⟨subject, subjectShort⟩
        session := ⟨session, sessionShort⟩
        scope := scope
        bearer := (folds _).mp bearer
        window := (window_iff clock issuedSigned expirySigned).mp dates }
  · intro live
    exact ⟨live.client, live.subject.1, live.session.1, (folds _).mpr live.bearer, live.subject.2,
      live.session.2, live.scope, (window_iff clock issuedSigned expirySigned).mpr live.window⟩

/-- The provider's answer to the call decodes to this body. -/
structure Answered (P : Platform) (D : Decoders) (i : TokenIntrospector) (hasContext : Bool)
    (token : Bytes) (replies : List Reply) (body : IntrospectionBody) : Prop where
  context : hasContext = true
  given : token ≠ [] ∧ token.length ≤ maxCodeBytes
  address : (P.parseUrl i.endpoint).isSome = true
  contents : ∃ bytes, (i.client.send replies i.endpoint).1 = .received 200 (some bytes) ∧
    bytes.length ≤ maxIntrospectionResponseBytes ∧ D.introspection bytes = some body

/-- What is returned for a decoded body. -/
def judged (P : Platform) (i : TokenIntrospector) (now : Time) (body : IntrospectionBody) :
    Except OidcError TokenStatus :=
  if body.active = false then .ok zeroStatus
  else if activeAccepted P i now body = false then .error errIntrospectionFailed
  else .ok (activeStatus body)

theorem Answered.introspected (answered : Answered P D i hasContext token replies body)
    (now : Time) :
    (introspect P D i hasContext token replies now).1 = judged P i now body := by
  obtain ⟨bytes, sent, short, decoded⟩ := answered.contents
  obtain ⟨u, parsed⟩ := Option.isSome_iff_exists.mp answered.address
  have arguments : ¬ (hasContext = false ∨ token = [] ∨ token.length > maxCodeBytes) := by
    rintro (missing | empty | long)
    · rw [answered.context] at missing
      cases missing
    · exact answered.given.1 empty
    · exact absurd answered.given.2 (Nat.not_le.mpr long)
  have whole : bytes.take (maxIntrospectionResponseBytes + 1) = bytes :=
    List.take_of_length_le (by omega)
  rw [introspect, if_neg arguments]
  simp only [introspectionRequest, parsed]
  simp only [sent, tokenStatus, whole, if_neg (Nat.not_lt.mpr short), decoded]
  rfl

/-- A call that gets no body to decode fails. -/
theorem introspect_unanswered (none : ∀ body, ¬ Answered P D i hasContext token replies body)
    (now : Time) :
    (introspect P D i hasContext token replies now).1 = .error errIntrospectionFailed := by
  unfold introspect
  split
  · rfl
  · rename_i arguments
    simp only [not_or, Nat.not_lt, Bool.not_eq_false] at arguments
    split
    · rfl
    · rename_i u parsed
      simp only [tokenStatus]
      split
      · rename_i bytes sent
        split
        · rfl
        · rename_i short
          have within : bytes.length ≤ maxIntrospectionResponseBytes := by
            rw [List.length_take] at short
            omega
          rw [List.take_of_length_le (by omega)]
          split
          · rfl
          · rename_i body decoded
            refine absurd ?_ (none body)
            exact
              { context := arguments.1
                given := arguments.2
                address := Option.isSome_iff_exists.mpr ⟨u, parsed⟩
                contents := ⟨bytes, sent, within, decoded⟩ }
      · rfl

/-- The three things that may come of a decoded body. -/
inductive Verdict (i : TokenIntrospector) (now : Time) (body : IntrospectionBody) :
    Except OidcError TokenStatus → Prop
  | live (live : Live i now body) : Verdict i now body (.ok (activeStatus body))
  | inactive (inactive : body.active = false) : Verdict i now body (.ok zeroStatus)
  | refused (active : body.active = true) (dead : ¬ Live i now body) :
      Verdict i now body (.error errIntrospectionFailed)

theorem Verdict.exact {outcome : Except OidcError TokenStatus}
    (verdict : Verdict i now body outcome) :
    ((returned outcome).1.active = true ↔ Live i now body) ∧
      (returned outcome = (zeroStatus, none) ↔ body.active = false) ∧
      (Live i now body → returned outcome = (activeStatus body, none)) := by
  cases verdict with
  | live live =>
    have active := live.active
    simp [live, returned, activeStatus, zeroStatus, active]
  | inactive inactive =>
    have dead : ¬ Live i now body := by
      intro live
      rw [live.active] at inactive
      cases inactive
    simp [dead, returned, zeroStatus, inactive]
  | refused active dead => simp [dead, returned, zeroStatus, active]

theorem Verdict.cases {outcome : Except OidcError TokenStatus}
    (verdict : Verdict i now body outcome) :
    (returned outcome).1.active = true ∨ returned outcome = (zeroStatus, none) ∨
      returned outcome = (zeroStatus, some errIntrospectionFailed) := by
  cases verdict with
  | live live => exact .inl rfl
  | inactive inactive => exact .inr (.inl rfl)
  | refused active dead => exact .inr (.inr rfl)

theorem Answered.verdict (answered : Answered P D i hasContext token replies body)
    (folds : FoldsBearer P) (clock : Clock now) (issuedSigned : Signed64 body.issuedAt)
    (expirySigned : Signed64 body.expiresAt) :
    Verdict i now body (introspect P D i hasContext token replies now).1 := by
  rw [answered.introspected now, judged]
  cases active : body.active with
  | false => exact .inactive active
  | true =>
    have accepted_iff := activeAccepted_iff (i := i) folds clock issuedSigned expirySigned active
    cases accepted : activeAccepted P i now body with
    | false =>
      refine .refused active fun live => ?_
      rw [accepted_iff.mpr live] at accepted
      cases accepted
    | true => exact .live (accepted_iff.mp accepted)

end Calls

/-- Every call returns one of three things: an active status exactly for an answer about a live
token, the zero status without an error exactly for an inactive answer, and otherwise, also if
nothing was answered, the zero status with an error. -/
theorem introspection_exact (P : Platform) (D : Decoders) (i : TokenIntrospector)
    (folds : FoldsBearer P)
    (decodes : ∀ contents body, D.introspection contents = some body →
      Signed64 body.issuedAt ∧ Signed64 body.expiresAt)
    (hasContext : Bool) (token : Bytes) (replies : List Reply) {now : Time} (clock : Clock now) :
    let result := returned (introspect P D i hasContext token replies now).1
    (∀ body, Answered P D i hasContext token replies body →
      (result.1.active = true ↔ Live i now body) ∧
      (result = (zeroStatus, none) ↔ body.active = false) ∧
      (Live i now body → result = (activeStatus body, none))) ∧
    (result.1.active = true → ∃ body, Answered P D i hasContext token replies body) ∧
    (result.1.active = true ∨ result = (zeroStatus, none) ∨
      result = (zeroStatus, some errIntrospectionFailed)) ∧
    ((∀ body, ¬ Answered P D i hasContext token replies body) →
      result = (zeroStatus, some errIntrospectionFailed)) := by
  intro result
  have judge : ∀ body, Answered P D i hasContext token replies body →
      Verdict i now body (introspect P D i hasContext token replies now).1 := by
    intro body answered
    obtain ⟨bytes, _, _, decoded⟩ := answered.contents
    obtain ⟨issuedSigned, expirySigned⟩ := decodes bytes body decoded
    exact answered.verdict folds clock issuedSigned expirySigned
  have failed : (∀ body, ¬ Answered P D i hasContext token replies body) →
      result = (zeroStatus, some errIntrospectionFailed) := by
    intro unanswered
    simp only [result, introspect_unanswered unanswered now, returned]
  refine ⟨fun body answered => (judge body answered).exact, ?_, ?_, failed⟩
  · intro active
    by_contra unanswered
    rw [failed (not_exists.mp unanswered)] at active
    cases active
  · by_cases answered : ∃ body, Answered P D i hasContext token replies body
    · obtain ⟨body, answered⟩ := answered
      exact (judge body answered).cases
    · exact .inr (.inr (failed (not_exists.mp answered)))

/-! ## A token of one hour -/

def sampleEndpoint : Bytes := ascii "https://id.example/introspect"

def sampleAnswer : Bytes :=
  ascii "\x7b\"active\":true,\"client_id\":\"app\",\"sub\":\"user-1\",\"sid\":\"s1\"," ++
  ascii "\"scope\":\"openid\",\"token_type\":\"bearer\",\"iat\":1700000000,\"exp\":1700003600\x7d"

def sampleBody : IntrospectionBody where
  active := true
  clientID := ascii "app"
  subject := ascii "user-1"
  sessionID := ascii "s1"
  scope := ascii "openid"
  tokenType := ascii "bearer"
  issuedAt := 1700000000
  expiresAt := 1700003600

def samplePlatform : Platform where
  parseUrl := fun text =>
    if text = sampleEndpoint then
      some ⟨ascii "https", [], false, ascii "id.example", ascii "/introspect", false, [], []⟩
    else none
  renderUrl := fun _ => sampleEndpoint
  parseQuery := fun _ _ => []
  encodeQuery := fun _ => []
  trimSpace := id
  equalFold := fun a b => a.map lowerByte = b.map lowerByte
  sha256 := id
  parseJwks := fun _ => none
  parseSigned := fun _ => none
  unmarshalToken := fun _ => none

def sampleDecoders : Decoders where
  metadata := fun _ => none
  raw := fun _ => none
  introspection := fun contents => if contents = sampleAnswer then some sampleBody else none

def sampleIntrospector : TokenIntrospector := ⟨sampleEndpoint, ascii "app", [1], copyClient none⟩

theorem samplePlatform_folds : FoldsBearer samplePlatform := by
  intro text
  have lower : (ascii "Bearer").map lowerByte = ascii "bearer" := by decide
  simp only [samplePlatform, lower, decide_eq_true_eq]

theorem sampleDecoders_signed (contents : Bytes) (body : IntrospectionBody)
    (decoded : sampleDecoders.introspection contents = some body) :
    Signed64 body.issuedAt ∧ Signed64 body.expiresAt := by
  simp only [sampleDecoders, Option.ite_none_right_eq_some, Option.some.injEq] at decoded
  rw [← decoded.2]
  refine ⟨⟨?_, ?_⟩, ⟨?_, ?_⟩⟩ <;> decide

theorem sample_answered : Answered samplePlatform sampleDecoders sampleIntrospector true [7]
    [.received 200 none (some sampleAnswer)] sampleBody where
  context := rfl
  given := by decide
  address := by simp only [samplePlatform, sampleIntrospector, if_true, Option.isSome_some]
  contents := ⟨sampleAnswer, rfl, by rw [sampleAnswer]; repeat rw [ascii_ofList]; decide +kernel,
    by simp only [sampleDecoders, if_true]⟩

theorem sample_live : Live sampleIntrospector (Time.unix 1700000060 0) sampleBody where
  active := rfl
  client := rfl
  subject := by decide
  session := by decide
  scope := by decide
  bearer := by decide
  window := by constructor <;> decide

/-- One minute after it was issued the token is active. -/
theorem introspection_exact_hour :
    (introspect samplePlatform sampleDecoders sampleIntrospector true [7]
      [.received 200 none (some sampleAnswer)] (Time.unix 1700000060 0)).1 =
        .ok (activeStatus sampleBody) := by
  have clock : Clock (Time.unix 1700000060 0) := by constructor <;> decide
  obtain ⟨each, _⟩ := introspection_exact samplePlatform sampleDecoders sampleIntrospector
    samplePlatform_folds sampleDecoders_signed true [7] [.received 200 none (some sampleAnswer)]
    clock
  have result := (each sampleBody sample_answered).2.2 sample_live
  cases outcome : (introspect samplePlatform sampleDecoders sampleIntrospector true [7]
      [.received 200 none (some sampleAnswer)] (Time.unix 1700000060 0)).1 with
  | error e =>
    rw [outcome] at result
    cases result
  | ok status =>
    rw [outcome] at result
    cases result
    rfl

end IntrospectionWindow
