import Mathlib.Data.List.OfFn
import StumpfworksFramework.HexText
import StumpfworksFramework.RecoveredPanics

/-!
# Request identities across services

A request without a usable identity of its own is given a random one, and every
service behind `Chain` that receives a request with such an identity keeps it.
A path of requests, each of which carries the identity of the one before, has
therefore one identity in all its logs and responses, as long as the handlers
leave the header alone.
-/

namespace RequestIdentities

open ByteStrings HexText HttpResponses MiddlewareChain RecoveredPanics Utf8Runes
open ResponseStatus (Recorder)

/-! ## Random identities -/

/-- Sixteen octets, as `rand.Read` fills them. -/
abbrev Draw := Fin 16 → UInt8

/-- The version and the variant are set. -/
def stamp (value : Draw) : Draw :=
  let value := Function.update value 6 ((value 6 &&& 0x0f) ||| 0x40)
  Function.update value 8 ((value 8 &&& 0x3f) ||| 0x80)

/-- `value[low:high]`. -/
def slice (value : Draw) (low high : Nat) : Bytes := ((List.ofFn value).take high).drop low

def format (value : Draw) : Bytes :=
  hexEncode (slice value 0 4) ++ 45 :: hexEncode (slice value 4 6) ++
    45 :: hexEncode (slice value 6 8) ++ 45 :: hexEncode (slice value 8 10) ++
    45 :: hexEncode (slice value 10 16)

/-- `id.New`; without a draw the random source failed. -/
def new (random : Option Draw) : Except String Bytes :=
  match random with
  | none => .error "generate random ID"
  | some value => .ok (format (stamp value))

/-- What `requestID` makes of the result, whose error it ignores. -/
def newID (random : Option Draw) : Bytes :=
  match new random with
  | .ok id => id
  | .error _ => []

section Format

theorem length_slice (value : Draw) {low high : Nat} (within : high ≤ 16) :
    (slice value low high).length = high - low := by
  rw [slice, List.length_drop, List.length_take, List.length_ofFn]
  omega

theorem append_dash_inj {a b a' b' : Bytes} (length : a.length = a'.length) :
    a ++ 45 :: b = a' ++ 45 :: b' ↔ a = a' ∧ b = b' := by
  constructor
  · intro same
    obtain ⟨front, back⟩ := List.append_inj same length
    exact ⟨front, (List.cons.inj back).2⟩
  · rintro ⟨rfl, rfl⟩
    rfl

/-- The text has every octet in its place. -/
theorem format_injective : Function.Injective format := by
  intro value value' same
  have sizes : ∀ low high, high ≤ 16 →
      (hexEncode (slice value low high)).length = (hexEncode (slice value' low high)).length := by
    intro low high within
    rw [length_hexEncode, length_hexEncode, length_slice value within, length_slice value' within]
  unfold format at same
  simp only [List.append_assoc, List.cons_append] at same
  obtain ⟨first, same⟩ := (append_dash_inj (sizes 0 4 (by decide))).mp same
  obtain ⟨second, same⟩ := (append_dash_inj (sizes 4 6 (by decide))).mp same
  obtain ⟨third, same⟩ := (append_dash_inj (sizes 6 8 (by decide))).mp same
  obtain ⟨fourth, fifth⟩ := (append_dash_inj (sizes 8 10 (by decide))).mp same
  have whole : ∀ v : Draw, List.ofFn v = slice v 0 4 ++ (slice v 4 6 ++ (slice v 6 8 ++
      (slice v 8 10 ++ slice v 10 16))) := by
    intro v
    simp [slice, List.ofFn_succ]
  apply List.ofFn_injective
  rw [whole value, whole value', hexEncode_injective first, hexEncode_injective second,
    hexEncode_injective third, hexEncode_injective fourth, hexEncode_injective fifth]

/-- A digit, a letter up to `f`, or the dash. -/
def isIDByte (b : UInt8) : Prop := (48 ≤ b ∧ b ≤ 57) ∨ (97 ≤ b ∧ b ≤ 102) ∨ b = 45

instance (b : UInt8) : Decidable (isIDByte b) := inferInstanceAs (Decidable (_ ∨ _ ∨ _))

theorem isIDByte_hexEncode (bytes : Bytes) : ∀ b ∈ hexEncode bytes, isIDByte b := by
  refine forall_mem_hexEncode ?_ bytes
  exact forall_octet (by decide +kernel)

theorem isIDByte_format (value : Draw) : ∀ b ∈ format value, isIDByte b := by
  have dash : isIDByte 45 := .inr (.inr rfl)
  intro b mem
  unfold format at mem
  simp only [List.append_assoc, List.cons_append, List.mem_append, List.mem_cons] at mem
  rcases mem with digits | rfl | digits | rfl | digits | rfl | digits | rfl | digits
  · exact isIDByte_hexEncode _ b digits
  · exact dash
  · exact isIDByte_hexEncode _ b digits
  · exact dash
  · exact isIDByte_hexEncode _ b digits
  · exact dash
  · exact isIDByte_hexEncode _ b digits
  · exact dash
  · exact isIDByte_hexEncode _ b digits

theorem length_format (value : Draw) : (format value).length = 36 := by
  simp [format, length_hexEncode, length_slice]

theorem isIDByte_valid : ∀ b : UInt8, isIDByte b → b < 0x80 ∧
    ((97 ≤ b.toNat ∧ b.toNat ≤ 122) ∨ (65 ≤ b.toNat ∧ b.toNat ≤ 90) ∨
      (48 ≤ b.toNat ∧ b.toNat ≤ 57) ∨ b.toNat = 45 ∨ b.toNat = 95) :=
  forall_octet (by decide +kernel)

/-- A random identity is one that every service accepts. -/
theorem validRequestID_format (value : Draw) : validRequestID (format value) = true := by
  have length := length_format value
  have ascii : Ascii (format value) := fun b mem =>
    (isIDByte_valid b (isIDByte_format value b mem)).1
  have some : format value ≠ [] := by
    intro empty
    rw [empty] at length
    cases length
  have characters : (runes (format value)).all (fun c =>
      (97 ≤ c ∧ c ≤ 122) ∨ (65 ≤ c ∧ c ≤ 90) ∨ (48 ≤ c ∧ c ≤ 57) ∨ c = 45 ∨ c = 95) = true := by
    rw [runes_ascii ascii, List.all_map, List.all_eq_true]
    intro b mem
    exact decide_eq_true (isIDByte_valid b (isIDByte_format value b mem)).2
  rw [validRequestID, length, characters]
  simp [some]

/-- What a draw contributes to its identity: all but four bits of one octet and two of another. -/
def contributed (value : Draw) : Draw := fun i =>
  if i = 6 then value 6 &&& 0x0f else if i = 8 then value 8 &&& 0x3f else value i

theorem version_bits : ∀ b : UInt8, ((b &&& 0x0f) ||| 0x40) &&& 0x0f = b &&& 0x0f :=
  forall_octet (by decide +kernel)

theorem variant_bits : ∀ b : UInt8, ((b &&& 0x3f) ||| 0x80) &&& 0x3f = b &&& 0x3f :=
  forall_octet (by decide +kernel)

theorem contributed_stamp (value : Draw) : contributed (stamp value) = contributed value := by
  funext i
  unfold contributed stamp
  by_cases version : i = 6
  · rw [if_pos version, if_pos version]
    exact version_bits (value 6)
  · rw [if_neg version, if_neg version]
    by_cases variant : i = 8
    · rw [if_pos variant, if_pos variant]
      exact variant_bits (value 8)
    · rw [if_neg variant, if_neg variant]
      simp [Function.update_of_ne, version, variant]

theorem stamp_contributed (value : Draw) : stamp (contributed value) = stamp value := by
  funext i
  unfold stamp
  by_cases variant : i = 8
  · subst variant
    simp [contributed, UInt8.and_assoc]
  · by_cases version : i = 6
    · subst version
      simp [contributed, UInt8.and_assoc]
    · simp [Function.update_of_ne, contributed, version, variant]

/-- Two draws give one identity exactly if they agree in what they contribute. -/
theorem newID_eq_iff (value value' : Draw) :
    newID (some value) = newID (some value') ↔ contributed value = contributed value' := by
  show format (stamp value) = format (stamp value') ↔ _
  rw [format_injective.eq_iff]
  constructor
  · intro same
    rw [← contributed_stamp value, same, contributed_stamp]
  · intro same
    rw [← stamp_contributed value, same, stamp_contributed]

end Format

/-! ## One service -/

/-- The identity of requests to a service is random where they have none of their own. -/
def Generated (E : Surroundings) : Prop := ∃ random, E.newID = newID random

theorem requestIdentity_valid {E : Surroundings} (generated : Generated E) {request : Request}
    (some : requestIdentity E request ≠ []) :
    validRequestID (requestIdentity E request) = true := by
  obtain ⟨random, new⟩ := generated
  unfold requestIdentity at some ⊢
  split
  · assumption
  · rename_i invalid
    rw [if_neg invalid, new] at some
    rw [new]
    cases random with
    | none => exact absurd rfl some
    | some value => exact validRequestID_format (stamp value)

/-- An identity that one service has given or accepted is kept by every other. -/
theorem requestIdentity_kept {id : Bytes} (valid : validRequestID id = true) (E : Surroundings)
    {request : Request} (carried : request.header.get requestIDName = id) :
    requestIdentity E request = id := by
  rw [requestIdentity, carried, if_pos valid]

/-- The identity stands in the headers, also in those that were sent. -/
structure Labelled (id : Bytes) (r : Response) : Prop where
  header : r.handlerHeader.values requestIDName = [id]
  sent : ∀ e ∈ r.sent, e.2.values requestIDName = [id]

/-- A handler's run that sets no other identity. -/
def Leaves (id : Bytes) (script : Script) : Prop :=
  ∀ step ∈ script.steps, ∀ h, step = .header h → h.values requestIDName = [id]

section Labelled

variable {id : Bytes} {r : Response}

theorem requestIDName_ne_length : requestIDName ≠ contentLength := by decide +kernel

theorem Labelled.writeHeader (labelled : Labelled id r) (code : Int) :
    Labelled id (r.writeHeader code) := by
  unfold Response.writeHeader
  split
  · exact labelled
  · split
    · exact ⟨labelled.header, labelled.sent⟩
    · have sent : ∀ e ∈ some (code, r.handlerHeader), e.2.values requestIDName = [id] := by
        rintro e same
        cases same
        exact labelled.header
      -- a malformed length is removed from the map, and nothing else
      unfold Response.declare
      split
      · exact ⟨labelled.header, sent⟩
      · split
        · exact ⟨labelled.header, sent⟩
        · refine ⟨?_, sent⟩
          show (r.handlerHeader.del contentLength).values requestIDName = [id]
          rw [Header.values_del, if_neg requestIDName_ne_length]
          exact labelled.header

theorem Labelled.append (labelled : Labelled id r) (data : Bytes) :
    Labelled id (r.append data) := by
  unfold Response.append
  split
  · exact labelled
  · split
    · exact ⟨labelled.header, labelled.sent⟩
    · exact ⟨labelled.header, labelled.sent⟩

theorem Labelled.write (labelled : Labelled id r) (data : Bytes) : Labelled id (r.write data) :=
  (labelled.writeHeader 200).append data

theorem Labelled.setHeader (labelled : Labelled id r) {h : Header}
    (same : h.values requestIDName = [id]) :
    Labelled id (netHTTP.setHeader r h) :=
  ⟨same, labelled.sent⟩

theorem Labelled.problem (labelled : Labelled id r) (E : Surroundings) (status : Int)
    (details : ConcurrencyLimit.Details) :
    Labelled id (problemWrite E (logged netHTTP) ⟨r, status⟩ details).inner := by
  have kept : (problemHeader r.handlerHeader).values requestIDName = [id] := by
    rw [problemHeader_other (by decide +kernel) (by decide +kernel)]
    exact labelled.header
  exact ((labelled.setHeader kept).writeHeader _).write _

/-- A run that leaves the identity alone keeps it in the headers. -/
theorem Labelled.run {steps : List Step}
    (leaves : ∀ step ∈ steps, ∀ h, step = .header h → h.values requestIDName = [id])
    {r : Recorder Response}
    (labelled : Labelled id r.inner) :
    Labelled id (steps.foldl (Step.run (logged netHTTP)) r).inner := by
  induction steps generalizing r with
  | nil => exact labelled
  | cons step rest ih =>
    refine ih (fun later mem => leaves later (List.mem_cons_of_mem step mem)) ?_
    cases step with
    | header h => exact labelled.setHeader (leaves _ List.mem_cons_self h rfl)
    | writeHeader code => exact labelled.writeHeader code
    | write body => exact labelled.write body

end Labelled

/-- The identity that an entry of the log names. -/
def entryID : LogEntry → Bytes
  | .requestPanic id => id
  | .requestCompleted id _ _ _ _ => id

/-- Everything that a service says about a request names its identity. -/
theorem chain_labelled (E : Surroundings) {request : Request} {id : Bytes} (named : id ≠ [])
    (identity : requestIdentity E request = id) (next : Handler) (initial : Header)
    (leaves : Leaves id (next (identified E request) (found E request initial))) :
    let r := chain E netHTTP next (Response.fresh initial) request
    Labelled id r.1 ∧ ∀ entry ∈ r.2, entryID entry = id := by
  intro r
  have header : (found E request initial).values requestIDName = [id] := by
    have apart : requestIDName ∉ securityNames := by decide +kernel
    rw [found, secured_other _ _ apart, identity, if_neg named, Header.values_set, if_pos rfl]
  have context : (identified E request).contextID = id := by
    rw [identified, identity, if_neg named]
  have start : Labelled id (Recorder.fresh (Response.fresh (found E request initial))).inner :=
    ⟨header, fun _ sent => absurd sent (Option.not_mem_none _)⟩
  have ran := start.run leaves
  have whole : r = _ := chain_eq next request initial
  rw [whole]
  unfold recoverer
  dsimp only [header_fresh]
  split
  · refine ⟨ran.problem E _ _, ?_⟩
    intro entry mem
    rcases List.mem_append.mp mem with panicked | completed
    · rw [List.mem_singleton.mp panicked]
      show Header.get (Response.handlerHeader _) requestIDName = id
      rw [Header.get, ran.header]
      rfl
    · rw [List.mem_singleton.mp completed]
      exact context
  · refine ⟨ran, ?_⟩
    intro entry mem
    rw [List.nil_append, List.mem_singleton] at mem
    rw [mem]
    exact context

/-! ## Paths -/

/-- A request at one service. -/
structure Hop where
  service : Surroundings
  request : Request
  next : Handler
  initial : Header

def Hop.identity (hop : Hop) : Bytes := requestIdentity hop.service hop.request

/-- Each request carries the identity of the one before. -/
def Forwards (path : List Hop) : Prop :=
  path.IsChain fun hop later => later.request.header.get requestIDName = hop.identity

/-- The response to a request and what was logged about it. -/
def Hop.serve (hop : Hop) : Response × List LogEntry :=
  chain hop.service netHTTP hop.next (Response.fresh hop.initial) hop.request

theorem Forwards.identity {first : Hop} {rest : List Hop} (forwards : Forwards (first :: rest))
    (valid : validRequestID first.identity = true) :
    ∀ hop ∈ first :: rest, hop.identity = first.identity := by
  induction rest generalizing first with
  | nil =>
    intro hop mem
    rw [List.mem_singleton.mp mem]
  | cons second rest ih =>
    obtain ⟨carried, later⟩ := List.isChain_cons_cons.mp forwards
    have same : second.identity = first.identity :=
      requestIdentity_kept valid second.service carried
    intro hop mem
    rcases List.mem_cons.mp mem with rfl | mem
    · rfl
    · rw [ih later (same ▸ valid) hop mem, same]

/-- On every path of requests through any number of services, all responses and all log entries
carry the identity of the first request, as long as it has one and the handlers leave the header
alone. That identity is the client's own or a random one, which two draws share exactly if they
agree outside the six bits that `id.New` sets. -/
theorem identities_travel {first : Hop} {rest : List Hop} (forwards : Forwards (first :: rest))
    {random : Option Draw} (generated : first.service.newID = newID random)
    (named : first.identity ≠ []) :
    (∀ hop ∈ first :: rest,
      Leaves first.identity (hop.next (identified hop.service hop.request)
        (found hop.service hop.request hop.initial)) →
      (∀ e ∈ hop.serve.1.sent, e.2.values requestIDName = [first.identity]) ∧
      ∀ entry ∈ hop.serve.2, entryID entry = first.identity) ∧
    (first.identity = first.request.header.get requestIDName ∨
      ∃ value, random = some value ∧ ∀ value',
        first.identity = newID (some value') ↔ contributed value' = contributed value) := by
  have valid := requestIdentity_valid ⟨random, generated⟩ named
  refine ⟨?_, ?_⟩
  · intro hop mem leaves
    have same := forwards.identity valid hop mem
    obtain ⟨labelled, entries⟩ := chain_labelled hop.service named same hop.next hop.initial leaves
    exact ⟨labelled.sent, entries⟩
  · unfold Hop.identity at named ⊢
    unfold requestIdentity at named ⊢
    split
    · exact .inl rfl
    · rename_i invalid
      rw [if_neg invalid, generated] at named
      rw [generated]
      cases random with
      | none => exact absurd rfl named
      | some value =>
        refine .inr ⟨value, rfl, fun value' => ?_⟩
        rw [newID_eq_iff, eq_comm]

/-- Two services; the first request comes without an identity, and the second handler panics. -/
def samplePath (draw : Draw) : List Hop :=
  let request (header : Header) : Request := ⟨header, true, true, ascii "GET", [], []⟩
  let service : Surroundings :=
    ⟨⟨fun _ => "", fun _ => [0]⟩, fun _ => "", newID (some draw), 0⟩
  [⟨service, request ∅, fun _ _ => ⟨[.write [1]], false⟩, ∅⟩,
    ⟨{ service with newID := [] }, request (Header.set ∅ requestIDName (newID (some draw))),
      fun _ _ => ⟨[], true⟩, ∅⟩]

theorem identities_travel_sample :
    let id := newID (some fun _ => 0)
    id = ascii "00000000-0000-4000-8000-000000000000" ∧
    ∀ hop ∈ samplePath (fun _ => 0), ∀ entry ∈ hop.serve.2, entryID entry = id := by
  intro id
  have named : id ≠ [] := by decide +kernel
  refine ⟨by decide +kernel, ?_⟩
  have forwards : Forwards (samplePath fun _ => 0) :=
    List.isChain_cons_cons.mpr ⟨rfl, List.isChain_singleton _⟩
  intro hop mem entry logged
  have travel := identities_travel forwards (show _ = newID (some fun _ => 0) from rfl) named
  refine (travel.1 hop mem ?_).2 entry logged
  intro step inside h same
  simp only [samplePath, List.mem_cons, List.not_mem_nil, or_false] at mem
  rcases mem with rfl | rfl
  · rw [List.mem_singleton.mp inside] at same
    cases same
  · cases inside

end RequestIdentities
