import StumpfworksFramework.Decimals
import StumpfworksFramework.HostPorts
import StumpfworksFramework.LookupReports

/-!
# Readers of a directory and what they send

`New` checks a configuration and keeps the host of its URL in two places: with a
port as the address that is dialed, and alone as the name the server's certificate
must have. A lookup sends at most three things, in one order: it dials, it binds
with the service credentials, and it searches.
-/

namespace DirectoryReaders

open ByteStrings Decimals DirectoryLookup EarlyReturns HostPorts Instants LookupReports
open UrlReferences (Url)

/-! ## New -/

/-- The certificate pool of the source is left to the world. -/
structure Config where
  url : Bytes
  baseDN : Bytes
  bindDN : Bytes
  bindPassword : Bytes
  timeout : Int
  observer : Option (LookupObservation → Finish)

/-- `url.Parse`, and whether `ParseDN` of the LDAP library accepts a name. -/
structure Library where
  parseUrl : Bytes → Option Url
  parsesDN : Bytes → Bool

/-- `strconv.Atoi` of a port that has only digits, and the test of its range. -/
def validPort (port : Bytes) : Bool := (readNatural port).any fun p => 1 ≤ p ∧ p ≤ 65535

def ldapsHost (u : Url) : Bool :=
  u.scheme = ascii "ldaps" ∧ (splitUrlHost u.host).1 ≠ [] ∧ u.hasUser = false ∧ u.path = [] ∧
    u.rawQuery = [] ∧ u.forceQuery = false ∧ u.fragment = []

def portOr (default port : Bytes) : Bytes := if port = [] then default else port

def timeoutOr (default timeout : Int) : Int := if timeout = 0 then default else timeout

def newReader (L : Library) (config : Config) : Except String Reader :=
  if config.url.length > 2048 ∨ config.baseDN.length > 4096 ∨ config.bindDN.length > 4096 ∨
      config.bindPassword.length > 4096 then .error "directory configuration exceeds size limits"
  else
    match L.parseUrl config.url with
    | none => .error "directory requires an LDAPS host URL"
    | some u =>
      let hostname := (splitUrlHost u.host).1
      let port := portOr (ascii "636") (splitUrlHost u.host).2
      let timeout := timeoutOr (8 * second) config.timeout
      if ldapsHost u = false then .error "directory requires an LDAPS host URL"
      else if validPort port = false then .error "invalid directory port"
      else if config.baseDN = [] ∨ config.bindDN = [] ∨ config.bindPassword = [] then
        .error "directory requires base DN and service credentials"
      else if L.parsesDN config.baseDN = false then .error "invalid directory base DN"
      else if timeout < second ∨ timeout > 30 * second then
        .error "directory timeout must be 1..30 seconds"
      else .ok ⟨config.baseDN, config.bindDN, config.bindPassword, timeout, config.observer,
        joinHostPort hostname port, hostname⟩

/-- A reader as `New` makes them. -/
structure Made (L : Library) (config : Config) (r : Reader) (u : Url) (port : Bytes) : Prop where
  parsed : L.parseUrl config.url = some u
  ldaps : ldapsHost u = true
  hostname : r.hostname = (splitUrlHost u.host).1
  portOf : port = portOr (ascii "636") (splitUrlHost u.host).2
  address : r.address = joinHostPort r.hostname port
  range : ∃ p, readNatural port = some p ∧ 1 ≤ p ∧ p ≤ 65535
  baseDN : r.baseDN = config.baseDN ∧ r.baseDN ≠ [] ∧ L.parsesDN r.baseDN = true
  credentials : r.bindDN = config.bindDN ∧ r.bindPassword = config.bindPassword ∧
    r.bindDN ≠ [] ∧ r.bindPassword ≠ []
  timeout : second ≤ r.timeout ∧ r.timeout ≤ 30 * second

theorem newReader_ok {L : Library} {config : Config} {r : Reader}
    (made : newReader L config = .ok r) : ∃ u port, Made L config r u port := by
  unfold newReader at made
  split at made
  · cases made
  split at made
  · cases made
  rename_i u parsed
  dsimp only at made
  split at made
  · cases made
  rename_i ldaps
  split at made
  · cases made
  rename_i range
  split at made
  · cases made
  rename_i given
  split at made
  · cases made
  rename_i named
  split at made
  · cases made
  rename_i timely
  cases made
  rw [not_or, not_or] at given
  rw [not_or, not_lt, gt_iff_lt, not_lt] at timely
  have inRange := Bool.eq_true_of_not_eq_false range
  rw [validPort, Option.any_eq_true] at inRange
  obtain ⟨p, reads, bounds⟩ := inRange
  exact ⟨u, _, parsed, Bool.eq_true_of_not_eq_false ldaps, rfl, rfl, rfl,
    ⟨p, reads, of_decide_eq_true bounds⟩,
    ⟨rfl, given.1, Bool.eq_true_of_not_eq_false named⟩,
    ⟨rfl, rfl, given.2.1, given.2.2⟩, timely⟩

/-- A number that was read has only digits. -/
theorem digits_of_readNatural {text : Bytes} {n : Nat} (reads : readNatural text = some n) :
    text.all isDigit = true := by
  unfold readNatural at reads
  split at reads
  · rename_i shape
    exact shape.2
  · cases reads

/-! ## Traffic -/

/-- What goes over the network. -/
def isNetwork : Event → Bool
  | .dial _ _ => true
  | .bind _ _ => true
  | .search _ => true
  | _ => false

/-- The frame has sent these so far. -/
def Sent (l : List Event) (f : Frame) : Prop := f.trace.filter isNetwork = l

/-- A piece that sends nothing. -/
def Silent {α : Type} (m : Lookup α) : Prop :=
  ∀ l, Triple (Sent l) m (fun _ => Sent l) (fun _ => Sent l)

section Silence

variable {α β : Type} {l : List Event}

theorem Sent.log {f : Frame} (sent : Sent l f) {e : Event} (quiet : isNetwork e = false) :
    Sent l (f.log e) := by
  unfold Sent Frame.log at *
  rw [List.filter_append, sent]
  simp [quiet]

theorem Sent.send {f : Frame} (sent : Sent l f) {e : Event} (loud : isNetwork e = true) :
    Sent (l ++ [e]) (f.log e) := by
  unfold Sent Frame.log at *
  rw [List.filter_append, sent]
  simp [loud]

theorem silent_bind {m : Lookup α} {next : α → Lookup β} (first : Silent m)
    (second : ∀ a, Silent (next a)) : Silent (m >>= next) := fun l =>
  (first l).bind fun a => second a l

theorem silent_exit (results : Results) : Silent (.exit results : Lookup α) := fun _ =>
  Triple.exit fun _ sent => sent

theorem silent_pure (a : α) : Silent (pure a : Lookup α) := fun _ => Triple.pure fun _ sent => sent

theorem silent_setOutcome (outcome : LookupOutcome) : Silent (setOutcome outcome) := fun _ =>
  Triple.assign fun _ sent => sent

theorem silent_setStage (stage : LookupStage) : Silent (setStage stage) := fun _ =>
  Triple.assign fun _ sent => sent

theorem silent_onlyIf {c : Prop} [Decidable c] {m : Lookup PUnit} (body : Silent m) :
    Silent (.onlyIf c m) := fun l => Triple.onlyIf (fun _ => body l) fun _ _ sent => sent

theorem silent_contextErr (W : World) (ctx : Context) : Silent (contextErr W ctx) := by
  intro l f sent
  refine ⟨?_, ?_⟩
  · rintro _ _ ⟨⟩
    exact sent.log rfl
  · rintro _ _ ⟨⟩

theorem silent_reject (text : String) : Silent (reject text : Lookup α) :=
  silent_bind (silent_setOutcome _) fun _ => silent_exit _

theorem silent_returnIfEnded (W : World) (ctx : Context) : Silent (returnIfEnded W ctx) :=
  silent_bind (silent_contextErr W ctx) fun _ => silent_onlyIf <|
    silent_bind (silent_contextErr W ctx) fun _ => silent_bind (silent_setOutcome _) fun _ =>
      silent_bind (silent_contextErr W ctx) fun _ => silent_exit _

theorem silent_conclude (result : SearchResult) : Silent (conclude result) := by
  refine silent_bind (silent_onlyIf (silent_exit _)) fun _ =>
    silent_bind (silent_setStage _) fun _ => ?_
  rcases result.entries with _ | ⟨entry, _ | ⟨second, more⟩⟩
  · exact silent_bind (silent_setOutcome _) fun _ => silent_exit _
  · exact silent_bind (silent_onlyIf (silent_exit _)) fun _ =>
      silent_bind (silent_setOutcome _) fun _ => silent_pure _
  · exact silent_bind (silent_setOutcome _) fun _ => silent_exit _

end Silence

section Order

variable (W : World) (r : Reader) (username : Bytes)

def dials : Event := .dial r.address r.hostname

def binds : Event := .bind r.bindDN r.bindPassword

def searches : Event := .search (searchRequest W r (W.trimSpace username))

/-- What has been sent, and that each part of it waited for the success of the one before. -/
inductive Ordered : List Event → Prop where
  | nothing : Ordered []
  | dialed : Ordered [dials r]
  | bound (connected : W.dial r.address r.hostname = .ok ()) : Ordered [dials r, binds r]
  | searched (connected : W.dial r.address r.hostname = .ok ())
      (authenticated : W.bind r.bindDN r.bindPassword = .ok ()) :
      Ordered [dials r, binds r, searches W r username]

def Traffic (f : Frame) : Prop := ∃ l, Sent l f ∧ Ordered W r username l

variable {W r username}

theorem Silent.traffic {α : Type} {m : Lookup α} (silent : Silent m) {l : List Event}
    (ordered : Ordered W r username l) :
    Triple (Sent l) m (fun _ => Traffic W r username) (fun _ => Traffic W r username) :=
  (silent l).weaken (fun _ sent => sent) (fun _ _ sent => ⟨l, sent, ordered⟩)
    (fun _ _ sent => ⟨l, sent, ordered⟩)

/-- A silent piece in front of another. -/
theorem Silent.passes {α : Type} {m : Lookup α} (silent : Silent m) {l : List Event}
    (ordered : Ordered W r username l) :
    Triple (Sent l) m (fun _ => Sent l) (fun _ => Traffic W r username) :=
  (silent l).weaken (fun _ sent => sent) (fun _ _ sent => sent) (fun _ _ sent => ⟨l, sent, ordered⟩)

theorem perform_sends {α : Type} {l : List Event} {e : Event} (loud : isNetwork e = true)
    (reply : α) {out : Results → Frame → Prop} :
    Triple (Sent l) (perform e reply) (fun a f => a = reply ∧ Sent (l ++ [e]) f) out := by
  intro f sent
  refine ⟨?_, ?_⟩
  · rintro _ _ ⟨⟩
    exact ⟨rfl, sent.send loud⟩
  · rintro _ _ ⟨⟩

theorem Traffic.log {f : Frame} (traffic : Traffic W r username f) {e : Event}
    (quiet : isNetwork e = false) : Traffic W r username (f.log e) := by
  obtain ⟨l, sent, ordered⟩ := traffic
  exact ⟨l, sent.log quiet, ordered⟩

theorem silent_refused (ctx : Context) :
    Silent (do
      returnIfEnded W ctx
      fail .errUnavailable : Lookup Results) :=
  silent_bind (silent_returnIfEnded W ctx) fun _ => silent_exit _

theorem converse_traffic (connected : W.dial r.address r.hostname = .ok ()) (ctx : Context) :
    Triple (Sent [dials r]) (converse W r ctx (W.trimSpace username))
      (fun _ => Traffic W r username) (fun _ => Traffic W r username) := by
  unfold converse
  refine Triple.bind ((silent_setStage _).passes .dialed) fun _ => ?_
  refine Triple.bind_assuming (perform_sends rfl _) fun bound answered => ?_
  rcases bound with _ | _
  · exact (silent_refused ctx).traffic (.bound connected)
  · refine Triple.bind ((silent_setStage _).passes (.bound connected)) fun _ => ?_
    refine Triple.bind_assuming (perform_sends rfl _) fun found _ => ?_
    have ordered : Ordered W r username [dials r, binds r, searches W r username] :=
      .searched connected answered.symm
    refine Triple.bind ((silent_returnIfEnded W ctx).passes ordered) fun _ => ?_
    rcases found with _ | result
    · exact (silent_exit _).traffic ordered
    · exact (silent_conclude result).traffic ordered

theorem body_traffic (ctx : Option Context) :
    Triple (Sent []) (body W r ctx username) (fun _ => Traffic W r username)
      (fun _ => Traffic W r username) := by
  unfold body
  rcases ctx with _ | parent
  · exact (silent_reject _).traffic .nothing
  · have trimmed : Triple (Sent []) (checkedUsername W username)
        (fun name f => name = W.trimSpace username ∧ Sent [] f)
        (fun _ => Traffic W r username) := by
      unfold checkedUsername
      refine Triple.bind ((silent_onlyIf (silent_reject _)).passes .nothing) fun _ => ?_
      refine Triple.bind ((silent_onlyIf (silent_reject _)).passes .nothing) fun _ => ?_
      exact Triple.pure fun _ sent => ⟨rfl, sent⟩
    refine Triple.bind_assuming trimmed ?_
    rintro _ rfl
    refine Triple.bind ((silent_setStage _).passes .nothing) fun _ => ?_
    refine Triple.bind_assuming (perform_sends rfl _) fun raw answered => ?_
    rcases raw with _ | _
    · exact (silent_refused _).traffic .dialed
    · have kept : ∀ e, isNetwork e = false → ∀ (_ : Results) f, Traffic W r username f →
          Traffic W r username (f.log e) := fun _ quiet _ _ traffic => traffic.log quiet
      exact ((converse_traffic answered.symm _).deferring (kept .connClose rfl)
        (kept .connClose rfl)).deferring (kept .rawClose rfl) (kept .rawClose rfl)

theorem getUser_ordered (W : World) (r : Reader) (ctx : Option Context) (username : Bytes) :
    Ordered W r username ((getUser W r ctx username).trace.filter isNetwork) := by
  obtain ⟨report, observations, call⟩ := getUser_eq W r ctx username
  have start : Sent [] ⟨.unavailable, .validation, []⟩ := rfl
  have traffic : Traffic W r username
      (Body.finish (body W r ctx username) ⟨.unavailable, .validation, []⟩).2 :=
    (body_traffic ctx).finish start
  obtain ⟨l, sent, ordered⟩ := traffic
  have unsent : report.filter isNetwork = [] := by
    rw [List.filter_eq_nil_iff]
    intro e mem
    obtain ⟨o, rfl⟩ := observations e mem
    simp [isNetwork]
  rw [call, List.filter_append, unsent, List.append_nil, sent]
  exact ordered

end Order

/-- For every configuration that `New` accepts and every lookup: what is sent is a part from the
start of dialing the host of the URL at its port, binding with the configured credentials and one
bounded search below the configured base, each only after the one before succeeded; and the name
the certificate is checked for is the host that is dialed. -/
theorem lookups_send_in_order (L : Library) (config : Config) (r : Reader)
    (made : newReader L config = .ok r) (W : World) (ctx : Option Context) (username : Bytes) :
    ∃ u port request, Made L config r u port ∧
      Ordered W r username ((getUser W r ctx username).trace.filter isNetwork) ∧
      searches W r username = .search request ∧ request.baseDN = config.baseDN ∧
      request.sizeLimit = 2 ∧ 1 ≤ request.timeLimit ∧ request.timeLimit ≤ 30 ∧
      (91 ∉ r.hostname → 93 ∉ r.hostname →
        splitHostPort r.address = some (r.hostname, port)) := by
  obtain ⟨u, port, made⟩ := newReader_ok made
  refine ⟨u, port, searchRequest W r (W.trimSpace username), made, ?_, rfl, made.baseDN.1, rfl,
    ?_, ?_, ?_⟩
  · exact getUser_ordered W r ctx username
  · exact Int.le_ediv_of_mul_le (by decide) (by simpa using made.timeout.1)
  · exact Int.ediv_le_of_le_mul (by decide) made.timeout.2
  · intro opening closing
    obtain ⟨p, reads, _⟩ := made.range
    rw [made.address]
    exact splitHostPort_joinHostPort opening closing (digits_of_readNatural reads)

/-- The library on one name. -/
def sampleLibrary : Library :=
  ⟨UrlReferences.parse UrlReferences.plainRules, fun name => name = ascii "DC=example,DC=org"⟩

/-- A host without a port. -/
def sampleConfig : Config :=
  ⟨ascii "ldaps://dc.example.org", ascii "DC=example,DC=org", ascii "CN=reader,DC=example,DC=org",
    ascii "secret", 0, none⟩

/-- The reader of the configuration, in a world that refuses the bind. -/
theorem lookups_send_in_order_refused :
    let W : World := { sampleWorld with bind := fun _ _ => .error "invalid credentials" }
    ∃ r, newReader sampleLibrary sampleConfig = .ok r ∧
      splitHostPort r.address = some (ascii "dc.example.org", ascii "636") ∧
      Ordered W r [106] ((getUser W r (some ⟨none⟩) [106]).trace.filter isNetwork) := by
  intro W
  have address : (newReader sampleLibrary sampleConfig).toOption.map Reader.address =
      some (ascii "dc.example.org:636") := by
    decide +kernel
  cases made : newReader sampleLibrary sampleConfig with
  | error cause =>
    rw [made] at address
    cases address
  | ok r =>
    rw [made] at address
    obtain ⟨u, port, request, _, ordered, _⟩ :=
      lookups_send_in_order sampleLibrary sampleConfig r made W (some ⟨none⟩) [106]
    refine ⟨r, rfl, ?_, ordered⟩
    rw [Option.some.inj address]
    decide +kernel

end DirectoryReaders
