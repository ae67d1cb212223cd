import StumpfworksFramework.Runs
import StumpfworksFramework.SealedLogins

/-!
# The configuration cache and the clients made from it

`Refresh` replaces the stored configuration under a lock once discovery has
succeeded; what discovery returns is left open. `Current` and `Status` read it
under the same lock. Each is atomic with its own clock reading, which may move
backward. A client keeps the copy of the configuration it was made from, so
later refreshes reach neither its keys nor its deadline. A cache is never nil.

Discovery itself and the refresh loop are not modelled here.
-/

namespace ConfigurationCache

open ByteStrings Instants OidcClients OidcTransactions Runs SealedLogins

structure Cache where
  issuer : Bytes
  clientID : Bytes
  maxAge : Int
  current : Option Configuration
  fetchedAt : Time
  bounds : minute ≤ maxAge ∧ maxAge ≤ hour

structure CacheStatus where
  lastSuccessfulRefresh : Time
  expiresAt : Time
  fresh : Bool

def newConfigurationCache (P : Platform) (issuer clientID : Bytes) (maxAge : Int) :
    Except OidcError Cache :=
  if refused : validIssuer P issuer = false ∨ clientID = [] ∨ maxAge < minute ∨ maxAge > hour then
    .error (.other "invalid OIDC cache configuration")
  else
    .ok ⟨issuer, clientID, maxAge, none, ⟨0⟩, by
      simp only [not_or, not_lt, gt_iff_lt] at refused
      exact refused.2.2⟩

/-- `Refresh` with the result of discovery. -/
def Cache.refresh (cache : Cache) (discovered : Except OidcError Configuration) (now : Time) :
    Cache × Except OidcError Unit :=
  match discovered with
  | .error e => (cache, .error e)
  | .ok configuration => ({ cache with current := some configuration, fetchedAt := now }, .ok ())

/-- `Current` at one clock reading. -/
def Cache.currentAt (cache : Cache) (now : Time) : Except OidcError Configuration :=
  match cache.current with
  | none => .error .errStaleConfiguration
  | some configuration =>
    if cache.fetchedAt.after (now.add clockSkew) = true ∨
        now.sub cache.fetchedAt ≥ cache.maxAge then
      .error .errStaleConfiguration
    else .ok { configuration with validUntil := cache.fetchedAt.add cache.maxAge }

def Cache.status (cache : Cache) (now : Time) : CacheStatus :=
  match cache.current with
  | none => ⟨⟨0⟩, ⟨0⟩, false⟩
  | some _ =>
    let expiresAt := cache.fetchedAt.add cache.maxAge
    ⟨cache.fetchedAt, expiresAt,
      !cache.fetchedAt.after (now.add clockSkew) && now.before expiresAt⟩

/-- The cache, the configurations it has handed out, and the clients made from them. -/
structure World where
  cache : Cache
  snapshots : List Configuration
  clients : List LoginClient

inductive Action where
  | refresh (discovered : Except OidcError Configuration) (now : Time)
  | current (now : Time)
  | status (now : Time)
  | newLoginClient (snapshot : Nat) (clientID clientSecret redirectURI : Bytes)
  | begin (client : ClientRef) (staleReading createdReading : Time) (draws : Draws)

inductive Outcome where
  | refreshed (result : Except OidcError Unit)
  | snapshot (result : Except OidcError Configuration)
  | status (result : CacheStatus)
  | made (error : Option OidcError)
  | begun (result : Except OidcError (AuthorizationURL × Transaction))
  | absent

def step (P : Platform) (w : World) : Action → World × Outcome
  | .refresh discovered now =>
    ({ w with cache := (w.cache.refresh discovered now).1 },
      .refreshed (w.cache.refresh discovered now).2)
  | .current now =>
    match w.cache.currentAt now with
    | .error e => (w, .snapshot (.error e))
    | .ok configuration =>
      ({ w with snapshots := w.snapshots ++ [configuration] }, .snapshot (.ok configuration))
  | .status now => (w, .status (w.cache.status now))
  | .newLoginClient i clientID clientSecret redirectURI =>
    match w.snapshots[i]? with
    | none => (w, .absent)
    | some configuration =>
      match OidcClients.newLoginClient P (some configuration) clientID clientSecret redirectURI with
      | .error e => (w, .made (some e))
      | .ok c => ({ w with clients := w.clients ++ [c] }, .made none)
  | .begin i staleReading createdReading draws =>
    match w.clients[i]? with
    | none => (w, .absent)
    | some c => (w, .begun (LoginClient.begin P i c staleReading createdReading draws))

def AfterEpoch (t : Time) : Prop := unixToInternal * second ≤ t.ns

/-- Clocks show times after the Unix epoch. -/
def Sane (_ : World) : Action → Prop
  | .refresh _ now => AfterEpoch now
  | .current now => AfterEpoch now
  | .status now => AfterEpoch now
  | .newLoginClient .. => True
  | .begin _ staleReading createdReading _ => AfterEpoch staleReading ∧ AfterEpoch createdReading

/-! ## Freshness at one clock reading -/

/-- The three conditions on a refresh at `t`. -/
def FreshAt (t : Time) (maxAge : Int) (now : Time) : Prop :=
  t.ns ≤ now.ns + minute ∧ now.ns < t.ns + maxAge

theorem Cache.currentAt_ok_iff (cache : Cache) (now : Time) (configuration : Configuration) :
    cache.currentAt now = .ok configuration ↔
      ∃ stored, cache.current = some stored ∧ FreshAt cache.fetchedAt cache.maxAge now ∧
        configuration = { stored with validUntil := cache.fetchedAt.add cache.maxAge } := by
  unfold Cache.currentAt
  split
  · rename_i empty
    simp [empty]
  · rename_i stored found
    have low := cache.bounds.1
    have high := cache.bounds.2
    simp only [minute, hour, second] at low high
    have age := Time.le_sub_iff now cache.fetchedAt (d := cache.maxAge) (by omega) (by omega)
    have fresh : ¬ (cache.fetchedAt.after (now.add clockSkew) = true ∨
        now.sub cache.fetchedAt ≥ cache.maxAge) ↔ FreshAt cache.fetchedAt cache.maxAge now := by
      rw [Time.after_iff, Time.add_ns, ge_iff_le, age, FreshAt, clockSkew]
      omega
    split
    · rename_i stale
      constructor
      · intro h
        cases h
      · rintro ⟨_, _, isFresh, _⟩
        exact absurd stale (fresh.mpr isFresh)
    · rename_i notStale
      constructor
      · intro h
        cases h
        exact ⟨stored, found, fresh.mp notStale, rfl⟩
      · rintro ⟨_, same, _, rfl⟩
        rw [found] at same
        cases same
        rfl

theorem Cache.status_fresh_iff (cache : Cache) (now : Time) :
    (cache.status now).fresh = true ↔
      ∃ stored, cache.current = some stored ∧ FreshAt cache.fetchedAt cache.maxAge now := by
  unfold Cache.status
  split
  · rename_i empty
    simp [empty]
  · rename_i stored found
    simp only [Bool.and_eq_true, Bool.not_eq_true', Bool.eq_false_iff, ne_eq, Time.after_iff,
      Time.add_ns, not_lt, Time.before_iff, clockSkew, FreshAt]
    constructor
    · intro fresh
      exact ⟨stored, found, fresh⟩
    · rintro ⟨_, _, fresh⟩
      exact fresh

/-! ## Whole runs -/

/-- The last successful refresh: its configuration and the time it was stored. -/
def lastRefresh (h : List (Action × Outcome)) : Option (Configuration × Time) :=
  h.foldl (fun last e =>
    match e.1 with
    | .refresh (.ok configuration) now => some (configuration, now)
    | _ => last) none

@[simp] theorem lastRefresh_nil : lastRefresh [] = none := rfl

theorem lastRefresh_snoc (h : List (Action × Outcome)) (a : Action) (o : Outcome) :
    lastRefresh (h ++ [(a, o)]) =
      match a with
      | .refresh (.ok configuration) now => some (configuration, now)
      | _ => lastRefresh h := by
  simp [lastRefresh, List.foldl_append]

/-- `Current` handed the configuration out while the refresh at `t` was the last one. -/
def HandedOut (maxAge : Int) (h : List (Action × Outcome)) (configuration : Configuration)
    (t : Time) : Prop :=
  AfterEpoch t ∧ ∃ h₁ h₂ now stored,
    h = h₁ ++ (.current now, .snapshot (.ok configuration)) :: h₂ ∧
      lastRefresh h₁ = some (stored, t) ∧
      configuration = { stored with validUntil := t.add maxAge }

theorem HandedOut.snoc {maxAge : Int} {h : List (Action × Outcome)} {configuration : Configuration}
    {t : Time} (handed : HandedOut maxAge h configuration t) (e : Action × Outcome) :
    HandedOut maxAge (h ++ [e]) configuration t := by
  obtain ⟨sane, h₁, h₂, now, stored, rfl, last, same⟩ := handed
  exact ⟨sane, h₁, h₂ ++ [e], now, stored, by simp, last, same⟩

structure Inv (maxAge : Int) (h : List (Action × Outcome)) (w : World) : Prop where
  age : w.cache.maxAge = maxAge
  stored : w.cache.current = (lastRefresh h).map Prod.fst
  fetched : ∀ configuration t, lastRefresh h = some (configuration, t) →
    w.cache.fetchedAt = t ∧ AfterEpoch t
  snapshots : ∀ configuration ∈ w.snapshots, ∃ t, HandedOut maxAge h configuration t
  clients : ∀ c ∈ w.clients, ∃ t, HandedOut maxAge h c.configuration t

section Preservation

variable {maxAge : Int} {h : List (Action × Outcome)} {w w' : World}

theorem Inv.snapshots_snoc (inv : Inv maxAge h w) (e : Action × Outcome) :
    ∀ configuration ∈ w.snapshots, ∃ t, HandedOut maxAge (h ++ [e]) configuration t := by
  intro configuration mem
  obtain ⟨t, handed⟩ := inv.snapshots configuration mem
  exact ⟨t, handed.snoc e⟩

theorem Inv.clients_snoc (inv : Inv maxAge h w) (e : Action × Outcome) :
    ∀ c ∈ w.clients, ∃ t, HandedOut maxAge (h ++ [e]) c.configuration t := by
  intro c mem
  obtain ⟨t, handed⟩ := inv.clients c mem
  exact ⟨t, handed.snoc e⟩

/-- An action that leaves the cache alone need only account for what it hands out. -/
theorem Inv.same_cache (inv : Inv maxAge h w) {e : Action × Outcome}
    (last : lastRefresh (h ++ [e]) = lastRefresh h) (cache : w'.cache = w.cache)
    (snapshots : ∀ configuration ∈ w'.snapshots, ∃ t, HandedOut maxAge (h ++ [e]) configuration t)
    (clients : ∀ c ∈ w'.clients, ∃ t, HandedOut maxAge (h ++ [e]) c.configuration t) :
    Inv maxAge (h ++ [e]) w' := by
  constructor
  · rw [cache]
    exact inv.age
  · rw [cache, last]
    exact inv.stored
  · rw [cache, last]
    exact inv.fetched
  · exact snapshots
  · exact clients

theorem Inv.quiet (inv : Inv maxAge h w) {e : Action × Outcome}
    (last : lastRefresh (h ++ [e]) = lastRefresh h) : Inv maxAge (h ++ [e]) w :=
  inv.same_cache last rfl (inv.snapshots_snoc e) (inv.clients_snoc e)

/-- What `Current` returns is the configuration of the last refresh, with its deadline. -/
theorem Inv.handed_out (inv : Inv maxAge h w) {now : Time} {configuration : Configuration}
    (given : w.cache.currentAt now = .ok configuration) :
    ∃ t, HandedOut maxAge (h ++ [(.current now, .snapshot (.ok configuration))])
      configuration t := by
  obtain ⟨stored, current, _, same⟩ := (w.cache.currentAt_ok_iff now configuration).mp given
  rw [inv.stored] at current
  obtain ⟨⟨_, t⟩, last, rfl⟩ := Option.map_eq_some_iff.mp current
  obtain ⟨fetchedAt, after⟩ := inv.fetched _ t last
  rw [fetchedAt, inv.age] at same
  exact ⟨t, after, h, [], now, _, rfl, last, same⟩

theorem Inv.step {P : Platform} (inv : Inv maxAge h w) (a : Action) (sane : Sane w a) :
    Inv maxAge (h ++ [(a, (step P w a).2)]) (step P w a).1 := by
  cases a with
  | refresh discovered now =>
    cases discovered with
    | error e => exact inv.quiet (lastRefresh_snoc ..)
    | ok configuration =>
      refine ⟨inv.age, ?_, ?_, inv.snapshots_snoc _, inv.clients_snoc _⟩
      · rw [lastRefresh_snoc]
        rfl
      · rw [lastRefresh_snoc]
        intro configuration' t same
        cases same
        exact ⟨rfl, sane⟩
  | current now =>
    simp only [ConfigurationCache.step]
    split
    · exact inv.quiet (lastRefresh_snoc ..)
    · rename_i configuration given
      refine inv.same_cache (lastRefresh_snoc ..) rfl ?_ (inv.clients_snoc _)
      exact forall_mem_concat (inv.snapshots_snoc _) (inv.handed_out given)
  | status now => exact inv.quiet (lastRefresh_snoc ..)
  | newLoginClient i clientID clientSecret redirectURI =>
    simp only [ConfigurationCache.step]
    split
    · exact inv.quiet (lastRefresh_snoc ..)
    · rename_i configuration found
      split
      · exact inv.quiet (lastRefresh_snoc ..)
      · rename_i c made
        refine inv.same_cache (lastRefresh_snoc ..) rfl (inv.snapshots_snoc _) ?_
        refine forall_mem_concat (inv.clients_snoc _) ?_
        -- the client keeps the snapshot it was made from
        obtain ⟨same, _⟩ := newLoginClient_ok made
        cases same
        exact inv.snapshots_snoc _ _ (List.mem_of_getElem? found)
  | begin i staleReading createdReading draws =>
    simp only [ConfigurationCache.step]
    split
    · exact inv.quiet (lastRefresh_snoc ..)
    · exact inv.quiet (lastRefresh_snoc ..)

end Preservation

/-- A refresh has succeeded, and it is fresh at the reading. -/
def FreshRun (maxAge : Int) (h : List (Action × Outcome)) (now : Time) : Prop :=
  ∃ configuration t, lastRefresh h = some (configuration, t) ∧ FreshAt t maxAge now

theorem Inv.fresh_iff {maxAge : Int} {h : List (Action × Outcome)} {w : World}
    (inv : Inv maxAge h w) (now : Time) :
    (∃ stored, w.cache.current = some stored ∧ FreshAt w.cache.fetchedAt w.cache.maxAge now) ↔
      FreshRun maxAge h now := by
  rw [inv.age]
  constructor
  · rintro ⟨stored, current, fresh⟩
    rw [inv.stored] at current
    obtain ⟨⟨_, t⟩, last, rfl⟩ := Option.map_eq_some_iff.mp current
    exact ⟨_, t, last, (inv.fetched _ t last).1 ▸ fresh⟩
  · rintro ⟨configuration, t, last, fresh⟩
    refine ⟨configuration, ?_, (inv.fetched _ t last).1 ▸ fresh⟩
    rw [inv.stored, last]
    rfl

/-- The deadline that a client carries decides its `Begin`. -/
theorem begin_stale_of_handedOut {P : Platform} {maxAge : Int} (positive : minute ≤ maxAge)
    {h : List (Action × Outcome)} {c : LoginClient} {t : Time}
    (handed : HandedOut maxAge h c.configuration t) (ref : ClientRef)
    (staleReading createdReading : Time) (draws : Draws) :
    LoginClient.begin P ref c staleReading createdReading draws = .error .errStaleConfiguration ↔
      t.ns + maxAge ≤ staleReading.ns := by
  obtain ⟨after, _, _, _, _, _, _, same⟩ := handed
  have deadline : c.configuration.validUntil = t.add maxAge := by rw [same]
  simp only [AfterEpoch, unixToInternal, second] at after
  simp only [minute, second] at positive
  rw [LoginClient.begin_stale_iff, deadline, Bool.eq_false_iff, Bool.eq_false_iff, ne_eq, ne_eq,
    Time.isZero_iff, Time.before_iff, Time.add_ns]
  omega

/-- What holds of the cache and of the clients made from it after any history. -/
structure Coherent (P : Platform) (maxAge : Int) (h : List (Action × Outcome)) (w : World) :
    Prop where
  /-- The cache holds the last successful refresh, and a failed one changes nothing. -/
  stored : w.cache.current = (lastRefresh h).map Prod.fst
  fetched : ∀ configuration t, lastRefresh h = some (configuration, t) → w.cache.fetchedAt = t
  failed : ∀ e now, (step P w (.refresh (.error e) now)).1 = w
  /-- `Current` and `Status` agree at every reading. -/
  current_iff : ∀ now, (∃ configuration, w.cache.currentAt now = .ok configuration) ↔
    FreshRun maxAge h now
  status_iff : ∀ now, (w.cache.status now).fresh = true ↔ FreshRun maxAge h now
  expiry : ∀ now now' configuration, w.cache.currentAt now = .ok configuration →
    (w.cache.status now').expiresAt = configuration.validUntil
  /-- A client was made from a snapshot, whose own refresh decides when `Begin` is stale. -/
  begin_iff : ∀ (i : ClientRef) (c : LoginClient), w.clients[i]? = some c →
    ∃ t, HandedOut maxAge h c.configuration t ∧ ∀ staleReading createdReading draws,
      (step P w (.begin i staleReading createdReading draws)).2 =
        .begun (.error .errStaleConfiguration) ↔ t.ns + maxAge ≤ staleReading.ns

/-- Freshness is never extended, and its three readers agree. -/
theorem freshness_coherent (P : Platform) {issuer clientID : Bytes} {maxAge : Int} {cache : Cache}
    (made : newConfigurationCache P issuer clientID maxAge = .ok cache)
    {h : List (Action × Outcome)} {w : World} (run : Run (step P) Sane ⟨cache, [], []⟩ h w) :
    Coherent P maxAge h w := by
  have new : cache.maxAge = maxAge ∧ cache.current = none := by
    unfold newConfigurationCache at made
    split at made
    · cases made
    · cases made
      exact ⟨rfl, rfl⟩
  have inv : Inv maxAge h w := by
    refine run.invariant (P := Inv maxAge) ?_ ?_
    · exact ⟨new.1, by simpa using new.2, by simp, by simp, by simp⟩
    · intro h w a _ inv sane
      exact inv.step a sane
  have positive : minute ≤ maxAge := inv.age ▸ w.cache.bounds.1
  refine ⟨inv.stored, fun configuration t last => (inv.fetched configuration t last).1,
    fun _ _ => rfl, ?_, ?_, ?_, ?_⟩
  · intro now
    rw [← inv.fresh_iff now]
    constructor
    · rintro ⟨configuration, given⟩
      obtain ⟨stored, current, fresh, _⟩ := (w.cache.currentAt_ok_iff now configuration).mp given
      exact ⟨stored, current, fresh⟩
    · rintro ⟨stored, current, fresh⟩
      exact ⟨_, (w.cache.currentAt_ok_iff now _).mpr ⟨stored, current, fresh, rfl⟩⟩
  · intro now
    rw [w.cache.status_fresh_iff now, inv.fresh_iff now]
  · intro now now' configuration given
    obtain ⟨stored, current, _, rfl⟩ := (w.cache.currentAt_ok_iff now configuration).mp given
    simp only [Cache.status, current]
  · intro i c found
    obtain ⟨t, handed⟩ := inv.clients c (List.mem_of_getElem? found)
    refine ⟨t, handed, ?_⟩
    intro staleReading createdReading draws
    rw [← begin_stale_of_handedOut (P := P) positive handed i staleReading createdReading draws]
    simp only [step, found, Outcome.begun.injEq]

/-- A client of a one-minute cache, made from the snapshot of a refresh at the beginning of
2026, while a later refresh has already replaced that snapshot. -/
theorem freshness_coherent_rotation :
    let t := sampleLogin.createdAt
    let found := (sampleClient []).configuration
    let start : World := ⟨⟨ascii "https://id.example", ascii "app", minute, none, ⟨0⟩, by decide⟩,
      [], []⟩
    let actions : List Action := [
      .refresh (.ok found) t,
      .current (t.add second),
      .newLoginClient 0 (ascii "app") [1] (ascii "https://app.example/cb"),
      .refresh (.error (.other "discovery failed")) (t.add second),
      .refresh (.ok found) (t.add (30 * second))]
    let final := play (step samplePlatform) start actions
    final.2.clients.length = 1 ∧ Coherent samplePlatform minute final.1 final.2 := by
  intro t found start actions final
  refine ⟨by decide +kernel, ?_⟩
  have made : newConfigurationCache samplePlatform (ascii "https://id.example") (ascii "app")
      minute = .ok start.cache := by
    have issuer : validIssuer samplePlatform (ascii "https://id.example") = true := by
      decide +kernel
    have clientID : ascii "app" ≠ [] := by decide
    have age : ¬ minute > hour := by decide
    simp [newConfigurationCache, issuer, clientID, age, start]
  have legal : LegalPlay (step samplePlatform) Sane start actions := by
    have early : AfterEpoch t := by
      change unixToInternal * second ≤ (unixToInternal + 1767225600) * second
      decide
    have later : AfterEpoch (t.add second) := by
      change unixToInternal * second ≤ (unixToInternal + 1767225600) * second + second
      decide
    have latest : AfterEpoch (t.add (30 * second)) := by
      change unixToInternal * second ≤ (unixToInternal + 1767225600) * second + 30 * second
      decide
    exact ⟨early, later, trivial, later, latest, trivial⟩
  exact freshness_coherent samplePlatform made (Run.of_play legal)

end ConfigurationCache
