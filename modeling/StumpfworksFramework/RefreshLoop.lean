import StumpfworksFramework.ConfigurationCache

/-!
# The refresh loop

`Run` as a timed system. The ticker fires at multiples of the interval after
its start and its channel keeps one tick, so a tick is there to receive if one
has fired since the last was received. Other goroutines may refresh the same
cache, and the context may end at any time.

How fast things go is an assumption on the run: a round takes at most `busy`
from the tick to the return of the observer, a tick that is there is received
at once, and at most `retries` refreshes in a row fail. Readings of the clock are
the time of the system.
-/

namespace RefreshLoop

open ByteStrings Instants OidcClients ConfigurationCache Runs SealedLogins

/-- Where the loop stands, with the time of the tick that began the round. -/
inductive Stage where
  | checking (since : Int)
  | refreshing (since : Int)
  | refreshed (since : Int) (result : Except OidcError Unit)
  | observing (since : Int)
  | selecting (since : Int)
  | returned

def Stage.since : Stage → Option Int
  | .checking since | .refreshing since | .refreshed since _ | .observing since
  | .selecting since => some since
  | .returned => none

/-- The refresh of the round is still to come. -/
def Stage.pending : Stage → Bool
  | .checking _ | .refreshing _ => true
  | _ => false

/-- The loop with what its observer was told, the results of its refreshes, and the number of
those that failed since the cache was last filled. -/
structure Loop where
  cache : Cache
  interval : Int
  started : Int
  now : Int
  cancelled : Bool
  stage : Stage
  reports : List (Except OidcError Unit × CacheStatus)
  results : List (Except OidcError Unit)
  failures : Nat

/-- `Run` up to its loop. The context and the observer may be nil. -/
def run (cache : Option Cache) (context observer : Bool) (interval now : Int) :
    Except OidcError Loop :=
  match cache with
  | none => .error (.other "invalid OIDC refresh loop configuration")
  | some cache =>
    if context = false ∨ observer = false ∨ interval < second ∨ interval > cache.maxAge / 2 then
      .error (.other "invalid OIDC refresh loop configuration")
    else .ok ⟨cache, interval, now, now, false, .checking now, [], [], 0⟩

/-- The first tick after a time. -/
def Loop.nextTick (l : Loop) (since : Int) : Int :=
  l.started + ((since - l.started) / l.interval + 1) * l.interval

inductive Action where
  | pass (d : Int)
  | cancel
  | check
  | refresh (discovered : Except OidcError Configuration)
  | report
  | observed
  | tick
  | done
  | refreshElsewhere (discovered : Except OidcError Configuration)

/-- The failures in a row after a refresh with this result. An empty cache has nothing to lose. -/
def Loop.failuresAfter (l : Loop) : Except OidcError Configuration → Nat
  | .ok _ => 0
  | .error _ => if l.cache.current.isSome then l.failures + 1 else 0

def stepLoop (l : Loop) (a : Action) : Loop :=
  match l.stage, a with
  | _, .pass d => { l with now := l.now + d }
  | _, .cancel => { l with cancelled := true }
  | _, .refreshElsewhere discovered =>
    match discovered with
    | .ok configuration =>
      { l with cache := (l.cache.refresh (.ok configuration) ⟨l.now⟩).1, failures := 0 }
    | .error _ => l
  | .checking since, .check =>
    { l with stage := if l.cancelled then .returned else .refreshing since }
  | .refreshing since, .refresh discovered =>
    let after := l.cache.refresh discovered ⟨l.now⟩
    { l with
      cache := after.1
      stage := .refreshed since after.2
      results := l.results ++ [after.2]
      failures := l.failuresAfter discovered }
  | .refreshed since result, .report =>
    { l with stage := .observing since, reports := l.reports ++ [(result, l.cache.status ⟨l.now⟩)] }
  | .observing since, .observed => { l with stage := .selecting since }
  | .selecting since, .tick =>
    if l.nextTick since ≤ l.now then { l with stage := .checking l.now } else l
  | .selecting _, .done => if l.cancelled then { l with stage := .returned } else l
  | _, _ => l

def step (l : Loop) (a : Action) : Loop × Unit := (stepLoop l a, ())

/-- Everything that a step can do. -/
inductive Moves (l : Loop) : Action → Loop → Prop where
  | stays (a : Action) : Moves l a l
  | passes (d : Int) : Moves l (.pass d) { l with now := l.now + d }
  | cancels : Moves l .cancel { l with cancelled := true }
  | filledElsewhere (configuration : Configuration) :
      Moves l (.refreshElsewhere (.ok configuration))
        { l with cache := (l.cache.refresh (.ok configuration) ⟨l.now⟩).1, failures := 0 }
  | returns (a : Action) (cancelled : l.cancelled = true)
      (settled : ∀ s r, l.stage ≠ .refreshed s r) :
      Moves l a { l with stage := .returned }
  | checks {since : Int} (stage : l.stage = .checking since) :
      Moves l .check { l with stage := .refreshing since }
  | refreshes {since : Int} (stage : l.stage = .refreshing since)
      (discovered : Except OidcError Configuration) :
      Moves l (.refresh discovered) { l with
        cache := (l.cache.refresh discovered ⟨l.now⟩).1
        stage := .refreshed since (l.cache.refresh discovered ⟨l.now⟩).2
        results := l.results ++ [(l.cache.refresh discovered ⟨l.now⟩).2]
        failures := l.failuresAfter discovered }
  | reports {since : Int} {result : Except OidcError Unit}
      (stage : l.stage = .refreshed since result) :
      Moves l .report { l with
        stage := .observing since
        reports := l.reports ++ [(result, l.cache.status ⟨l.now⟩)] }
  | observes {since : Int} (stage : l.stage = .observing since) :
      Moves l .observed { l with stage := .selecting since }
  | ticks {since : Int} (stage : l.stage = .selecting since) (fired : l.nextTick since ≤ l.now) :
      Moves l .tick { l with stage := .checking l.now }

theorem stepLoop_moves (l : Loop) (a : Action) : Moves l a (stepLoop l a) := by
  unfold stepLoop
  split
  · exact .passes _
  · exact .cancels
  · split
    · exact .filledElsewhere _
    · exact .stays _
  · rename_i stage
    split
    · exact .returns _ ‹_› (by simp [stage])
    · exact .checks stage
  · exact .refreshes ‹_› _
  · exact .reports ‹_›
  · exact .observes ‹_›
  · split
    · exact .ticks ‹_› ‹_›
    · exact .stays _
  · rename_i stage
    split
    · exact .returns _ ‹_› (by simp [stage])
    · exact .stays _
  · exact .stays _

/-! ## Timing -/

/-- How long time may pass before the loop has to move. -/
def Loop.deadline (busy : Int) (l : Loop) : Option Int :=
  match l.stage with
  | .returned => none
  | .selecting since => some (max l.now (l.nextTick since))
  | .checking since | .refreshing since | .refreshed since _ | .observing since =>
    some (since + busy)

/-- The assumption on the run. -/
def Prompt (retries : Nat) (busy : Int) (l : Loop) : Action → Prop
  | .pass d => 0 ≤ d ∧ ∀ deadline, l.deadline busy = some deadline → l.now + d ≤ deadline
  | .refresh discovered => l.failuresAfter discovered ≤ retries
  | _ => True

/-- The loop is a round behind its own refresh until that is done. -/
def Loop.lag (l : Loop) : Int := l.failures + if l.stage.pending then 1 else 0

/-- How long after its tick the round may still stand where it is. -/
def Loop.slack (busy : Int) (l : Loop) : Int :=
  match l.stage with
  | .selecting _ => l.interval
  | _ => busy

/-- The settings leave room for the retries. -/
structure Roomy (retries : Nat) (busy maxAge interval : Int) : Prop where
  positive : 0 < interval
  patient : 0 ≤ busy
  quick : busy ≤ interval
  room : (retries + 1) * interval + busy < maxAge

/-- The round is on time, and the cache was filled at most so many rounds ago. -/
structure OnTime (retries : Nat) (busy : Int) (l : Loop) : Prop where
  roomy : Roomy retries busy l.cache.maxAge l.interval
  begun : ∀ s, l.stage.since = some s → s ≤ l.now ∧ l.now ≤ s + l.slack busy
  bounded : l.failures ≤ retries
  filled : ∀ stored, l.cache.current = some stored → l.cache.fetchedAt.ns ≤ l.now ∧
    ∀ s, l.stage.since = some s → s ≤ l.cache.fetchedAt.ns + l.lag * l.interval

section Timing

variable {retries : Nat} {busy : Int} {l : Loop}

theorem Loop.nextTick_le (positive : 0 < l.interval) (since : Int) :
    l.nextTick since ≤ since + l.interval := by
  have rounded := Int.ediv_mul_le (since - l.started) (ne_of_gt positive)
  rw [Loop.nextTick, Int.add_mul, Int.one_mul]
  omega

theorem OnTime.fresh (onTime : OnTime retries busy l) (running : l.stage ≠ .returned)
    {stored : Configuration} (filled : l.cache.current = some stored) :
    FreshAt l.cache.fetchedAt l.cache.maxAge ⟨l.now⟩ := by
  obtain ⟨since, begun⟩ : ∃ s, l.stage.since = some s := by
    cases stage : l.stage with
    | returned => exact absurd stage running
    | _ => exact ⟨_, rfl⟩
  have roomy := onTime.roomy
  have rounds : (l.failures + 1 : Int) * l.interval ≤ (retries + 1) * l.interval := by
    have fewer := onTime.bounded
    apply Int.mul_le_mul_of_nonneg_right _ roomy.positive.le
    omega
  obtain ⟨_, late⟩ := onTime.begun since begun
  obtain ⟨past, behind⟩ := onTime.filled stored filled
  have lagged := behind since begun
  have room := roomy.room
  have quick := roomy.quick
  have patient := roomy.patient
  -- the round started at most `lag` intervals after the cache was filled
  refine ⟨by simp only; unfold minute second; omega, ?_⟩
  show l.now < _
  rw [Int.add_mul, Int.one_mul] at rounds
  cases stage : l.stage with
  | returned => exact absurd stage running
  | _ =>
    simp only [Loop.lag, Loop.slack, stage, Stage.pending, if_true, Bool.false_eq_true, if_false,
      Int.add_mul, Int.one_mul, Int.add_zero] at late lagged
    omega

theorem OnTime.returned (onTime : OnTime retries busy l) :
    OnTime retries busy { l with stage := .returned } where
  roomy := onTime.roomy
  begun := nofun
  bounded := onTime.bounded
  filled := fun stored filled => ⟨(onTime.filled stored filled).1, nofun⟩

theorem OnTime.pass (onTime : OnTime retries busy l) {d : Int}
    (prompt : Prompt retries busy l (.pass d)) :
    OnTime retries busy { l with now := l.now + d } where
  roomy := onTime.roomy
  begun := by
    intro s since
    obtain ⟨early, late⟩ := onTime.begun s since
    obtain ⟨forward, deadline⟩ := prompt
    refine ⟨by simp only; omega, ?_⟩
    have ticks := Loop.nextTick_le onTime.roomy.positive s
    cases stage : l.stage with
    | returned =>
      rw [stage] at since
      cases since
    | selecting =>
      rw [stage] at since
      cases since
      have bound := deadline _ (by rw [Loop.deadline, stage])
      simp only [Loop.slack, stage] at late ⊢
      omega
    | _ =>
      rw [stage] at since
      cases since
      have bound := deadline _ (by rw [Loop.deadline, stage])
      exact bound
  bounded := onTime.bounded
  filled := by
    intro stored filled
    obtain ⟨past, behind⟩ := onTime.filled stored filled
    have forward := prompt.1
    exact ⟨by simp only; omega, behind⟩

/-- A cache that has just been filled is not behind. -/
theorem OnTime.refilled (onTime : OnTime retries busy l) (configuration : Configuration)
    {stage : Stage} (same : stage.since = l.stage.since)
    (slack : Loop.slack busy { l with stage := stage } = l.slack busy)
    (results : List (Except OidcError Unit)) :
    OnTime retries busy { l with
      cache := (l.cache.refresh (.ok configuration) ⟨l.now⟩).1
      stage := stage
      results := results
      failures := 0 } where
  roomy := onTime.roomy
  begun := by
    intro s since
    have begun := onTime.begun s (same ▸ since)
    rw [← slack] at begun
    exact begun
  bounded := Nat.zero_le _
  filled := by
    intro stored filled
    refine ⟨Int.le_refl _, ?_⟩
    intro s since
    obtain ⟨early, _⟩ := onTime.begun s (same ▸ since)
    have nonnegative : 0 ≤ (Loop.lag { l with stage := stage, failures := 0 }) * l.interval := by
      apply Int.mul_nonneg _ onTime.roomy.positive.le
      unfold Loop.lag
      split <;> simp
    show s ≤ l.now + _
    exact early.trans (Int.le_add_of_nonneg_right nonnegative)

/-- The loop's own refresh fails. -/
theorem OnTime.failed (onTime : OnTime retries busy l) {since : Int}
    (stage : l.stage = .refreshing since) (e : OidcError)
    (prompt : l.failuresAfter (.error e) ≤ retries) (results : List (Except OidcError Unit)) :
    OnTime retries busy { l with
      stage := .refreshed since (.error e)
      results := results
      failures := l.failuresAfter (.error e) } where
  roomy := onTime.roomy
  begun := by
    intro s same
    have begun := onTime.begun s (by rw [stage]; exact same)
    simp only [Loop.slack, stage] at begun
    exact begun
  bounded := prompt
  filled := by
    intro stored filled
    obtain ⟨past, behind⟩ := onTime.filled stored filled
    refine ⟨past, ?_⟩
    intro s same
    have lagged := behind s (by rw [stage]; exact same)
    have counted : l.failuresAfter (.error e) = l.failures + 1 := by
      rw [Loop.failuresAfter, show l.cache.current = some stored from filled]
      rfl
    simp only [Loop.lag, stage, Stage.pending, if_true, Bool.false_eq_true, if_false, counted,
      Nat.cast_add, Nat.cast_one, Int.add_zero] at lagged ⊢
    exact lagged

/-- A stage of the same round. -/
theorem OnTime.moved (onTime : OnTime retries busy l) {stage : Stage}
    (same : stage.since = l.stage.since) (pending : stage.pending = l.stage.pending)
    (slack : l.slack busy ≤ Loop.slack busy { l with stage := stage })
    (reports : List (Except OidcError Unit × CacheStatus)) :
    OnTime retries busy { l with stage := stage, reports := reports } where
  roomy := onTime.roomy
  begun := by
    intro s since
    obtain ⟨early, late⟩ := onTime.begun s (same ▸ since)
    exact ⟨early, late.trans (Int.add_le_add_left slack s)⟩
  bounded := onTime.bounded
  filled := by
    intro stored filled
    obtain ⟨past, behind⟩ := onTime.filled stored filled
    refine ⟨past, ?_⟩
    intro s since
    have lagged := behind s (same ▸ since)
    simp only [Loop.lag, pending] at lagged ⊢
    exact lagged

theorem OnTime.ticked (onTime : OnTime retries busy l) {since : Int}
    (stage : l.stage = .selecting since) :
    OnTime retries busy { l with stage := .checking l.now } where
  roomy := onTime.roomy
  begun := by
    intro s same
    cases same
    exact ⟨Int.le_refl _, Int.le_add_of_nonneg_right onTime.roomy.patient⟩
  bounded := onTime.bounded
  filled := by
    intro stored filled
    obtain ⟨past, behind⟩ := onTime.filled stored filled
    refine ⟨past, ?_⟩
    intro s same
    cases same
    obtain ⟨_, late⟩ := onTime.begun since (by rw [stage]; rfl)
    have lagged := behind since (by rw [stage]; rfl)
    simp only [Loop.lag, Loop.slack, stage, Stage.pending, Bool.false_eq_true, if_true, if_false,
      Int.add_mul, Int.one_mul, Int.add_zero] at late lagged ⊢
    omega

theorem OnTime.step (onTime : OnTime retries busy l) {a : Action}
    (prompt : Prompt retries busy l a) :
    OnTime retries busy (stepLoop l a) := by
  have moves := stepLoop_moves l a
  generalize stepLoop l a = after at moves
  cases moves with
  | stays => exact onTime
  | passes d => exact onTime.pass prompt
  | cancels => exact ⟨onTime.roomy, onTime.begun, onTime.bounded, onTime.filled⟩
  | filledElsewhere configuration => exact onTime.refilled configuration rfl rfl l.results
  | returns => exact onTime.returned
  | checks stage =>
    refine onTime.moved (by rw [stage]; rfl) (by rw [stage]; rfl) ?_ l.reports
    simp only [Loop.slack, stage, Int.le_refl]
  | refreshes stage discovered =>
    cases discovered with
    | ok configuration =>
      refine onTime.refilled configuration (by rw [stage]; rfl) ?_ _
      simp only [Loop.slack, stage]
    | error e => exact onTime.failed stage e prompt _
  | reports stage =>
    refine onTime.moved (by rw [stage]; rfl) (by rw [stage]; rfl) ?_ _
    simp only [Loop.slack, stage, Int.le_refl]
  | observes stage =>
    refine onTime.moved (by rw [stage]; rfl) (by rw [stage]; rfl) ?_ l.reports
    simp only [Loop.slack, stage]
    exact onTime.roomy.quick
  | ticks stage fired => exact onTime.ticked stage

end Timing

/-! ## Reports -/

/-- The observer has been told every result but that of a refresh that has just ended, always with
the status of an empty or a fresh cache, and the loop returns only after its context. -/
structure Reported (l : Loop) : Prop where
  told : l.results = l.reports.map Prod.fst ++
    match l.stage with
    | .refreshed _ result => [result]
    | _ => []
  fresh : ∀ r ∈ l.reports, r.2.fresh = true ∨ r.2 = ⟨⟨0⟩, ⟨0⟩, false⟩
  ended : l.stage = .returned → l.cancelled = true

section Reports

variable {retries : Nat} {busy : Int} {l : Loop}

theorem OnTime.status (onTime : OnTime retries busy l) (running : l.stage ≠ .returned) :
    (l.cache.status ⟨l.now⟩).fresh = true ∨ l.cache.status ⟨l.now⟩ = ⟨⟨0⟩, ⟨0⟩, false⟩ := by
  cases filled : l.cache.current with
  | none =>
    right
    rw [Cache.status, filled]
  | some stored =>
    left
    exact (l.cache.status_fresh_iff _).mpr ⟨stored, filled, onTime.fresh running filled⟩

theorem Reported.step (onTime : OnTime retries busy l) (reported : Reported l) (a : Action) :
    Reported (stepLoop l a) := by
  have told := reported.told
  have moves := stepLoop_moves l a
  generalize stepLoop l a = after at moves
  cases moves with
  | stays => exact reported
  | passes d => exact ⟨told, reported.fresh, reported.ended⟩
  | cancels => exact ⟨told, reported.fresh, fun _ => rfl⟩
  | filledElsewhere configuration => exact ⟨told, reported.fresh, reported.ended⟩
  | returns a cancelled settled =>
    refine ⟨?_, reported.fresh, fun _ => cancelled⟩
    split at told
    · exact absurd ‹_› (settled _ _)
    · exact told
  | checks stage =>
    rw [stage] at told
    exact ⟨told, reported.fresh, nofun⟩
  | refreshes stage discovered =>
    rw [stage, List.append_nil] at told
    exact ⟨congrArg (· ++ [_]) told, reported.fresh, nofun⟩
  | reports stage =>
    rw [stage] at told
    refine ⟨?_, ?_, nofun⟩
    · simpa using told
    · refine forall_mem_concat reported.fresh (onTime.status ?_)
      simp [stage]
  | observes stage =>
    rw [stage] at told
    exact ⟨told, reported.fresh, nofun⟩
  | ticks stage fired =>
    rw [stage] at told
    exact ⟨told, reported.fresh, nofun⟩

end Reports

/-! ## Runs of the loop -/

theorem run_ok {cache : Cache} {context observer : Bool} {interval now : Int} {l : Loop}
    (accepted : run (some cache) context observer interval now = .ok l) :
    second ≤ interval ∧ l = ⟨cache, interval, now, now, false, .checking now, [], [], 0⟩ := by
  simp only [run] at accepted
  split at accepted
  · cases accepted
  · rename_i refused
    simp only [not_or, not_lt] at refused
    cases accepted
    exact ⟨refused.2.2.1, rfl⟩

theorem newConfigurationCache_ok {P : Platform} {issuer clientID : Bytes} {maxAge : Int}
    {cache : Cache} (made : newConfigurationCache P issuer clientID maxAge = .ok cache) :
    cache.maxAge = maxAge ∧ cache.current = none := by
  unfold newConfigurationCache at made
  split at made
  · cases made
  · cases made
    exact ⟨rfl, rfl⟩

/-- While the loop runs, the keys of its cache never expire once they are there: as long as no
more than `retries` refreshes in a row fail, no round takes longer than `busy`, and the maximum
age leaves room for the retries and one round. Every refresh is reported to the observer once,
with its own result and never with an expired status, and the loop ends only with its context. -/
theorem keys_stay_fresh (P : Platform) {issuer clientID : Bytes} {maxAge interval now busy : Int}
    {context observer : Bool} {retries : Nat} {cache : Cache} {start l : Loop}
    (made : newConfigurationCache P issuer clientID maxAge = .ok cache)
    (accepted : run (some cache) context observer interval now = .ok start) (patient : 0 ≤ busy)
    (quick : busy ≤ interval) (room : (retries + 1) * interval + busy < maxAge)
    {h : List (Action × Unit)} (played : Run step (Prompt retries busy) start h l) :
    (l.stage ≠ .returned → l.cache.current.isSome = true →
      (l.cache.status ⟨l.now⟩).fresh = true ∧ ∃ keys, l.cache.currentAt ⟨l.now⟩ = .ok keys) ∧
    Reported l := by
  obtain ⟨slow, rfl⟩ := run_ok accepted
  obtain ⟨age, empty⟩ := newConfigurationCache_ok made
  have positive : 0 < interval := by
    unfold second at slow
    omega
  have initial :
      OnTime retries busy ⟨cache, interval, now, now, false, .checking now, [], [], 0⟩ := by
    refine ⟨⟨positive, patient, quick, age ▸ room⟩, ?_, Nat.zero_le _, ?_⟩
    · intro s since
      cases since
      exact ⟨Int.le_refl _, Int.le_add_of_nonneg_right patient⟩
    · intro stored filled
      rw [empty] at filled
      cases filled
  obtain ⟨onTime, reported⟩ := Run.invariant (P := fun _ l => OnTime retries busy l ∧ Reported l)
    ⟨initial, rfl, nofun, nofun⟩
    (fun _ _ a _ kept prompt => ⟨kept.1.step prompt, kept.2.step kept.1 a⟩) played
  refine ⟨?_, reported⟩
  intro running filled
  obtain ⟨stored, filled⟩ := Option.isSome_iff_exists.mp filled
  have fresh := onTime.fresh running filled
  exact ⟨(l.cache.status_fresh_iff _).mpr ⟨stored, filled, fresh⟩,
    _, (l.cache.currentAt_ok_iff _ _).mpr ⟨stored, filled, fresh, rfl⟩⟩

/-! A cache of one minute, refreshed every twenty seconds, over a failed refresh. -/

def sampleCache : Cache :=
  ⟨ascii "https://id.example", ascii "app", minute, none, ⟨0⟩, by decide⟩

def sampleStart : Loop :=
  ⟨sampleCache, 20 * second, 0, 0, false, .checking 0, [], [], 0⟩

def sampleActions : List Action :=
  [.check, .pass second, .refresh (.ok (sampleClient []).configuration), .report, .observed,
    .pass (19 * second), .tick, .check, .refresh (.error (.other "discovery failed")), .report,
    .observed, .pass (20 * second), .tick]

theorem keys_stay_fresh_retried :
    (play step sampleStart sampleActions).2.now = 40 * second ∧
    ((play step sampleStart sampleActions).2.cache.status ⟨40 * second⟩).fresh = true := by
  have made : newConfigurationCache samplePlatform (ascii "https://id.example") (ascii "app")
      minute = .ok sampleCache := by
    have issuer : validIssuer samplePlatform (ascii "https://id.example") = true := by
      decide +kernel
    have clientID : ascii "app" ≠ [] := by decide
    have age : ¬ minute > hour := by decide
    simp [newConfigurationCache, issuer, clientID, age, sampleCache]
  have accepted : run (some sampleCache) true true (20 * second) 0 = .ok sampleStart := rfl
  have prompt : LegalPlay step (Prompt 1 (5 * second)) sampleStart sampleActions := by
    refine ⟨trivial, ⟨by decide, ?_⟩, Nat.zero_le _, trivial, trivial, ⟨by decide, ?_⟩, trivial,
      trivial, Nat.le_refl 1, trivial, trivial, ⟨by decide, ?_⟩, trivial, trivial⟩
    all_goals
      intro deadline same
      cases same
      decide
  have kept := (keys_stay_fresh samplePlatform made accepted (by decide) (by decide) (by decide)
    (Run.of_play prompt)).1
  have running : (play step sampleStart sampleActions).2.stage ≠ .returned := by
    intro ended
    cases ended
  exact ⟨rfl, (kept running rfl).1⟩

end RefreshLoop
