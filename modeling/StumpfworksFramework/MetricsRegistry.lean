import Mathlib.Data.Fin.VecNotation
import StumpfworksFramework.Histograms
import StumpfworksFramework.ResponseStatus
import StumpfworksFramework.Runs

/-!
# The metrics registry

Completed requests and directory lookups are counted in histograms under bounded
labels, and scrapes copy the two maps. Each of the three holds the registry's
mutex throughout, so an execution of concurrent callers is a sequence of such
steps. Durations and bucket bounds are exact rational numbers of seconds; the
rounding of `float64` is not modelled. A handler that panics through the
middleware is not observed at all and takes no step.
-/

namespace MetricsRegistry

open ByteStrings FiniteMaps Histograms ResponseStatus Runs

/-- The bounds 0.005, 0.01, 0.025, 0.05, 0.1, 0.25, 0.5, 1, 2.5, 5 and 10. -/
def buckets : Fin 11 → Rat :=
  ![5 / 1000, 1 / 100, 25 / 1000, 5 / 100, 1 / 10, 25 / 100, 5 / 10, 1, 25 / 10, 5, 10]

structure Key where
  method : Bytes
  route : Bytes
  status : Int
  deriving DecidableEq, Repr

structure DirectoryKey where
  outcome : Bytes
  stage : Bytes
  deriving DecidableEq, Repr

abbrev Observation := Histogram 11

structure Registry where
  data : FiniteMap Key Observation
  directory : FiniteMap DirectoryKey Observation

def Registry.new : Registry := ⟨∅, ∅⟩

/-! ## Observations -/

def Registry.observe (registry : Registry) (label : Key) (seconds : Rat) : Registry :=
  { registry with data := record buckets registry.data label seconds }

def knownMethods : List Bytes := ["GET", "HEAD", "POST", "PUT", "PATCH", "DELETE", "OPTIONS",
  "CONNECT", "TRACE"].map ascii

def methodLabel (method : Bytes) : Bytes :=
  if method ∈ knownMethods then method else ascii "OTHER"

/-- A request whose handler has returned, with the middleware's writer around its response. -/
structure Completed where
  method : Bytes
  pattern : Bytes
  writer : Recorder Response
  seconds : Rat

def Completed.label (c : Completed) : Key where
  method := methodLabel c.method
  route := if c.pattern = [] then ascii "unmatched" else c.pattern
  status := metricsStatus c.writer

/-- What `Middleware` does once the handler has returned. -/
def Registry.middleware (registry : Registry) (c : Completed) : Registry :=
  registry.observe c.label c.seconds

/-- An observation of the directory reader, with its duration in seconds. -/
structure LookupObservation where
  outcome : Bytes
  stage : Bytes
  duration : Rat
  deriving DecidableEq, Repr

def lookupOutcomes : List Bytes := ["success", "not_found", "ambiguous", "canceled", "timeout",
  "unavailable", "invalid_input"].map ascii

def lookupStages : List Bytes := ["validation", "connect", "bind", "search", "result"].map ascii

def boundedLDAPOutcome (outcome : Bytes) : Bytes :=
  if outcome ∈ lookupOutcomes then outcome else ascii "unavailable"

def boundedLDAPStage (stage : Bytes) : Bytes :=
  if stage ∈ lookupStages then stage else ascii "result"

def LookupObservation.label (item : LookupObservation) : DirectoryKey :=
  ⟨boundedLDAPOutcome item.outcome, boundedLDAPStage item.stage⟩

def LookupObservation.clamped (item : LookupObservation) : Rat :=
  if item.duration < 0 then 0 else item.duration

def Registry.observeLDAPLookup (registry : Registry) (item : LookupObservation) : Registry :=
  { registry with directory := record buckets registry.directory item.label item.clamped }

/-- The copies that `Handler` takes before it writes. -/
def Registry.snapshot (registry : Registry) : Registry :=
  ⟨copy registry.data, copy registry.directory⟩

/-! ## Executions -/

inductive Action where
  | request (c : Completed)
  | lookup (item : LookupObservation)
  | scrape

/-- One step under the mutex, with the snapshot of a scrape. -/
def step (registry : Registry) : Action → Registry × Option Registry
  | .request c => (registry.middleware c, none)
  | .lookup item => (registry.observeLDAPLookup item, none)
  | .scrape => (registry, some registry.snapshot)

abbrev Execution := Run step fun _ _ => True

/-- The durations that actions observe under an HTTP label. -/
def requestSeconds (label : Key) (actions : List Action) : List Rat :=
  actions.filterMap fun
    | .request c => if c.label = label then some c.seconds else none
    | _ => none

/-- The clamped durations that actions observe under a directory label. -/
def lookupSeconds (label : DirectoryKey) (actions : List Action) : List Rat :=
  actions.filterMap fun
    | .lookup item => if item.label = label then some item.clamped else none
    | _ => none

/-- Both maps hold the tallies of what was observed. -/
structure Tallied (actions : List Action) (registry : Registry) : Prop where
  data : ∀ label, registry.data.lookup label = tally buckets (requestSeconds label actions)
  directory : ∀ label,
    registry.directory.lookup label = tally buckets (lookupSeconds label actions)

section Tallies

variable {actions : List Action} {registry : Registry}

theorem requestSeconds_concat (label : Key) (actions : List Action) (action : Action) :
    requestSeconds label (actions ++ [action]) =
      requestSeconds label actions ++ requestSeconds label [action] :=
  List.filterMap_append ..

theorem lookupSeconds_concat (label : DirectoryKey) (actions : List Action) (action : Action) :
    lookupSeconds label (actions ++ [action]) =
      lookupSeconds label actions ++ lookupSeconds label [action] :=
  List.filterMap_append ..

theorem requestSeconds_request (label : Key) (c : Completed) :
    requestSeconds label [.request c] = if c.label = label then [c.seconds] else [] := by
  by_cases here : c.label = label <;> simp [requestSeconds, here]

theorem lookupSeconds_lookup (label : DirectoryKey) (item : LookupObservation) :
    lookupSeconds label [.lookup item] = if item.label = label then [item.clamped] else [] := by
  by_cases here : item.label = label <;> simp [lookupSeconds, here]

theorem Tallied.request (tallied : Tallied actions registry) (c : Completed) :
    Tallied (actions ++ [.request c]) (registry.middleware c) where
  data := fun label => by
    rw [requestSeconds_concat, requestSeconds_request]
    exact lookup_record buckets tallied.data c.label label c.seconds
  directory := fun label => by
    rw [lookupSeconds_concat]
    exact (tallied.directory label).trans (congrArg _ (List.append_nil _).symm)

theorem Tallied.lookup (tallied : Tallied actions registry) (item : LookupObservation) :
    Tallied (actions ++ [.lookup item]) (registry.observeLDAPLookup item) where
  data := fun label => by
    rw [requestSeconds_concat]
    exact (tallied.data label).trans (congrArg _ (List.append_nil _).symm)
  directory := fun label => by
    rw [lookupSeconds_concat, lookupSeconds_lookup]
    exact lookup_record buckets tallied.directory item.label label item.clamped

theorem Tallied.scrape (tallied : Tallied actions registry) :
    Tallied (actions ++ [.scrape]) registry where
  data := fun label => by
    rw [requestSeconds_concat]
    exact (tallied.data label).trans (congrArg _ (List.append_nil _).symm)
  directory := fun label => by
    rw [lookupSeconds_concat]
    exact (tallied.directory label).trans (congrArg _ (List.append_nil _).symm)

theorem Tallied.snapshot (tallied : Tallied actions registry) :
    Tallied actions registry.snapshot :=
  ⟨fun label => (lookup_copy _ _).trans (tallied.data label),
    fun label => (lookup_copy _ _).trans (tallied.directory label)⟩

theorem tallied_step (tallied : Tallied actions registry) (action : Action) :
    Tallied (actions ++ [action]) (step registry action).1 := by
  cases action with
  | request c => exact tallied.request c
  | lookup item => exact tallied.lookup item
  | scrape => exact tallied.scrape

theorem snapshot_of_step {action : Action} {snapshot : Registry}
    (taken : (step registry action).2 = some snapshot) : snapshot = registry.snapshot := by
  cases action with
  | request c => cases taken
  | lookup item => cases taken
  | scrape => exact (Option.some.inj taken).symm

end Tallies

variable {h h' : List (Action × Option Registry)} {registry registry' : Registry}

theorem execution_tallied (run : Execution Registry.new h registry) :
    Tallied (h.map Prod.fst) registry := by
  refine Run.invariant (P := fun h registry => Tallied (h.map Prod.fst) registry) ?_ ?_ run
  · exact ⟨fun _ => rfl, fun _ => rfl⟩
  · intro h registry action _ tallied _
    rw [List.map_append]
    exact tallied_step tallied action

/-- A snapshot holds the tallies of the actions before its scrape. -/
theorem snapshot_tallied (run : Execution Registry.new h registry)
    {before after : List (Action × Option Registry)} {action : Action} {snapshot : Registry}
    (scraped : h = before ++ (action, some snapshot) :: after) :
    Tallied (before.map Prod.fst) snapshot := by
  induction run generalizing after with
  | nil => cases before <;> cases scraped
  | snoc earlier last _ ih =>
    obtain rfl | ⟨rest, final, rfl⟩ := List.eq_nil_or_concat after
    · obtain ⟨rfl, entry⟩ := List.append_inj' scraped rfl
      obtain ⟨-, taken⟩ := Prod.mk.inj (List.cons.inj entry).1
      rw [snapshot_of_step taken]
      exact (execution_tallied earlier).snapshot
    · rw [List.concat_eq_append, ← List.cons_append, ← List.append_assoc] at scraped
      exact ih (List.append_inj' scraped rfl).1

/-! ## What the entries say -/

/-- An entry counts these durations, none of them lost, and its buckets are cumulative. -/
structure Counts (seconds : List Rat) (item : Observation) : Prop where
  count : item.count = seconds.length
  sum : item.sum = seconds.sum
  bucket : ∀ i, item.buckets i = seconds.countP (· ≤ buckets i)
  increasing : Monotone item.buckets
  last : item.buckets (Fin.last 10) ≤ item.count

/-- A key is present as soon as something was observed under it, and then counts it. -/
def Exact (seconds : List Rat) : Option Observation → Prop
  | none => seconds = []
  | some item => seconds ≠ [] ∧ Counts seconds item

/-- Every label of the directory map. -/
def directoryLabels : List DirectoryKey :=
  lookupOutcomes.flatMap fun outcome => lookupStages.map fun stage => ⟨outcome, stage⟩

/-- The labels for methods. -/
def methodLabels : List Bytes := knownMethods ++ [ascii "OTHER"]

structure Consistent (actions : List Action) (registry : Registry) : Prop where
  data : ∀ label, Exact (requestSeconds label actions) (registry.data.lookup label)
  directory : ∀ label, Exact (lookupSeconds label actions) (registry.directory.lookup label)
  bounded : size registry.directory ≤ 35
  methods : ∀ label, registry.data.lookup label ≠ none → label.method ∈ methodLabels

/-- No key has 2^64 or more observations. -/
structure Countable (actions : List Action) : Prop where
  requests : ∀ label, (requestSeconds label actions).length < counterLimit
  lookups : ∀ label, (lookupSeconds label actions).length < counterLimit

theorem buckets_increasing : Monotone buckets := by
  unfold Monotone
  decide +kernel

theorem exact_tally {seconds : List Rat} (small : seconds.length < counterLimit) :
    Exact seconds (tally buckets seconds) := by
  by_cases empty : seconds = []
  · rw [tally, if_pos empty]
    exact empty
  · rw [tally, if_neg empty]
    exact ⟨empty, count_summary small, rfl, buckets_summary small,
      buckets_monotone small buckets_increasing, buckets_le_count small _⟩

theorem methodLabel_mem (method : Bytes) : methodLabel method ∈ methodLabels := by
  unfold methodLabel methodLabels
  split
  · exact List.mem_append_left _ ‹_›
  · exact List.mem_append_right _ List.mem_cons_self

theorem boundedLDAPOutcome_mem (outcome : Bytes) : boundedLDAPOutcome outcome ∈ lookupOutcomes := by
  unfold boundedLDAPOutcome
  split
  · assumption
  · decide

theorem boundedLDAPStage_mem (stage : Bytes) : boundedLDAPStage stage ∈ lookupStages := by
  unfold boundedLDAPStage
  split
  · assumption
  · decide

theorem LookupObservation.label_mem (item : LookupObservation) : item.label ∈ directoryLabels :=
  List.mem_flatMap.mpr ⟨_, boundedLDAPOutcome_mem item.outcome,
    List.mem_map_of_mem (boundedLDAPStage_mem item.stage)⟩

section Entries

variable {actions : List Action}

/-- A key that is present was observed. -/
theorem observed_of_tally {observed : Action → Option Rat}
    (present : tally buckets (actions.filterMap observed) ≠ none) :
    ∃ action x, observed action = some x := by
  have nonempty : actions.filterMap observed ≠ [] := fun empty => present (if_pos empty)
  obtain ⟨x, mem⟩ := List.exists_mem_of_ne_nil _ nonempty
  obtain ⟨action, _, value⟩ := List.mem_filterMap.mp mem
  exact ⟨action, x, value⟩

theorem Tallied.request_of_lookup (tallied : Tallied actions registry) {label : Key}
    (present : registry.data.lookup label ≠ none) : ∃ c : Completed, c.label = label := by
  rw [tallied.data label] at present
  obtain ⟨action, x, value⟩ := observed_of_tally present
  cases action with
  | request c =>
    by_cases here : c.label = label
    · exact ⟨c, here⟩
    · simp [here] at value
  | lookup item => cases value
  | scrape => cases value

theorem Tallied.lookup_of_lookup (tallied : Tallied actions registry) {label : DirectoryKey}
    (present : registry.directory.lookup label ≠ none) :
    ∃ item : LookupObservation, item.label = label := by
  rw [tallied.directory label] at present
  obtain ⟨action, x, value⟩ := observed_of_tally present
  cases action with
  | request c => cases value
  | lookup item =>
    by_cases here : item.label = label
    · exact ⟨item, here⟩
    · simp [here] at value
  | scrape => cases value

theorem Tallied.consistent (tallied : Tallied actions registry) (small : Countable actions) :
    Consistent actions registry where
  data := fun label => by
    rw [tallied.data label]
    exact exact_tally (small.requests label)
  directory := fun label => by
    rw [tallied.directory label]
    exact exact_tally (small.lookups label)
  bounded := by
    have listed : size registry.directory ≤ directoryLabels.length := by
      apply size_le_of_keys
      intro label present
      obtain ⟨item, rfl⟩ := tallied.lookup_of_lookup present
      exact item.label_mem
    have length : directoryLabels.length = 35 := by decide
    exact length ▸ listed
  methods := fun label present => by
    obtain ⟨c, rfl⟩ := tallied.request_of_lookup present
    exact methodLabel_mem c.method

theorem Countable.earlier {before after : List Action} (small : Countable (before ++ after)) :
    Countable before where
  requests := fun label => by
    refine Nat.lt_of_le_of_lt ?_ (small.requests label)
    simp [requestSeconds]
  lookups := fun label => by
    refine Nat.lt_of_le_of_lt ?_ (small.lookups label)
    simp [lookupSeconds]

theorem countable_of_length (few : actions.length < counterLimit) : Countable actions :=
  ⟨fun _ => Nat.lt_of_le_of_lt (List.length_filterMap_le _ _) few,
    fun _ => Nat.lt_of_le_of_lt (List.length_filterMap_le _ _) few⟩

end Entries

/-! ## Other keys and other orders -/

/-- The action observes under this HTTP label. -/
def Action.Requests (action : Action) (label : Key) : Prop :=
  ∃ c, action = .request c ∧ c.label = label

/-- The action observes under this directory label. -/
def Action.Looks (action : Action) (label : DirectoryKey) : Prop :=
  ∃ item, action = .lookup item ∧ item.label = label

theorem step_data_frame (registry : Registry) {action : Action} {label : Key}
    (other : ¬ action.Requests label) :
    (step registry action).1.data.lookup label = registry.data.lookup label := by
  cases action with
  | request c =>
    have differs : label ≠ c.label := fun same => other ⟨c, rfl, same.symm⟩
    exact lookup_record_of_ne buckets differs c.seconds
  | lookup item => rfl
  | scrape => rfl

theorem step_directory_frame (registry : Registry) {action : Action} {label : DirectoryKey}
    (other : ¬ action.Looks label) :
    (step registry action).1.directory.lookup label = registry.directory.lookup label := by
  cases action with
  | request c => rfl
  | lookup item =>
    have differs : label ≠ item.label := fun same => other ⟨item, rfl, same.symm⟩
    exact lookup_record_of_ne buckets differs item.clamped
  | scrape => rfl

def Action.observes : Action → Bool
  | .scrape => false
  | _ => true

/-- The observations of an execution in their order. -/
def observations (h : List (Action × Option Registry)) : List Action :=
  (h.map Prod.fst).filter Action.observes

theorem requestSeconds_filter (label : Key) (actions : List Action) :
    requestSeconds label (actions.filter Action.observes) = requestSeconds label actions := by
  unfold requestSeconds
  rw [List.filterMap_filter]
  congr 1
  funext action
  cases action <;> rfl

theorem lookupSeconds_filter (label : DirectoryKey) (actions : List Action) :
    lookupSeconds label (actions.filter Action.observes) = lookupSeconds label actions := by
  unfold lookupSeconds
  rw [List.filterMap_filter]
  congr 1
  funext action
  cases action <;> rfl

theorem data_of_perm (run : Execution Registry.new h registry)
    (run' : Execution Registry.new h' registry') (perm : (observations h).Perm (observations h'))
    (label : Key) : registry.data.lookup label = registry'.data.lookup label := by
  rw [(execution_tallied run).data, (execution_tallied run').data, ← requestSeconds_filter,
    ← requestSeconds_filter label (h'.map Prod.fst)]
  exact tally_perm buckets (perm.filterMap _)

theorem directory_of_perm (run : Execution Registry.new h registry)
    (run' : Execution Registry.new h' registry') (perm : (observations h).Perm (observations h'))
    (label : DirectoryKey) :
    registry.directory.lookup label = registry'.directory.lookup label := by
  rw [(execution_tallied run).directory, (execution_tallied run').directory,
    ← lookupSeconds_filter, ← lookupSeconds_filter label (h'.map Prod.fst)]
  exact tally_perm buckets (perm.filterMap _)

/-- In every execution the registry and every snapshot count exactly what was observed; a step
leaves other keys alone; and the order of the observations does not matter. -/
theorem histograms_consistent (run : Execution Registry.new h registry)
    (small : Countable (h.map Prod.fst)) :
    Consistent (h.map Prod.fst) registry ∧
    (∀ before action snapshot after, h = before ++ (action, some snapshot) :: after →
      Consistent (before.map Prod.fst) snapshot) ∧
    (∀ action, (∀ label, ¬ action.Requests label →
        (step registry action).1.data.lookup label = registry.data.lookup label) ∧
      ∀ label, ¬ action.Looks label →
        (step registry action).1.directory.lookup label = registry.directory.lookup label) ∧
    ∀ h' registry', Execution Registry.new h' registry' →
      (observations h).Perm (observations h') →
      (∀ label, registry.data.lookup label = registry'.data.lookup label) ∧
      ∀ label, registry.directory.lookup label = registry'.directory.lookup label := by
  refine ⟨(execution_tallied run).consistent small, ?_, ?_, ?_⟩
  · intro before action snapshot after scraped
    have earlier : Countable (before.map Prod.fst) := by
      rw [scraped, List.map_append] at small
      exact small.earlier
    exact (snapshot_tallied run scraped).consistent earlier
  · intro action
    exact ⟨fun label => step_data_frame registry, fun label => step_directory_frame registry⟩
  · intro h' registry' run' perm
    exact ⟨data_of_perm run run' perm, directory_of_perm run run' perm⟩

/-- A request with an unusual method, a lookup with labels that are not known and a negative
duration, a scrape, and the request once more. -/
def sampleActions : List Action :=
  let request : Completed := ⟨ascii "BREW", ascii "/pots", ⟨⟨true, 404, []⟩, 404⟩, 3 / 100⟩
  [.request request, .lookup ⟨ascii "private-user@example.test", ascii "private-server", -1⟩,
    .scrape, .request request]

theorem histograms_consistent_sample :
    Consistent sampleActions (play step Registry.new sampleActions).2 ∧
    ((play step Registry.new sampleActions).2.data.lookup
        ⟨ascii "OTHER", ascii "/pots", 404⟩).map Histogram.buckets =
      some ![0, 0, 0, 2, 2, 2, 2, 2, 2, 2, 2] ∧
    ((play step Registry.new sampleActions).2.directory.lookup
        ⟨ascii "unavailable", ascii "result"⟩).map Histogram.buckets =
      some ![1, 1, 1, 1, 1, 1, 1, 1, 1, 1, 1] := by
  have run : Execution Registry.new (play step Registry.new sampleActions).1
      (play step Registry.new sampleActions).2 :=
    Run.of_play (legalPlay_of_forall (fun _ _ _ => trivial) _)
  have small : Countable ((play step Registry.new sampleActions).1.map Prod.fst) :=
    countable_of_length (by decide)
  exact ⟨(histograms_consistent run small).1, by decide +kernel, by decide +kernel⟩

end MetricsRegistry
