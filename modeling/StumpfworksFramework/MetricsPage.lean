import StumpfworksFramework.Decimals
import StumpfworksFramework.ExpositionFormat
import StumpfworksFramework.MetricsRegistry
import StumpfworksFramework.SortedKeys

/-!
# The metrics page

The text that `Handler` writes from its copies of the two maps. Labels are
rendered as the source does, by replacements in the whole value and by cutting a
brace off a finished label set, and are then shown to be label sets of the text
format for metrics. The pool statistics come from a source that may be absent or
may panic. How `strconv` prints a `float64` is a parameter.
-/

namespace MetricsPage

open ByteStrings Decimals ExpositionFormat FiniteMaps Histograms MetricsRegistry SortedKeys

universe u

/-! ## Labels -/

/-- `strings.ReplaceAll` for a single byte. -/
def replaceAll (old : UInt8) (new text : Bytes) : Bytes :=
  text.flatMap fun b => if b = old then new else [b]

def quote (value : Bytes) : Bytes :=
  let value := replaceAll 92 [92, 92] value
  let value := replaceAll 10 [92, 110] value
  let value := replaceAll 34 [92, 34] value
  [34] ++ value ++ [34]

/-- The verb `%q` for digits and a sign, which need no escape. -/
def quoteNumber (text : Bytes) : Bytes := [34] ++ text ++ [34]

def text (label : Key) : Bytes :=
  ascii "\x7bmethod=" ++ quote label.method ++ ascii ",route=" ++ quote label.route ++
    ascii ",status=" ++ quoteNumber (decimal label.status) ++ ascii "\x7d"

def trimSuffix (text suffix : Bytes) : Bytes :=
  if suffix.isSuffixOf text = true then text.take (text.length - suffix.length) else text

def textWithBucket (label : Key) (bucket : Bytes) : Bytes :=
  trimSuffix (text label) (ascii "\x7d") ++ ascii ",le=" ++ quote bucket ++ ascii "\x7d"

/-- The two pairs of a directory label, without braces. -/
def directoryText (label : DirectoryKey) : Bytes :=
  ascii "outcome=" ++ quote label.outcome ++ ascii ",stage=" ++ quote label.stage

/-- The bucket bounds as they are printed. -/
def bucketTexts : Fin 11 → Bytes := fun i =>
  ascii (![ "0.005", "0.01", "0.025", "0.05", "0.1", "0.25", "0.5", "1", "2.5", "5", "10"] i)

/-! ## The text -/

/-- Lexicographic by method, route and status. -/
def KeyLess : Key → Key → Prop :=
  firstBy Key.method (· < ·) (firstBy Key.route (· < ·) fun a b => a.status < b.status)

/-- Lexicographic by outcome and stage. -/
def DirectoryLess : DirectoryKey → DirectoryKey → Prop :=
  firstBy DirectoryKey.outcome (· < ·) fun a b => a.stage < b.stage

instance : DecidableRel KeyLess :=
  inferInstanceAs (DecidableRel (firstBy _ _ (firstBy _ _ fun a b : Key => a.status < b.status)))

instance : DecidableRel DirectoryLess :=
  inferInstanceAs (DecidableRel (firstBy _ _ fun a b : DirectoryKey => a.stage < b.stage))

/-- The value of a map at a key, which is zero if the key is absent. -/
def item {κ : Type u} [DecidableEq κ] (m : FiniteMap κ Observation) (label : κ) : Observation :=
  (m.lookup label).getD Histogram.zero

def println (line : String) : Bytes := ascii line ++ [10]

/-- A series name, its label set, a blank and the value. -/
def seriesLine (name : String) (labels value : Bytes) : Bytes :=
  ascii name ++ labels ++ [32] ++ value ++ [10]

variable (formatFloat : Rat → Bytes)

def requestText (snapshot : FiniteMap Key Observation) : Bytes :=
  let labels := sortedKeys KeyLess snapshot
  println "# HELP swf_http_requests_total Completed HTTP requests." ++
  println "# TYPE swf_http_requests_total counter" ++
  (labels.flatMap fun label =>
    seriesLine "swf_http_requests_total" (text label) (natural (item snapshot label).count)) ++
  println "# HELP swf_http_request_duration_seconds HTTP request duration in seconds." ++
  println "# TYPE swf_http_request_duration_seconds histogram" ++
  labels.flatMap fun label =>
    ((List.finRange 11).flatMap fun index =>
      seriesLine "swf_http_request_duration_seconds_bucket"
        (textWithBucket label (bucketTexts index))
        (natural ((item snapshot label).buckets index))) ++
    seriesLine "swf_http_request_duration_seconds_bucket" (textWithBucket label (ascii "+Inf"))
      (natural (item snapshot label).count) ++
    seriesLine "swf_http_request_duration_seconds_sum" (text label)
      (formatFloat (item snapshot label).sum) ++
    seriesLine "swf_http_request_duration_seconds_count" (text label)
      (natural (item snapshot label).count)

def lookupText (snapshot : FiniteMap DirectoryKey Observation) : Bytes :=
  let labels := sortedKeys DirectoryLess snapshot
  let braces := fun pairs : Bytes => ascii "\x7b" ++ pairs ++ ascii "\x7d"
  println "# HELP swf_directory_lookups_total Completed directory user lookups." ++
  println "# TYPE swf_directory_lookups_total counter" ++
  (labels.flatMap fun label =>
    seriesLine "swf_directory_lookups_total" (braces (directoryText label))
      (natural (item snapshot label).count)) ++
  println
    "# HELP swf_directory_lookup_duration_seconds Directory user lookup duration in seconds." ++
  println "# TYPE swf_directory_lookup_duration_seconds histogram" ++
  labels.flatMap fun label =>
    ((List.finRange 11).flatMap fun index =>
      seriesLine "swf_directory_lookup_duration_seconds_bucket"
        (braces (directoryText label ++ ascii ",le=" ++ quote (bucketTexts index)))
        (natural ((item snapshot label).buckets index))) ++
    seriesLine "swf_directory_lookup_duration_seconds_bucket"
      (braces (directoryText label ++ ascii ",le=" ++ quote (ascii "+Inf")))
      (natural (item snapshot label).count) ++
    seriesLine "swf_directory_lookup_duration_seconds_sum" (braces (directoryText label))
      (formatFloat (item snapshot label).sum) ++
    seriesLine "swf_directory_lookup_duration_seconds_count" (braces (directoryText label))
      (natural (item snapshot label).count)

/-- The statistics of a PostgreSQL pool; the duration is in nanoseconds. -/
structure Stats where
  acquiredConnections : Int
  constructingConnections : Int
  idleConnections : Int
  maxConnections : Int
  totalConnections : Int
  acquireCount : Int
  canceledAcquireCount : Int
  emptyAcquireCount : Int
  newConnectionsCount : Int
  acquireDuration : Int
  deriving DecidableEq, Repr

/-- The pool gauges by state. -/
def Stats.states (stats : Stats) : List (String × Int) :=
  [("acquired", stats.acquiredConnections), ("constructing", stats.constructingConnections),
    ("idle", stats.idleConnections), ("max", stats.maxConnections),
    ("total", stats.totalConnections)]

/-- The pool counters: name, help and value. -/
def Stats.counters (stats : Stats) : List (String × String × Int) :=
  [("swf_postgres_acquires_total", "Cumulative successful PostgreSQL pool acquires.",
      stats.acquireCount),
    ("swf_postgres_acquire_canceled_total", "Cumulative canceled PostgreSQL pool acquires.",
      stats.canceledAcquireCount),
    ("swf_postgres_acquire_empty_total",
      "Cumulative PostgreSQL acquires that waited for a connection.", stats.emptyAcquireCount),
    ("swf_postgres_connections_created_total",
      "Cumulative PostgreSQL connections created by the pool.", stats.newConnectionsCount)]

def writePostgresMetrics (stats : Stats) : Bytes :=
  println
    "# HELP swf_postgres_connections Current PostgreSQL pool connections by bounded state." ++
  println "# TYPE swf_postgres_connections gauge" ++
  (stats.states.flatMap fun entry =>
    seriesLine "swf_postgres_connections"
      (ascii "\x7bstate=" ++ quote (ascii entry.1) ++ ascii "\x7d") (decimal entry.2)) ++
  (stats.counters.flatMap fun entry =>
    ascii "# HELP " ++ ascii entry.1 ++ [32] ++ ascii entry.2.1 ++ ascii "\n# TYPE " ++
      ascii entry.1 ++ ascii " counter\n" ++ ascii entry.1 ++ [32] ++
      decimal entry.2.2 ++ [10]) ++
  println ("# HELP swf_postgres_acquire_duration_seconds_total " ++
    "Cumulative time waiting to acquire PostgreSQL connections.") ++
  println "# TYPE swf_postgres_acquire_duration_seconds_total counter" ++
  seriesLine "swf_postgres_acquire_duration_seconds_total" []
    (formatFloat (stats.acquireDuration / 10 ^ 9))

/-- What is written once the maps are copied and the statistics are taken. -/
def page (snapshot : Registry) (stats : Option Stats) : Bytes :=
  requestText formatFloat snapshot.data ++ lookupText formatFloat snapshot.directory ++
    match stats with
    | none => []
    | some stats => writePostgresMetrics formatFloat stats

/-- The handler with a registered pool or none; the statistics of a pool are absent where the
call panics. -/
def handler (registry : Registry) (pool : Option (Option Stats)) : Bytes :=
  page formatFloat registry.snapshot pool.join

/-! ## Labels as sets of pairs -/

theorem replaceAll_quote (value : Bytes) :
    replaceAll 34 [92, 34] (replaceAll 10 [92, 110] (replaceAll 92 [92, 92] value)) =
      value.flatMap escape := by
  unfold replaceAll
  rw [List.flatMap_assoc, List.flatMap_assoc]
  congr 1
  funext b
  unfold escape
  -- The bytes that one replacement writes are met by the next ones, which leave them alone.
  by_cases slash : b = 92
  · simp [slash]
  · by_cases feed : b = 10
    · simp [feed]
    · by_cases mark : b = 34 <;> simp [slash, feed, mark]

theorem quote_eq_quoted (value : Bytes) : quote value = quoted value := by
  simp only [quote, replaceAll_quote, quoted, List.cons_append, List.nil_append]

theorem quote_injective : Function.Injective quote := by
  intro value value' same
  rw [quote_eq_quoted, quote_eq_quoted] at same
  exact quoted_injective same

theorem quoteNumber_decimal (i : Int) : quoteNumber (decimal i) = quoted (decimal i) := by
  have plain : (decimal i).flatMap escape = decimal i := by
    have each : ∀ b ∈ decimal i, escape b = [b] := by
      intro b mem
      have known := mem_decimal mem
      have differ : b ≠ 92 ∧ b ≠ 10 ∧ b ≠ 34 := by
        refine ⟨?_, ?_, ?_⟩ <;> rintro rfl <;> exact absurd known (by decide)
      simp [escape, differ]
    rw [List.flatMap_congr each]
    simp
  rw [quoteNumber, quoted, plain, List.singleton_append, List.cons_append]

/-- The pairs of an HTTP key. -/
def keyPairs (label : Key) : List (Bytes × Bytes) :=
  [(ascii "method", label.method), (ascii "route", label.route),
    (ascii "status", decimal label.status)]

/-- The pairs of a directory key. -/
def directoryPairs (label : DirectoryKey) : List (Bytes × Bytes) :=
  [(ascii "outcome", label.outcome), (ascii "stage", label.stage)]

def bound (text : Bytes) : Bytes × Bytes := (ascii "le", text)

theorem text_eq (label : Key) : text label = labelSet (keyPairs label) := by
  simp [text, keyPairs, labelSet, labelList, labelText, quote_eq_quoted, quoteNumber_decimal,
    ascii]

example : text ⟨ascii "GET", ascii "a\"b\\c\nd", 200⟩ =
    ascii "\x7bmethod=\"GET\",route=\"a\\\"b\\\\c\\nd\",status=\"200\"\x7d" := by
  decide +kernel

theorem trimSuffix_append (text suffix : Bytes) : trimSuffix (text ++ suffix) suffix = text := by
  have ends : suffix.isSuffixOf (text ++ suffix) = true := by
    rw [List.isSuffixOf_iff_suffix]
    exact List.suffix_append text suffix
  rw [trimSuffix, if_pos ends, List.length_append, Nat.add_sub_cancel, List.take_left]

theorem textWithBucket_eq (label : Key) (bucket : Bytes) :
    textWithBucket label bucket = labelSet (keyPairs label ++ [bound bucket]) := by
  have base : text label = (123 :: labelList (keyPairs label)) ++ ascii "\x7d" := by
    rw [text_eq, labelSet, if_neg (by simp [keyPairs])]
    rfl
  rw [textWithBucket, base, trimSuffix_append]
  simp [keyPairs, bound, labelSet, labelList, labelText, quote_eq_quoted, ascii]

theorem directoryText_eq (label : DirectoryKey) :
    ascii "\x7b" ++ directoryText label ++ ascii "\x7d" = labelSet (directoryPairs label) := by
  simp [directoryText, directoryPairs, labelSet, labelList, labelText, quote_eq_quoted, ascii]

theorem directoryBucket_eq (label : DirectoryKey) (bucket : Bytes) :
    ascii "\x7b" ++ (directoryText label ++ ascii ",le=" ++ quote bucket) ++ ascii "\x7d" =
      labelSet (directoryPairs label ++ [bound bucket]) := by
  simp [directoryText, directoryPairs, bound, labelSet, labelList, labelText, quote_eq_quoted,
    ascii]

end MetricsPage
