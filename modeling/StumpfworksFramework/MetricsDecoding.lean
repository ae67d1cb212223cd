import StumpfworksFramework.MetricsPage

/-!
# Reading the metrics page back

The page is an exposition of the series of the registry, so a parser for the
text format gives every key back with its numbers, whatever bytes the route
contains, and nothing else under the names of these series. About the printed
sums it is assumed that they are not empty and hold neither line feeds nor
blanks.
-/

namespace MetricsDecoding

open ByteStrings Decimals ExpositionFormat FiniteMaps MetricsPage MetricsRegistry
open SortedKeys

universe u

variable (formatFloat : Rat → Bytes)

/-! ## Families of series -/

section Families

variable {κ : Type u} [DecidableEq κ]

/-- The series of one map: a total, and a histogram of durations. Names and label sets are well
formed, and the labels determine the key. -/
structure Family (κ : Type u) where
  total : Bytes
  bucket : Bytes
  sum : Bytes
  count : Bytes
  totalRemarks : List Bytes
  durationRemarks : List Bytes
  pairs : κ → List (Bytes × Bytes)
  key : List (Bytes × Bytes) → Option κ
  names : ∀ name ∈ [total, bucket, sum, count], IsName name
  distinct : [total, bucket, sum, count].Nodup
  remarks : ∀ remark ∈ totalRemarks ++ durationRemarks, 10 ∉ remark
  pairNames : ∀ k, ∀ pair ∈ pairs k, IsName pair.1
  key_pairs : ∀ k, key (pairs k) = some k

/-- The printed bounds of a histogram with their counts, the last of them infinite. -/
def bucketValues (m : FiniteMap κ Observation) (k : κ) : List (Bytes × Nat) :=
  ((List.finRange 11).map fun index => (bucketTexts index, (item m k).buckets index)) ++
    [(ascii "+Inf", (item m k).count)]

variable (F : Family κ) (m : FiniteMap κ Observation)

def Family.totalSample (k : κ) : Sample := ⟨F.total, F.pairs k, natural (item m k).count⟩

def Family.bucketSamples (k : κ) : List Sample :=
  (bucketValues m k).map fun entry => ⟨F.bucket, F.pairs k ++ [bound entry.1], natural entry.2⟩

def Family.sumSample (k : κ) : Sample := ⟨F.sum, F.pairs k, formatFloat (item m k).sum⟩

def Family.countSample (k : κ) : Sample := ⟨F.count, F.pairs k, natural (item m k).count⟩

def Family.histogramSamples (k : κ) : List Sample :=
  F.bucketSamples m k ++ [F.sumSample formatFloat m k, F.countSample m k]

def Family.samples (keys : List κ) : List Sample :=
  keys.map (F.totalSample m) ++ keys.flatMap (F.histogramSamples formatFloat m)

def Family.lines (keys : List κ) : List Line :=
  F.totalRemarks.map Line.comment ++ keys.map (fun k => Line.sample (F.totalSample m k)) ++
    F.durationRemarks.map Line.comment ++
    keys.flatMap fun k => (F.histogramSamples formatFloat m k).map Line.sample

theorem filterMap_comment (remarks : List Bytes) :
    (remarks.map Line.comment).filterMap Line.sample? = [] := by
  induction remarks with
  | nil => rfl
  | cons remark rest ih => exact ih

theorem filterMap_sample (samples : List Sample) :
    (samples.map Line.sample).filterMap Line.sample? = samples := by
  rw [List.filterMap_map]
  exact List.filterMap_some

theorem Family.filterMap_lines (keys : List κ) :
    (F.lines formatFloat m keys).filterMap Line.sample? = F.samples formatFloat m keys := by
  have totals : keys.map (fun k => Line.sample (F.totalSample m k)) =
      (keys.map (F.totalSample m)).map Line.sample := by
    rw [List.map_map]
    rfl
  have histograms : keys.flatMap (fun k => (F.histogramSamples formatFloat m k).map Line.sample) =
      (keys.flatMap (F.histogramSamples formatFloat m)).map Line.sample := by
    rw [List.map_flatMap]
  rw [Family.lines, totals, histograms]
  simp only [List.filterMap_append, filterMap_comment, filterMap_sample, List.nil_append,
    List.append_nil, Family.samples]

theorem isValue_natural (n : Nat) : IsValue (natural n) := by
  refine ⟨natural_ne_nil n, fun b mem => ?_⟩
  have known := isDigit_of_mem_natural mem
  constructor <;> rintro rfl <;> exact absurd known (by decide)

variable {formatFloat} {F} {m}

theorem Family.wellFormed_histogram (printable : ∀ x, IsValue (formatFloat x)) {k : κ}
    {s : Sample} (mem : s ∈ F.histogramSamples formatFloat m k) : s.WellFormed := by
  rcases List.mem_append.mp mem with mem | mem
  · obtain ⟨entry, _, rfl⟩ := List.mem_map.mp mem
    refine ⟨F.names _ (by simp), ?_, isValue_natural _⟩
    intro pair listed
    rcases List.mem_append.mp listed with listed | last
    · exact F.pairNames k pair listed
    · have le : IsName (ascii "le") := by
        rw [ascii_ofList]
        decide +kernel
      rw [List.mem_singleton.mp last]
      exact le
  · simp only [List.mem_cons, List.not_mem_nil, or_false] at mem
    rcases mem with rfl | rfl
    · exact ⟨F.names _ (by simp [Family.sumSample]), F.pairNames k, printable _⟩
    · exact ⟨F.names _ (by simp [Family.countSample]), F.pairNames k, isValue_natural _⟩

theorem Family.wellFormed_lines (printable : ∀ x, IsValue (formatFloat x)) {keys : List κ}
    {line : Line} (mem : line ∈ F.lines formatFloat m keys) : line.WellFormed := by
  simp only [Family.lines, List.mem_append, List.mem_map, List.mem_flatMap] at mem
  rcases mem with ((⟨remark, listed, rfl⟩ | ⟨k, _, rfl⟩) | ⟨remark, listed, rfl⟩) |
    ⟨k, _, s, listed, rfl⟩
  · exact F.remarks remark (List.mem_append_left _ listed)
  · exact ⟨F.names _ (by simp [Family.totalSample]), F.pairNames k, isValue_natural _⟩
  · exact F.remarks remark (List.mem_append_right _ listed)
  · exact Family.wellFormed_histogram printable listed

/-! ## Reading a family back -/

/-- What a page says about the keys of one map. -/
structure Reading (κ : Type u) where
  totals : List (κ × Nat)
  buckets : List (κ × Bytes × Nat)
  sums : List (κ × Bytes)
  counts : List (κ × Nat)

def readNumber (key : List (Bytes × Bytes) → Option κ) (s : Sample) : Option (κ × Nat) :=
  (key s.labels).bind fun k => (readNatural s.value).map fun n => (k, n)

def readText (key : List (Bytes × Bytes) → Option κ) (s : Sample) : Option (κ × Bytes) :=
  (key s.labels).map fun k => (k, s.value)

/-- The last label is the bound, the others give the key. -/
def readBucket (key : List (Bytes × Bytes) → Option κ) (s : Sample) : Option (κ × Bytes × Nat) :=
  match s.labels.getLast? with
  | none => none
  | some (name, text) =>
    if name = ascii "le" then
      (key s.labels.dropLast).bind fun k => (readNatural s.value).map fun n => (k, text, n)
    else none

def series (name : Bytes) (samples : List Sample) : List Sample :=
  samples.filter fun s => s.name = name

/-- Read all series with a name of the family; it is an error if one of them does not have the
family's labels. -/
def Family.read (F : Family κ) (samples : List Sample) : Option (Reading κ) := do
  let totals ← (series F.total samples).mapM (readNumber F.key)
  let buckets ← (series F.bucket samples).mapM (readBucket F.key)
  let sums ← (series F.sum samples).mapM (readText F.key)
  let counts ← (series F.count samples).mapM (readNumber F.key)
  return ⟨totals, buckets, sums, counts⟩

/-- The numbers of a map for a list of keys. -/
def reading (formatFloat : Rat → Bytes) (m : FiniteMap κ Observation) (keys : List κ) :
    Reading κ where
  totals := keys.map fun k => (k, (item m k).count)
  buckets := keys.flatMap fun k => (bucketValues m k).map fun entry => (k, entry.1, entry.2)
  sums := keys.map fun k => (k, formatFloat (item m k).sum)
  counts := keys.map fun k => (k, (item m k).count)

theorem series_append (name : Bytes) (samples samples' : List Sample) :
    series name (samples ++ samples') = series name samples ++ series name samples' :=
  List.filter_append ..

theorem series_of_forall {name : Bytes} {samples : List Sample}
    (all : ∀ s ∈ samples, s.name = name) : series name samples = samples :=
  List.filter_eq_self.mpr fun s mem => decide_eq_true (all s mem)

theorem series_of_forall_ne {name : Bytes} {samples : List Sample}
    (none : ∀ s ∈ samples, s.name ≠ name) : series name samples = [] :=
  List.filter_eq_nil_iff.mpr fun s mem => by simpa using none s mem

theorem series_flatMap {ι : Type u} (name : Bytes) (keys : List ι) (f : ι → List Sample) :
    series name (keys.flatMap f) = keys.flatMap fun k => series name (f k) :=
  List.filter_flatMap ..

theorem Family.name_histogram {k : κ} {s : Sample}
    (mem : s ∈ F.histogramSamples formatFloat m k) :
    s.name = F.bucket ∨ s.name = F.sum ∨ s.name = F.count := by
  rcases List.mem_append.mp mem with mem | mem
  · obtain ⟨entry, _, rfl⟩ := List.mem_map.mp mem
    exact Or.inl rfl
  · simp only [List.mem_cons, List.not_mem_nil, or_false] at mem
    rcases mem with rfl | rfl
    · exact Or.inr (Or.inl rfl)
    · exact Or.inr (Or.inr rfl)

theorem Family.name_samples {keys : List κ} {s : Sample}
    (mem : s ∈ F.samples formatFloat m keys) :
    s.name ∈ [F.total, F.bucket, F.sum, F.count] := by
  rcases List.mem_append.mp mem with mem | mem
  · obtain ⟨k, _, rfl⟩ := List.mem_map.mp mem
    exact List.mem_cons_self
  · obtain ⟨k, _, mem⟩ := List.mem_flatMap.mp mem
    rcases F.name_histogram mem with name | name | name <;> simp [name]

omit [DecidableEq κ] in
theorem Family.names_ne :
    (F.total ≠ F.bucket ∧ F.total ≠ F.sum ∧ F.total ≠ F.count) ∧
      (F.bucket ≠ F.sum ∧ F.bucket ≠ F.count) ∧ F.sum ≠ F.count := by
  have distinct := F.distinct
  simp only [List.nodup_cons, List.mem_cons, List.not_mem_nil, or_false, not_or] at distinct
  exact ⟨distinct.1, distinct.2.1, distinct.2.2.1⟩

theorem Family.series_total (keys : List κ) :
    series F.total (F.samples formatFloat m keys) = keys.map (F.totalSample m) := by
  obtain ⟨⟨bucket, sum, count⟩, _⟩ := F.names_ne
  rw [Family.samples, series_append, series_of_forall, series_of_forall_ne, List.append_nil]
  · intro s mem
    obtain ⟨k, _, mem⟩ := List.mem_flatMap.mp mem
    rcases F.name_histogram mem with name | name | name <;> rw [name]
    · exact bucket.symm
    · exact sum.symm
    · exact count.symm
  · intro s mem
    obtain ⟨k, _, rfl⟩ := List.mem_map.mp mem
    rfl

/-- A name other than the total is found in the histograms only. -/
theorem Family.series_histogram {name : Bytes} (other : F.total ≠ name) (keys : List κ) :
    series name (F.samples formatFloat m keys) =
      keys.flatMap fun k => series name (F.histogramSamples formatFloat m k) := by
  rw [Family.samples, series_append, series_of_forall_ne, List.nil_append, series_flatMap]
  intro s mem
  obtain ⟨k, _, rfl⟩ := List.mem_map.mp mem
  exact other

theorem Family.series_bucketSamples {name : Bytes} (other : F.bucket ≠ name) (k : κ) :
    series name (F.bucketSamples m k) = [] := by
  apply series_of_forall_ne
  intro s mem
  obtain ⟨entry, _, rfl⟩ := List.mem_map.mp mem
  exact other

theorem Family.series_bucket (keys : List κ) :
    series F.bucket (F.samples formatFloat m keys) = keys.flatMap (F.bucketSamples m) := by
  obtain ⟨⟨total, _, _⟩, ⟨sum, count⟩, _⟩ := F.names_ne
  rw [F.series_histogram total]
  refine List.flatMap_congr fun k _ => ?_
  rw [Family.histogramSamples, series_append, series_of_forall, series_of_forall_ne,
    List.append_nil]
  · intro s mem
    simp only [List.mem_cons, List.not_mem_nil, or_false] at mem
    rcases mem with rfl | rfl
    · exact sum.symm
    · exact count.symm
  · intro s mem
    obtain ⟨entry, _, rfl⟩ := List.mem_map.mp mem
    rfl

theorem Family.series_sum (keys : List κ) :
    series F.sum (F.samples formatFloat m keys) = keys.map (F.sumSample formatFloat m) := by
  obtain ⟨⟨_, total, _⟩, ⟨bucket, _⟩, count⟩ := F.names_ne
  rw [F.series_histogram total, List.map_eq_flatMap]
  refine List.flatMap_congr fun k _ => ?_
  rw [Family.histogramSamples, series_append, F.series_bucketSamples bucket]
  simp [series, Family.sumSample, Family.countSample, count.symm]

theorem Family.series_count (keys : List κ) :
    series F.count (F.samples formatFloat m keys) = keys.map (F.countSample m) := by
  obtain ⟨⟨_, _, total⟩, ⟨_, bucket⟩, sum⟩ := F.names_ne
  rw [F.series_histogram total, List.map_eq_flatMap]
  refine List.flatMap_congr fun k _ => ?_
  rw [Family.histogramSamples, series_append, F.series_bucketSamples bucket]
  simp [series, Family.sumSample, Family.countSample, sum]

theorem Family.readBucket_bucketSamples (k : κ) :
    (F.bucketSamples m k).mapM (readBucket F.key) =
      some ((bucketValues m k).map fun entry => (k, entry.1, entry.2)) := by
  refine mapM_map_some fun entry _ => ?_
  simp only [readBucket, List.getLast?_concat, bound, if_true, List.dropLast_concat, F.key_pairs,
    readNatural_natural, Option.bind_some, Option.map_some]

/-- Among samples with other names, the family is read back exactly. -/
theorem Family.read_samples {before after : List Sample}
    (others : ∀ s ∈ before ++ after, s.name ∉ [F.total, F.bucket, F.sum, F.count])
    (keys : List κ) : F.read (before ++ F.samples formatFloat m keys ++ after) =
      some (reading formatFloat m keys) := by
  have only : ∀ name ∈ [F.total, F.bucket, F.sum, F.count],
      series name (before ++ F.samples formatFloat m keys ++ after) =
        series name (F.samples formatFloat m keys) := by
    intro name mem
    have absent : ∀ s ∈ before ++ after, s.name ≠ name :=
      fun s listed same => others s listed (same ▸ mem)
    rw [series_append, series_append,
      series_of_forall_ne fun s listed => absent s (List.mem_append_left _ listed),
      series_of_forall_ne fun s listed => absent s (List.mem_append_right _ listed),
      List.nil_append, List.append_nil]
  have totals : (keys.map (F.totalSample m)).mapM (readNumber F.key) =
      some (reading formatFloat m keys).totals :=
    mapM_map_some fun k _ => by
      simp [readNumber, Family.totalSample, F.key_pairs, readNatural_natural]
  have buckets : (keys.flatMap (F.bucketSamples m)).mapM (readBucket F.key) =
      some (reading formatFloat m keys).buckets :=
    mapM_flatMap_some fun k _ => F.readBucket_bucketSamples k
  have sums : (keys.map (F.sumSample formatFloat m)).mapM (readText F.key) =
      some (reading formatFloat m keys).sums :=
    mapM_map_some fun k _ => by simp [readText, Family.sumSample, F.key_pairs]
  have counts : (keys.map (F.countSample m)).mapM (readNumber F.key) =
      some (reading formatFloat m keys).counts :=
    mapM_map_some fun k _ => by
      simp [readNumber, Family.countSample, F.key_pairs, readNatural_natural]
  rw [Family.read, only _ (by simp), only _ (by simp), only _ (by simp), only _ (by simp),
    F.series_total, F.series_bucket, F.series_sum, F.series_count, totals, buckets, sums, counts]
  rfl

end Families

/-! ## The two maps -/

def readKey : List (Bytes × Bytes) → Option Key
  | [(method, m), (route, r), (status, s)] =>
    if method = ascii "method" ∧ route = ascii "route" ∧ status = ascii "status" then
      (readDecimal s).map fun status => ⟨m, r, status⟩
    else none
  | _ => none

def readDirectoryKey : List (Bytes × Bytes) → Option DirectoryKey
  | [(outcome, o), (stage, s)] =>
    if outcome = ascii "outcome" ∧ stage = ascii "stage" then some ⟨o, s⟩ else none
  | _ => none

def requestFamily : Family Key where
  total := ascii "swf_http_requests_total"
  bucket := ascii "swf_http_request_duration_seconds_bucket"
  sum := ascii "swf_http_request_duration_seconds_sum"
  count := ascii "swf_http_request_duration_seconds_count"
  totalRemarks := [" HELP swf_http_requests_total Completed HTTP requests.",
    " TYPE swf_http_requests_total counter"].map ascii
  durationRemarks := [" HELP swf_http_request_duration_seconds HTTP request duration in seconds.",
    " TYPE swf_http_request_duration_seconds histogram"].map ascii
  pairs := keyPairs
  key := readKey
  names := by
    repeat rw [ascii_ofList]
    decide +kernel
  distinct := by
    repeat rw [ascii_ofList]
    decide +kernel
  remarks := by
    simp only [List.map_cons, List.map_nil]
    repeat rw [ascii_ofList]
    decide +kernel
  pairNames := fun k pair mem => by
    have known : ∀ name ∈ ["method", "route", "status"].map ascii, IsName name := by
      simp only [List.map_cons, List.map_nil]
      repeat rw [ascii_ofList]
      decide +kernel
    exact known pair.1 (List.mem_map_of_mem mem)
  key_pairs := fun k => by
    simp only [keyPairs, readKey, and_self, if_true, readDecimal_decimal, Option.map_some]

def directoryFamily : Family DirectoryKey where
  total := ascii "swf_directory_lookups_total"
  bucket := ascii "swf_directory_lookup_duration_seconds_bucket"
  sum := ascii "swf_directory_lookup_duration_seconds_sum"
  count := ascii "swf_directory_lookup_duration_seconds_count"
  totalRemarks := [" HELP swf_directory_lookups_total Completed directory user lookups.",
    " TYPE swf_directory_lookups_total counter"].map ascii
  durationRemarks := [
    " HELP swf_directory_lookup_duration_seconds Directory user lookup duration in seconds.",
    " TYPE swf_directory_lookup_duration_seconds histogram"].map ascii
  pairs := directoryPairs
  key := readDirectoryKey
  names := by
    repeat rw [ascii_ofList]
    decide +kernel
  distinct := by
    repeat rw [ascii_ofList]
    decide +kernel
  remarks := by
    simp only [List.map_cons, List.map_nil]
    repeat rw [ascii_ofList]
    decide +kernel
  pairNames := fun k pair mem => by
    have known : ∀ name ∈ ["outcome", "stage"].map ascii, IsName name := by
      simp only [List.map_cons, List.map_nil]
      repeat rw [ascii_ofList]
      decide +kernel
    exact known pair.1 (List.mem_map_of_mem mem)
  key_pairs := fun k => by simp only [directoryPairs, readDirectoryKey, and_self, if_true]

def connectionRemarks : List Bytes :=
  [" HELP swf_postgres_connections Current PostgreSQL pool connections by bounded state.",
    " TYPE swf_postgres_connections gauge"].map ascii

def acquireRemarks : List Bytes :=
  [" HELP swf_postgres_acquire_duration_seconds_total " ++
      "Cumulative time waiting to acquire PostgreSQL connections.",
    " TYPE swf_postgres_acquire_duration_seconds_total counter"].map ascii

def stateSample (entry : String × Int) : Sample :=
  ⟨ascii "swf_postgres_connections", [(ascii "state", ascii entry.1)], decimal entry.2⟩

def counterLines (entry : String × String × Int) : List Line :=
  [.comment (ascii " HELP " ++ ascii entry.1 ++ [32] ++ ascii entry.2.1),
    .comment (ascii " TYPE " ++ ascii entry.1 ++ ascii " counter"),
    .sample ⟨ascii entry.1, [], decimal entry.2.2⟩]

def acquireSample (stats : Stats) : Sample :=
  ⟨ascii "swf_postgres_acquire_duration_seconds_total", [],
    formatFloat (stats.acquireDuration / 10 ^ 9)⟩

/-- The pool statistics as lines. -/
def poolLines (stats : Stats) : List Line :=
  connectionRemarks.map Line.comment ++ stats.states.map (fun entry => .sample (stateSample entry))
    ++ stats.counters.flatMap counterLines ++ acquireRemarks.map Line.comment ++
    [.sample (acquireSample formatFloat stats)]

def pageLines (snapshot : Registry) (stats : Option Stats) : List Line :=
  requestFamily.lines formatFloat snapshot.data (sortedKeys KeyLess snapshot.data) ++
  directoryFamily.lines formatFloat snapshot.directory
    (sortedKeys DirectoryLess snapshot.directory) ++
  (stats.map (poolLines formatFloat)).getD []

theorem exposition_append (lines lines' : List Line) :
    exposition (lines ++ lines') = exposition lines ++ exposition lines' :=
  List.flatMap_append ..

theorem exposition_flatMap {ι : Type u} (items : List ι) (f : ι → List Line) :
    exposition (items.flatMap f) = items.flatMap fun x => exposition (f x) :=
  List.flatMap_assoc

theorem exposition_map {ι : Type u} (items : List ι) (f : ι → Line) :
    exposition (items.map f) = items.flatMap fun x => (f x).text ++ [10] :=
  List.flatMap_map ..

theorem seriesLine_eq {name : String} {labels : Bytes} {pairs : List (Bytes × Bytes)}
    (set : labels = labelSet pairs) (value : Bytes) :
    seriesLine name labels value = (Line.sample ⟨ascii name, pairs, value⟩).text ++ [10] := by
  simp [seriesLine, Line.text, Sample.text, set]

theorem Family.exposition_lines {κ : Type u} [DecidableEq κ] (F : Family κ)
    (m : FiniteMap κ Observation) (keys : List κ) :
    exposition (F.lines formatFloat m keys) =
      exposition (F.totalRemarks.map Line.comment) ++
      (keys.flatMap fun k => (Line.sample (F.totalSample m k)).text ++ [10]) ++
      exposition (F.durationRemarks.map Line.comment) ++
      keys.flatMap fun k =>
        ((List.finRange 11).flatMap fun index =>
          (Line.sample ⟨F.bucket, F.pairs k ++ [bound (bucketTexts index)],
            natural ((item m k).buckets index)⟩).text ++ [10]) ++
        ((Line.sample ⟨F.bucket, F.pairs k ++ [bound (ascii "+Inf")],
          natural (item m k).count⟩).text ++ [10]) ++
        ((Line.sample (F.sumSample formatFloat m k)).text ++ [10]) ++
        ((Line.sample (F.countSample m k)).text ++ [10]) := by
  have histogram : ∀ k, exposition ((F.histogramSamples formatFloat m k).map Line.sample) =
      ((List.finRange 11).flatMap fun index =>
        (Line.sample ⟨F.bucket, F.pairs k ++ [bound (bucketTexts index)],
          natural ((item m k).buckets index)⟩).text ++ [10]) ++
      ((Line.sample ⟨F.bucket, F.pairs k ++ [bound (ascii "+Inf")],
        natural (item m k).count⟩).text ++ [10]) ++
      ((Line.sample (F.sumSample formatFloat m k)).text ++ [10]) ++
      ((Line.sample (F.countSample m k)).text ++ [10]) := by
    intro k
    rw [exposition_map, Family.histogramSamples, List.flatMap_append, Family.bucketSamples,
      List.flatMap_map, bucketValues, List.flatMap_append, List.flatMap_map]
    simp only [List.flatMap_cons, List.flatMap_nil, List.append_nil, List.append_assoc]
  rw [Family.lines, exposition_append, exposition_append, exposition_append, exposition_map keys,
    exposition_flatMap, funext histogram]

theorem requestText_eq (m : FiniteMap Key Observation) : requestText formatFloat m =
    exposition (requestFamily.lines formatFloat m (sortedKeys KeyLess m)) := by
  have remarks : println "# HELP swf_http_requests_total Completed HTTP requests." ++
      println "# TYPE swf_http_requests_total counter" =
        exposition (requestFamily.totalRemarks.map Line.comment) := by
    simp only [println, requestFamily, List.map_cons, List.map_nil]
    repeat rw [ascii_ofList]
    decide +kernel
  have remarks' :
      println "# HELP swf_http_request_duration_seconds HTTP request duration in seconds." ++
      println "# TYPE swf_http_request_duration_seconds histogram" =
        exposition (requestFamily.durationRemarks.map Line.comment) := by
    simp only [println, requestFamily, List.map_cons, List.map_nil]
    repeat rw [ascii_ofList]
    decide +kernel
  rw [requestFamily.exposition_lines, ← remarks, ← remarks']
  simp only [requestText, seriesLine_eq (text_eq _), seriesLine_eq (textWithBucket_eq _ _),
    List.append_assoc]
  rfl

theorem lookupText_eq (m : FiniteMap DirectoryKey Observation) : lookupText formatFloat m =
    exposition (directoryFamily.lines formatFloat m (sortedKeys DirectoryLess m)) := by
  have remarks : println "# HELP swf_directory_lookups_total Completed directory user lookups." ++
      println "# TYPE swf_directory_lookups_total counter" =
        exposition (directoryFamily.totalRemarks.map Line.comment) := by
    simp only [println, directoryFamily, List.map_cons, List.map_nil]
    repeat rw [ascii_ofList]
    decide +kernel
  have remarks' : println
    "# HELP swf_directory_lookup_duration_seconds Directory user lookup duration in seconds." ++
      println "# TYPE swf_directory_lookup_duration_seconds histogram" =
        exposition (directoryFamily.durationRemarks.map Line.comment) := by
    simp only [println, directoryFamily, List.map_cons, List.map_nil]
    repeat rw [ascii_ofList]
    decide +kernel
  rw [directoryFamily.exposition_lines, ← remarks, ← remarks']
  simp only [lookupText, seriesLine_eq (directoryText_eq _),
    seriesLine_eq (directoryBucket_eq _ _)]
  simp only [List.append_assoc]
  rfl

theorem counterLines_eq (entry : String × String × Int) :
    ascii "# HELP " ++ ascii entry.1 ++ [32] ++ ascii entry.2.1 ++ ascii "\n# TYPE " ++
      ascii entry.1 ++ ascii " counter\n" ++ ascii entry.1 ++ [32] ++
      decimal entry.2.2 ++ [10] = exposition (counterLines entry) := by
  simp [counterLines, exposition, Line.text, Sample.text, labelSet, ascii]

theorem stateText_eq (name : String) :
    ascii "\x7bstate=" ++ quote (ascii name) ++ ascii "\x7d" =
      labelSet [(ascii "state", ascii name)] := by
  simp [labelSet, labelList, labelText, quote_eq_quoted, ascii]

theorem writePostgresMetrics_eq (stats : Stats) :
    writePostgresMetrics formatFloat stats = exposition (poolLines formatFloat stats) := by
  have remarks : println
    "# HELP swf_postgres_connections Current PostgreSQL pool connections by bounded state." ++
      println "# TYPE swf_postgres_connections gauge" =
        exposition (connectionRemarks.map Line.comment) := by
    simp only [println, connectionRemarks, List.map_cons, List.map_nil]
    repeat rw [ascii_ofList]
    decide +kernel
  have remarks' : println ("# HELP swf_postgres_acquire_duration_seconds_total " ++
    "Cumulative time waiting to acquire PostgreSQL connections.") ++
      println "# TYPE swf_postgres_acquire_duration_seconds_total counter" =
        exposition (acquireRemarks.map Line.comment) := by
    simp only [println, acquireRemarks, List.map_cons, List.map_nil]
    repeat rw [ascii_ofList]
    decide +kernel
  have duration : seriesLine "swf_postgres_acquire_duration_seconds_total" []
        (formatFloat (stats.acquireDuration / 10 ^ 9)) =
      exposition [.sample (acquireSample formatFloat stats)] := by
    simp [seriesLine, acquireSample, exposition, Line.text, Sample.text, labelSet]
  rw [poolLines, exposition_append, exposition_append, exposition_append, exposition_append,
    exposition_map stats.states, exposition_flatMap, ← remarks, ← remarks', ← duration]
  simp only [writePostgresMetrics, seriesLine_eq (stateText_eq _), counterLines_eq]
  simp only [List.append_assoc]
  rfl

theorem page_eq (snapshot : Registry) (stats : Option Stats) :
    page formatFloat snapshot stats = exposition (pageLines formatFloat snapshot stats) := by
  cases stats with
  | none =>
    rw [page, pageLines, exposition_append, exposition_append, requestText_eq, lookupText_eq]
    rfl
  | some stats =>
    rw [page, pageLines, exposition_append, exposition_append, requestText_eq, lookupText_eq,
      writePostgresMetrics_eq]
    rfl

/-! ## The page -/

section Page

variable {formatFloat} (printable : ∀ x, IsValue (formatFloat x))

theorem isValue_decimal (i : Int) : IsValue (decimal i) := by
  refine ⟨decimal_ne_nil i, fun b mem => ?_⟩
  have known := mem_decimal mem
  constructor <;> rintro rfl <;> exact absurd known (by decide)

/-- The names that occur in the pool statistics. -/
def poolNames : List Bytes := ["swf_postgres_connections", "swf_postgres_acquires_total",
  "swf_postgres_acquire_canceled_total", "swf_postgres_acquire_empty_total",
  "swf_postgres_connections_created_total",
  "swf_postgres_acquire_duration_seconds_total"].map ascii

theorem poolNames_isName : ∀ name ∈ poolNames, IsName name := by
  simp only [poolNames, List.map_cons, List.map_nil]
  repeat rw [ascii_ofList]
  decide +kernel

theorem counter_mem {stats : Stats} {entry : String × String × Int} (mem : entry ∈ stats.counters) :
    ascii entry.1 ∈ poolNames ∧ 10 ∉ ascii entry.1 ∧ 10 ∉ ascii entry.2.1 := by
  have names : ∀ texts ∈ stats.counters.map (fun entry => (entry.1, entry.2.1)),
      ascii texts.1 ∈ poolNames ∧ 10 ∉ ascii texts.1 ∧ 10 ∉ ascii texts.2 := by
    simp only [Stats.counters, poolNames, List.map_cons, List.map_nil, List.forall_mem_cons]
    repeat rw [ascii_ofList]
    decide +kernel
  exact names _ (List.mem_map_of_mem mem)

theorem wellFormed_stateSample (entry : String × Int) : (stateSample entry).WellFormed := by
  have state : IsName (ascii "state") := by
    rw [ascii_ofList]
    decide +kernel
  refine ⟨poolNames_isName _ List.mem_cons_self, ?_, isValue_decimal _⟩
  intro pair listed
  rw [List.mem_singleton.mp listed]
  exact state

theorem wellFormed_counterLines {stats : Stats} {entry : String × String × Int}
    (counter : entry ∈ stats.counters) {line : Line} (mem : line ∈ counterLines entry) :
    line.WellFormed := by
  obtain ⟨known, clean, help⟩ := counter_mem counter
  have words : 10 ∉ ascii " HELP " ∧ 10 ∉ ascii " TYPE " ∧ 10 ∉ ascii " counter" := by decide
  simp only [counterLines, List.mem_cons, List.not_mem_nil, or_false] at mem
  rcases mem with rfl | rfl | rfl
  · simp only [Line.WellFormed, List.mem_append, List.mem_singleton, not_or]
    exact ⟨⟨⟨words.1, clean⟩, by decide⟩, help⟩
  · simp only [Line.WellFormed, List.mem_append, not_or]
    exact ⟨⟨words.2.1, clean⟩, words.2.2⟩
  · exact ⟨poolNames_isName _ known, fun _ none => absurd none List.not_mem_nil,
      isValue_decimal _⟩

include printable in
theorem wellFormed_poolLines {stats : Stats} {line : Line}
    (mem : line ∈ poolLines formatFloat stats) : line.WellFormed := by
  simp only [poolLines, List.mem_append, List.mem_map, List.mem_flatMap, List.mem_cons,
    List.not_mem_nil, or_false] at mem
  rcases mem with (((⟨remark, listed, rfl⟩ | ⟨entry, _, rfl⟩) | ⟨entry, counter, listed⟩) |
    ⟨remark, listed, rfl⟩) | rfl
  · have clean : ∀ remark ∈ connectionRemarks, (10 : UInt8) ∉ remark := by
      simp only [connectionRemarks, List.map_cons, List.map_nil]
      repeat rw [ascii_ofList]
      decide +kernel
    exact clean remark listed
  · exact wellFormed_stateSample entry
  · exact wellFormed_counterLines counter listed
  · have clean : ∀ remark ∈ acquireRemarks, (10 : UInt8) ∉ remark := by
      simp only [acquireRemarks, List.map_cons, List.map_nil]
      repeat rw [ascii_ofList]
      decide +kernel
    exact clean remark listed
  · exact ⟨poolNames_isName _ (by simp [poolNames, acquireSample]),
      fun _ none => absurd none List.not_mem_nil, printable _⟩

include printable in
theorem wellFormed_pageLines {snapshot : Registry} {stats : Option Stats} {line : Line}
    (mem : line ∈ pageLines formatFloat snapshot stats) : line.WellFormed := by
  rcases List.mem_append.mp mem with mem | mem
  · rcases List.mem_append.mp mem with mem | mem
    · exact Family.wellFormed_lines printable mem
    · exact Family.wellFormed_lines printable mem
  · cases stats with
    | none => exact absurd mem List.not_mem_nil
    | some stats => exact wellFormed_poolLines printable mem

/-- The samples of the pool statistics. -/
def poolSamples (formatFloat : Rat → Bytes) (stats : Option Stats) : List Sample :=
  ((stats.map (poolLines formatFloat)).getD []).filterMap Line.sample?

theorem name_poolLines {stats : Stats} {s : Sample}
    (mem : Line.sample s ∈ poolLines formatFloat stats) : s.name ∈ poolNames := by
  simp only [poolLines, List.mem_append, List.mem_map, List.mem_flatMap, List.mem_cons,
    List.not_mem_nil, or_false, reduceCtorEq, and_false, exists_false, false_or,
    Line.sample.injEq] at mem
  rcases mem with (⟨entry, _, rfl⟩ | ⟨entry, counter, listed⟩) | rfl
  · exact List.mem_cons_self
  · simp only [counterLines, List.mem_cons, reduceCtorEq, false_or, List.not_mem_nil, or_false,
      Line.sample.injEq] at listed
    rw [listed]
    exact (counter_mem counter).1
  · simp [poolNames, acquireSample]

theorem name_poolSamples {stats : Option Stats} {s : Sample}
    (mem : s ∈ poolSamples formatFloat stats) : s.name ∈ poolNames := by
  obtain ⟨line, listed, isSample⟩ := List.mem_filterMap.mp mem
  cases stats with
  | none => exact absurd listed List.not_mem_nil
  | some stats =>
    cases line with
    | comment text => cases isSample
    | sample s' =>
      cases isSample
      exact name_poolLines listed

/-- The names of a family's series. -/
def Family.seriesNames {κ : Type u} (F : Family κ) : List Bytes :=
  [F.total, F.bucket, F.sum, F.count]

theorem names_disjoint : (∀ name ∈ directoryFamily.seriesNames ++ poolNames,
      name ∉ requestFamily.seriesNames) ∧
    ∀ name ∈ requestFamily.seriesNames ++ poolNames, name ∉ directoryFamily.seriesNames := by
  simp only [Family.seriesNames, requestFamily, directoryFamily, poolNames, List.map_cons,
    List.map_nil]
  repeat rw [ascii_ofList]
  decide +kernel

/-- A page read by a parser for the text format: all series of both maps. -/
def decodePage (text : Bytes) : Option (Reading Key × Reading DirectoryKey) := do
  let samples ← parse text
  let requests ← requestFamily.read samples
  let lookups ← directoryFamily.read samples
  return (requests, lookups)

include printable in
theorem decodePage_page (snapshot : Registry) (stats : Option Stats) :
    decodePage (page formatFloat snapshot stats) =
      some (reading formatFloat snapshot.data (sortedKeys KeyLess snapshot.data),
        reading formatFloat snapshot.directory (sortedKeys DirectoryLess snapshot.directory)) := by
  have parsed : parse (page formatFloat snapshot stats) =
      some (requestFamily.samples formatFloat snapshot.data (sortedKeys KeyLess snapshot.data) ++
        directoryFamily.samples formatFloat snapshot.directory
          (sortedKeys DirectoryLess snapshot.directory) ++ poolSamples formatFloat stats) := by
    rw [page_eq, parse_exposition fun _ mem => wellFormed_pageLines printable mem, pageLines,
      List.filterMap_append, List.filterMap_append, Family.filterMap_lines,
      Family.filterMap_lines]
    rfl
  have requests : requestFamily.read ([] ++
      requestFamily.samples formatFloat snapshot.data (sortedKeys KeyLess snapshot.data) ++
      (directoryFamily.samples formatFloat snapshot.directory
        (sortedKeys DirectoryLess snapshot.directory) ++ poolSamples formatFloat stats)) =
      some (reading formatFloat snapshot.data (sortedKeys KeyLess snapshot.data)) := by
    refine Family.read_samples (fun s mem => names_disjoint.1 s.name ?_) _
    rw [List.nil_append] at mem
    rcases List.mem_append.mp mem with mem | mem
    · exact List.mem_append_left _ (Family.name_samples mem)
    · exact List.mem_append_right _ (name_poolSamples mem)
  have lookups : directoryFamily.read (
      requestFamily.samples formatFloat snapshot.data (sortedKeys KeyLess snapshot.data) ++
      directoryFamily.samples formatFloat snapshot.directory
        (sortedKeys DirectoryLess snapshot.directory) ++ poolSamples formatFloat stats) =
      some (reading formatFloat snapshot.directory
        (sortedKeys DirectoryLess snapshot.directory)) := by
    refine Family.read_samples (fun s mem => names_disjoint.2 s.name ?_) _
    rcases List.mem_append.mp mem with mem | mem
    · exact List.mem_append_left _ (Family.name_samples mem)
    · exact List.mem_append_right _ (name_poolSamples mem)
  rw [List.nil_append, ← List.append_assoc] at requests
  rw [decodePage, parsed]
  simp only [Option.bind_eq_bind, Option.bind_some, requests, lookups]
  rfl

end Page

/-! ## Iteration order -/

theorem bytes_orders : Orders id fun a b : Bytes => a < b where
  irrefl := fun a => List.lt_irrefl a
  trans := fun ab bc => List.lt_trans ab bc
  total := fun hab hba => List.le_antisymm (List.not_lt.mp hba) (List.not_lt.mp hab)

theorem keyLess_orders : Orders (fun k : Key => (k.method, k.route, k.status)) KeyLess :=
  firstBy_orders bytes_orders (firstBy_orders bytes_orders
    ⟨fun a => lt_irrefl a.status, fun ab bc => lt_trans ab bc,
      fun hab hba => le_antisymm (not_lt.mp hba) (not_lt.mp hab)⟩)

theorem directoryLess_orders :
    Orders (fun k : DirectoryKey => (k.outcome, k.stage)) DirectoryLess :=
  firstBy_orders bytes_orders
    ⟨fun a => bytes_orders.irrefl a.stage, bytes_orders.trans, bytes_orders.total⟩

theorem key_determined : Function.Injective fun k : Key => (k.method, k.route, k.status) := by
  rintro ⟨m, r, s⟩ ⟨m', r', s'⟩ same
  cases same
  rfl

theorem directoryKey_determined :
    Function.Injective fun k : DirectoryKey => (k.outcome, k.stage) := by
  rintro ⟨o, s⟩ ⟨o', s'⟩ same
  cases same
  rfl

/-- Two layouts of the same maps. -/
structure SameContent (a b : Registry) : Prop where
  data : ∀ label, a.data.lookup label = b.data.lookup label
  directory : ∀ label, a.directory.lookup label = b.directory.lookup label

theorem item_congr {κ : Type u} [DecidableEq κ] {m m' : FiniteMap κ Observation}
    (same : ∀ k, m.lookup k = m'.lookup k) : item m = item m' := by
  funext k
  rw [item, item, same k]

theorem sortedKeys_of_same {κ : Type u} [DecidableEq κ] {m m' : FiniteMap κ Observation}
    {α : Type} {trait : κ → α} {less : κ → κ → Prop} [DecidableRel less]
    (orders : Orders trait less) (determines : Function.Injective trait)
    (same : ∀ k, m.lookup k = m'.lookup k) : sortedKeys less m = sortedKeys less m' :=
  sortedKeys_eq_of_perm orders determines (entries_perm_of_lookup same)

variable {formatFloat}

/-- The text depends on what the maps hold and not on the order in which they are visited. -/
theorem page_of_same {snapshot snapshot' : Registry} (same : SameContent snapshot snapshot')
    (stats : Option Stats) :
    page formatFloat snapshot stats = page formatFloat snapshot' stats := by
  have keys := sortedKeys_of_same keyLess_orders key_determined same.data
  have keys' := sortedKeys_of_same directoryLess_orders directoryKey_determined same.directory
  simp only [page, requestText, lookupText, keys, keys', item_congr same.data,
    item_congr same.directory]

theorem snapshot_same (registry : Registry) : SameContent registry registry.snapshot :=
  ⟨fun label => (lookup_copy registry.data label).symm,
    fun label => (lookup_copy registry.directory label).symm⟩

/-- The page is the same for every iteration order and decodes back to the registry: each key
once, with its count and its buckets. -/
theorem page_decodes (printable : ∀ x, IsValue (formatFloat x)) (registry : Registry)
    (pool : Option (Option Stats)) :
    (∀ snapshot, SameContent registry snapshot →
      page formatFloat snapshot pool.join = handler formatFloat registry pool) ∧
    (∃ labels directoryLabels,
      decodePage (handler formatFloat registry pool) =
        some (reading formatFloat registry.data labels,
          reading formatFloat registry.directory directoryLabels) ∧
      labels.Nodup ∧ (∀ label, label ∈ labels ↔ registry.data.lookup label ≠ none) ∧
      directoryLabels.Nodup ∧
      ∀ label, label ∈ directoryLabels ↔ registry.directory.lookup label ≠ none) ∧
    Function.Injective quote := by
  have text : ∀ snapshot, SameContent registry snapshot →
      page formatFloat snapshot pool.join = handler formatFloat registry pool := by
    intro snapshot same
    have copied := snapshot_same registry
    exact page_of_same ⟨fun label => (same.data label).symm.trans (copied.data label),
      fun label => (same.directory label).symm.trans (copied.directory label)⟩ _
  refine ⟨text, ⟨sortedKeys KeyLess registry.data, sortedKeys DirectoryLess registry.directory,
    ?_, sortedKeys_nodup _, fun _ => mem_sortedKeys, sortedKeys_nodup _, fun _ => mem_sortedKeys⟩,
    quote_injective⟩
  rw [← text registry ⟨fun _ => rfl, fun _ => rfl⟩]
  exact decodePage_page printable registry pool.join

/-- Sums as they are printed when they are whole numbers. -/
def wholeFloat (x : Rat) : Bytes := decimal x.num

/-- A route with a quote, a backslash, a line feed, a brace and a comma, beside one lookup. -/
def sampleRegistry : Registry where
  data := AList.insert ⟨ascii "GET", ascii "a\"b\\c\nd\x7d,e", 200⟩
    ⟨2, 3, ![0, 0, 0, 0, 0, 0, 0, 1, 2, 2, 2]⟩ ∅
  directory := AList.insert ⟨ascii "success", ascii "result"⟩
    ⟨1, 1, ![0, 0, 0, 0, 0, 0, 0, 1, 1, 1, 1]⟩ ∅

theorem page_decodes_sample : (∀ x, IsValue (wholeFloat x)) ∧
    ∃ labels directoryLabels,
      decodePage (handler wholeFloat sampleRegistry none) =
        some (reading wholeFloat sampleRegistry.data labels,
          reading wholeFloat sampleRegistry.directory directoryLabels) ∧
      labels.Nodup ∧ (∀ label, label ∈ labels ↔ sampleRegistry.data.lookup label ≠ none) ∧
      directoryLabels.Nodup ∧
      ∀ label, label ∈ directoryLabels ↔ sampleRegistry.directory.lookup label ≠ none :=
  ⟨fun x => isValue_decimal x.num,
    (page_decodes (fun x => isValue_decimal x.num) sampleRegistry none).2.1⟩

end MetricsDecoding
