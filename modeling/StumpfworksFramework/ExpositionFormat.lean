import Mathlib.Data.List.ReduceOption
import Mathlib.Data.List.TakeWhile
import StumpfworksFramework.ByteStrings

/-!
# The text format for metrics

A text is a sequence of lines. A line is a comment or a sample: a name, labels
with quoted values, and a value. Within quotes a backslash starts an escape, of
which there are three, for the backslash, the line feed and the quote. The parser
here follows the grammar and not a writer: it takes any order and number of
labels, a trailing comma, empty lines, and a timestamp after the value. Blanks
between other tokens are not taken. Written samples are read back exactly.
-/

namespace ExpositionFormat

open ByteStrings

/-- Letters, digits, the underscore and the colon. -/
def isNameByte (b : UInt8) : Bool :=
  (97 ≤ b ∧ b ≤ 122) ∨ (65 ≤ b ∧ b ≤ 90) ∨ (48 ≤ b ∧ b ≤ 57) ∨ b = 95 ∨ b = 58

structure Sample where
  name : Bytes
  labels : List (Bytes × Bytes)
  value : Bytes
  deriving DecidableEq, Repr

/-! ## Reading -/

/-- The byte that a backslash and this byte stand for. -/
def unescape (b : UInt8) : Option UInt8 :=
  if b = 92 then some 92 else if b = 110 then some 10 else if b = 34 then some 34 else none

/-- The value up to the closing quote, and what follows. -/
def readQuoted : Bytes → Option (Bytes × Bytes)
  | [] => none
  | b :: rest =>
    if b = 34 then some ([], rest)
    else if b = 92 then
      match rest with
      | [] => none
      | e :: rest =>
        match unescape e with
        | none => none
        | some c => (readQuoted rest).map fun r => (c :: r.1, r.2)
    else (readQuoted rest).map fun r => (b :: r.1, r.2)

/-- One label up to its closing quote, and what follows. -/
def readLabel (text : Bytes) : Option ((Bytes × Bytes) × Bytes) :=
  match text.takeWhile isNameByte, text.dropWhile isNameByte with
  | name, equals :: quote :: rest =>
    if name ≠ [] ∧ equals = 61 ∧ quote = 34 then
      (readQuoted rest).map fun r => ((name, r.1), r.2)
    else none
  | _, _ => none

/-- The labels up to the closing brace, and what follows. Every label takes fuel. -/
def readLabels : Nat → Bytes → Option (List (Bytes × Bytes) × Bytes)
  | 0, _ => none
  | fuel + 1, text =>
    if text.head? = some 125 then some ([], text.tail)
    else
      match readLabel text with
      | none => none
      | some (_, []) => none
      | some (label, b :: rest) =>
        if b = 44 then (readLabels fuel rest).map fun r => (label :: r.1, r.2)
        else if b = 125 then some ([label], rest)
        else none

/-- A blank and a value up to the next blank. -/
def readValue : Bytes → Option Bytes
  | [] => none
  | b :: rest =>
    let value := rest.takeWhile (· ≠ 32)
    if b = 32 ∧ value ≠ [] then some value else none

def readSample (line : Bytes) : Option Sample :=
  match line.takeWhile isNameByte, line.dropWhile isNameByte with
  | [], _ => none
  | name, rest =>
    if rest.head? = some 123 then
      match readLabels line.length rest.tail with
      | none => none
      | some (labels, rest) => (readValue rest).map fun value => ⟨name, labels, value⟩
    else (readValue rest).map fun value => ⟨name, [], value⟩

/-- A line has no sample if it is empty or a comment. -/
def readLine (line : Bytes) : Option (Option Sample) :=
  if line = [] ∨ line.head? = some 35 then some none else (readSample line).map some

/-- All samples of a text, or none if a line is not well formed. -/
def parse (text : Bytes) : Option (List Sample) :=
  ((text.splitOn 10).mapM readLine).map List.reduceOption

/-! ## Writing -/

def escape (b : UInt8) : Bytes :=
  if b = 92 then [92, 92] else if b = 10 then [92, 110] else if b = 34 then [92, 34] else [b]

def quoted (value : Bytes) : Bytes := 34 :: (value.flatMap escape ++ [34])

def labelText (label : Bytes × Bytes) : Bytes := label.1 ++ 61 :: quoted label.2

def labelList : List (Bytes × Bytes) → Bytes
  | [] => []
  | [label] => labelText label
  | label :: rest => labelText label ++ 44 :: labelList rest

def labelSet (labels : List (Bytes × Bytes)) : Bytes :=
  if labels = [] then [] else 123 :: (labelList labels ++ [125])

def Sample.text (s : Sample) : Bytes := s.name ++ (labelSet s.labels ++ 32 :: s.value)

inductive Line where
  | comment (text : Bytes)
  | sample (s : Sample)
  deriving DecidableEq, Repr

def Line.text : Line → Bytes
  | .comment text => 35 :: text
  | .sample s => s.text

def Line.sample? : Line → Option Sample
  | .comment _ => none
  | .sample s => some s

def exposition (lines : List Line) : Bytes := lines.flatMap fun line => line.text ++ [10]

def IsName (name : Bytes) : Prop := name ≠ [] ∧ ∀ b ∈ name, isNameByte b = true

def IsValue (value : Bytes) : Prop := value ≠ [] ∧ ∀ b ∈ value, b ≠ 10 ∧ b ≠ 32

instance (name : Bytes) : Decidable (IsName name) := inferInstanceAs (Decidable (_ ∧ _))

structure Sample.WellFormed (s : Sample) : Prop where
  name : IsName s.name
  labels : ∀ label ∈ s.labels, IsName label.1
  value : IsValue s.value

def Line.WellFormed : Line → Prop
  | .comment text => 10 ∉ text
  | .sample s => s.WellFormed

/-! ## Reading item by item -/

section Items

universe u v w
variable {α : Type u} {β : Type v} {γ : Type w}

theorem mapM_map_some {write : α → β} {read : β → Option γ} {result : α → γ} {items : List α}
    (each : ∀ x ∈ items, read (write x) = some (result x)) :
    (items.map write).mapM read = some (items.map result) := by
  induction items with
  | nil => rfl
  | cons x rest ih =>
    rw [List.map_cons, List.mapM_cons, each x List.mem_cons_self,
      ih fun y mem => each y (List.mem_cons_of_mem _ mem)]
    rfl

theorem mapM_flatMap_some {write : α → List β} {read : β → Option γ} {result : α → List γ}
    {items : List α} (each : ∀ x ∈ items, (write x).mapM read = some (result x)) :
    (items.flatMap write).mapM read = some (items.flatMap result) := by
  induction items with
  | nil => rfl
  | cons x rest ih =>
    rw [List.flatMap_cons, List.mapM_append, each x List.mem_cons_self,
      ih fun y mem => each y (List.mem_cons_of_mem _ mem)]
    rfl

end Items

/-! ## Quoted values -/

theorem readQuoted_escape (b : UInt8) (rest : Bytes) :
    readQuoted (escape b ++ rest) = (readQuoted rest).map fun r => (b :: r.1, r.2) := by
  unfold escape
  split
  · subst_vars
    simp [readQuoted, unescape]
  · split
    · subst_vars
      simp [readQuoted, unescape]
    · split
      · subst_vars
        simp [readQuoted, unescape]
      · rw [List.singleton_append, readQuoted.eq_def]
        simp only [*, if_false]

theorem readQuoted_escaped (value rest : Bytes) :
    readQuoted (value.flatMap escape ++ 34 :: rest) = some (value, rest) := by
  induction value with
  | nil =>
    rw [List.flatMap_nil, List.nil_append, readQuoted.eq_def]
    rfl
  | cons b value ih =>
    rw [List.flatMap_cons, List.append_assoc, readQuoted_escape, ih]
    rfl

theorem quoted_injective : Function.Injective quoted := by
  intro value value' same
  have inner := (List.cons.inj same).2
  have read := readQuoted_escaped value []
  rw [inner, readQuoted_escaped] at read
  exact (Prod.mk.inj (Option.some.inj read)).1.symm

/-- No line feed is left in a quoted value. -/
theorem lineFeed_notMem_quoted (value : Bytes) : (10 : UInt8) ∉ quoted value := by
  have each : ∀ b, (10 : UInt8) ∉ escape b := by
    intro b
    unfold escape
    split
    · decide
    · split
      · decide
      · split
        · decide
        · simpa [eq_comm] using ‹¬ b = 10›
  intro mem
  rcases List.mem_cons.mp mem with quote | mem
  · exact absurd quote (by decide)
  · rcases List.mem_append.mp mem with mem | quote
    · obtain ⟨b, _, inside⟩ := List.mem_flatMap.mp mem
      exact each b inside
    · exact absurd (List.mem_singleton.mp quote) (by decide)

/-! ## Names -/

theorem span_name {name : Bytes} (isName : IsName name) {b : UInt8} (ends : isNameByte b = false)
    (rest : Bytes) : (name ++ b :: rest).takeWhile isNameByte = name ∧
      (name ++ b :: rest).dropWhile isNameByte = b :: rest := by
  rw [List.takeWhile_append_of_pos isName.2, List.dropWhile_append_of_pos isName.2,
    List.takeWhile_cons, List.dropWhile_cons, ends]
  exact ⟨List.append_nil name, rfl⟩

theorem lineFeed_notMem_name {name : Bytes} (isName : IsName name) : (10 : UInt8) ∉ name :=
  fun mem => absurd (isName.2 10 mem) (by decide)

theorem head_name {name : Bytes} (isName : IsName name) :
    ∃ b rest, name = b :: rest ∧ isNameByte b = true := by
  obtain ⟨b, rest, rfl⟩ := List.exists_cons_of_ne_nil isName.1
  exact ⟨b, rest, rfl, isName.2 b List.mem_cons_self⟩

/-! ## Labels -/

theorem readLabel_labelText {label : Bytes × Bytes} (isName : IsName label.1) (rest : Bytes) :
    readLabel (labelText label ++ rest) = some (label, rest) := by
  have shape : labelText label ++ rest =
      label.1 ++ 61 :: 34 :: (label.2.flatMap escape ++ 34 :: rest) := by
    simp [labelText, quoted]
  have span := span_name isName (b := 61) (by decide)
    (34 :: (label.2.flatMap escape ++ 34 :: rest))
  rw [shape, readLabel, span.1, span.2]
  simp only [ne_eq, isName.1, not_false_eq_true, and_self, if_true, readQuoted_escaped,
    Option.map_some]

theorem labelText_head {label : Bytes × Bytes} (isName : IsName label.1) (rest : Bytes) :
    (labelText label ++ rest).head? ≠ some 125 := by
  obtain ⟨b, name, text, first⟩ := head_name isName
  rw [labelText, text]
  intro brace
  cases brace
  exact absurd first (by decide)

theorem readLabels_labelList {labels : List (Bytes × Bytes)} (nonempty : labels ≠ [])
    (names : ∀ label ∈ labels, IsName label.1) {fuel : Nat} (enough : labels.length ≤ fuel)
    (rest : Bytes) :
    readLabels fuel (labelList labels ++ 125 :: rest) = some (labels, rest) := by
  induction labels generalizing fuel with
  | nil => exact absurd rfl nonempty
  | cons label others ih =>
    obtain ⟨fuel, rfl⟩ := Nat.exists_eq_succ_of_ne_zero (Nat.ne_of_gt (Nat.lt_of_lt_of_le
      (Nat.succ_pos _) enough))
    have isName := names label List.mem_cons_self
    cases others with
    | nil =>
      rw [labelList, readLabels, if_neg (labelText_head isName _), readLabel_labelText isName]
      simp
    | cons next others =>
      have tail := ih (List.cons_ne_nil _ _)
        (fun l mem => names l (List.mem_cons_of_mem _ mem)) (Nat.le_of_succ_le_succ enough)
      have shape : labelList (label :: next :: others) ++ 125 :: rest =
          labelText label ++ 44 :: (labelList (next :: others) ++ 125 :: rest) := by
        simp [labelList]
      rw [shape, readLabels, if_neg (labelText_head isName _), readLabel_labelText isName]
      simp only [if_true, tail, Option.map_some]

theorem length_le_labelList (labels : List (Bytes × Bytes)) :
    labels.length ≤ (labelList labels).length := by
  induction labels with
  | nil => exact Nat.le_refl _
  | cons label others ih =>
    cases others with
    | nil =>
      simp only [labelList, labelText, List.length_append, List.length_cons, List.length_nil]
      omega
    | cons next others =>
      simp only [labelList, labelText, List.length_append, List.length_cons] at ih ⊢
      omega

theorem lineFeed_notMem_labelText {label : Bytes × Bytes} (isName : IsName label.1) :
    (10 : UInt8) ∉ labelText label := by
  simp only [labelText, List.mem_append, List.mem_cons, not_or]
  exact ⟨lineFeed_notMem_name isName, by decide, lineFeed_notMem_quoted _⟩

theorem lineFeed_notMem_labelList {labels : List (Bytes × Bytes)}
    (names : ∀ label ∈ labels, IsName label.1) : (10 : UInt8) ∉ labelList labels := by
  induction labels with
  | nil => exact List.not_mem_nil
  | cons label others ih =>
    have first := lineFeed_notMem_labelText (names label List.mem_cons_self)
    have tail := ih fun l mem => names l (List.mem_cons_of_mem _ mem)
    cases others with
    | nil => exact first
    | cons next others =>
      simp only [labelList, List.mem_append, List.mem_cons, not_or]
      exact ⟨first, by decide, tail⟩

theorem lineFeed_notMem_labelSet {labels : List (Bytes × Bytes)}
    (names : ∀ label ∈ labels, IsName label.1) : (10 : UInt8) ∉ labelSet labels := by
  unfold labelSet
  split
  · exact List.not_mem_nil
  · simp only [List.mem_append, List.mem_cons, List.not_mem_nil, or_false, not_or]
    exact ⟨by decide, lineFeed_notMem_labelList names, by decide⟩

/-! ## Samples and lines -/

theorem readValue_value {value : Bytes} (isValue : IsValue value) :
    readValue (32 :: value) = some value := by
  have all : value.takeWhile (· ≠ 32) = value :=

    List.takeWhile_eq_self_iff.mpr fun b mem => by simpa using (isValue.2 b mem).2
  simp only [readValue, all, ne_eq, isValue.1, not_false_eq_true, and_self, if_true]

theorem readSample_text {s : Sample} (wellFormed : s.WellFormed) : readSample s.text = some s := by
  obtain ⟨first, name, shape, _⟩ := head_name wellFormed.name
  by_cases bare : s.labels = []
  · have text : s.text = s.name ++ 32 :: s.value := by simp [Sample.text, labelSet, bare]
    have span := span_name wellFormed.name (b := 32) (by decide) s.value
    rw [text, readSample, span.1, span.2]
    simp only [shape, readValue_value wellFormed.value]
    rw [if_neg (by simp), Option.map_some, ← shape, ← bare]
  · have text : s.text = s.name ++ 123 :: (labelList s.labels ++ 125 :: 32 :: s.value) := by
      simp [Sample.text, labelSet, bare]
    have span := span_name wellFormed.name (b := 123) (by decide)
      (labelList s.labels ++ 125 :: 32 :: s.value)
    have enough : s.labels.length ≤ s.text.length := by
      have listed := length_le_labelList s.labels
      rw [text]
      simp only [List.length_append, List.length_cons]
      omega
    have labels := readLabels_labelList bare wellFormed.labels enough (32 :: s.value)
    rw [readSample, text, span.1, span.2, ← text]
    simp only [shape, List.head?_cons, if_true, List.tail_cons, labels,
      readValue_value wellFormed.value, Option.map_some]
    rw [← shape]

theorem readLine_text {line : Line} (wellFormed : line.WellFormed) :
    readLine line.text = some line.sample? := by
  cases line with
  | comment text => rfl
  | sample s =>
    obtain ⟨b, rest, shape, first⟩ := head_name wellFormed.name
    have plain : ¬ (s.text = [] ∨ s.text.head? = some 35) := by
      rw [Sample.text, shape]
      rintro (empty | hash)
      · cases empty
      · cases hash
        exact absurd first (by decide)
    rw [Line.text, readLine, if_neg plain, readSample_text wellFormed]
    rfl

theorem lineFeed_notMem_text {line : Line} (wellFormed : line.WellFormed) :
    (10 : UInt8) ∉ line.text := by
  cases line with
  | comment text =>
    intro mem
    rcases List.mem_cons.mp mem with hash | mem
    · exact absurd hash (by decide)
    · exact wellFormed mem
  | sample s =>
    simp only [Line.text, Sample.text, List.mem_append, List.mem_cons, not_or]
    exact ⟨lineFeed_notMem_name wellFormed.name, lineFeed_notMem_labelSet wellFormed.labels,
      by decide, fun mem => (wellFormed.value.2 10 mem).1 rfl⟩

/-! ## Texts -/

theorem exposition_eq_intercalate (lines : List Line) :
    exposition lines = [10].intercalate (lines.map Line.text ++ [[]]) := by
  induction lines with
  | nil => rfl
  | cons line rest ih =>
    rw [exposition, List.flatMap_cons, ← exposition, ih]
    cases rest <;> simp [List.intercalate]

/-- Exactly the samples of well-formed lines are read back. -/
theorem parse_exposition {lines : List Line} (wellFormed : ∀ line ∈ lines, line.WellFormed) :
    parse (exposition lines) = some (lines.filterMap Line.sample?) := by
  have split : (exposition lines).splitOn 10 = lines.map Line.text ++ [[]] := by
    rw [exposition_eq_intercalate]
    refine List.splitOn_intercalate 10 ?_ (by simp)
    intro l mem
    rcases List.mem_append.mp mem with mem | last
    · obtain ⟨line, listed, rfl⟩ := List.mem_map.mp mem
      exact lineFeed_notMem_text (wellFormed line listed)
    · rw [List.mem_singleton.mp last]
      exact List.not_mem_nil
  have read : (lines.map Line.text).mapM readLine = some (lines.map Line.sample?) :=
    mapM_map_some fun line mem => readLine_text (wellFormed line mem)
  have last : [([] : Bytes)].mapM readLine = some [none] := rfl
  rw [parse, split, List.mapM_append, read, last]
  simp [List.reduceOption, List.filterMap_map]

end ExpositionFormat
