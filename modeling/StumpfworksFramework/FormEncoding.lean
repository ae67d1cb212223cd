import StumpfworksFramework.HexText

/-!
# Names and values in a query

The form `application/x-www-form-urlencoded`, as a query or as a body. Octets
other than letters, digits and four marks are escaped in names and values, a
space by a plus sign. A reader takes the text apart at the ampersands, skips
what it cannot decode, and so gets back every list of pairs that was written.
-/

namespace FormEncoding

open ByteStrings UrlReferences HexText

/-! ## Components -/

/-- Octets that stand for themselves. -/
def isUnreserved (b : UInt8) : Bool :=
  isLetter b || (48 ≤ b && b ≤ 57) || b = 45 || b = 46 || b = 95 || b = 126

/-- An octet in front of further text. -/
def escapeOctet (b : UInt8) (rest : Bytes) : Bytes :=
  if isUnreserved b then b :: rest
  else if b = 32 then 43 :: rest
  else 37 :: upperOctet b rest

def escape (text : Bytes) : Bytes := text.foldr escapeOctet []

/-- Plus signs are spaces before the escapes are read. -/
def spaced (text : Bytes) : Bytes := text.map fun b => if b = 43 then 32 else b

def unescapeComponent (text : Bytes) : Option Bytes := unescape (spaced text)

theorem unhex_upperOctet (b : UInt8) :
    unhex (upperDigit (b >>> 4)) * 16 + unhex (upperDigit (b &&& 15)) = b := by
  revert b
  exact forall_octet (by decide +kernel)

theorem isHex_upperOctet (b : UInt8) :
    isHex (upperDigit (b >>> 4)) = true ∧ isHex (upperDigit (b &&& 15)) = true := by
  revert b
  exact forall_octet (by decide +kernel)

theorem upperOctet_unreserved (b : UInt8) :
    isUnreserved (upperDigit (b >>> 4)) = true ∧ isUnreserved (upperDigit (b &&& 15)) = true := by
  revert b
  exact forall_octet (by decide +kernel)

theorem unreserved_plain {b : UInt8} (unreserved : isUnreserved b = true) : b ≠ 43 ∧ b ≠ 37 := by
  constructor
  · rintro rfl
    cases unreserved
  · rintro rfl
    cases unreserved

theorem unescape_octet {high low : UInt8} (hex : isHex high = true ∧ isHex low = true)
    (rest : Bytes) :
    unescape (37 :: high :: low :: rest) =
      (unescape rest).map ((unhex high * 16 + unhex low) :: ·) := by
  rw [unescape.eq_def]
  simp [hex.1, hex.2]

theorem spaced_cons {b : UInt8} (plain : b ≠ 43) (rest : Bytes) :
    spaced (b :: rest) = b :: spaced rest := by
  simp [spaced, plain]

theorem unescapeComponent_escapeOctet (b : UInt8) (rest : Bytes) :
    unescapeComponent (escapeOctet b rest) = (unescapeComponent rest).map (b :: ·) := by
  unfold escapeOctet unescapeComponent
  split
  · rename_i unreserved
    obtain ⟨plus, percent⟩ := unreserved_plain unreserved
    rw [spaced_cons plus, unescape_cons_ne percent]
  · split
    · rename_i space
      subst space
      rw [show spaced (43 :: rest) = 32 :: spaced rest from rfl, unescape_cons_ne (by decide)]
    · obtain ⟨high, low⟩ := upperOctet_unreserved b
      rw [upperOctet, spaced_cons (by decide), spaced_cons (unreserved_plain high).1,
        spaced_cons (unreserved_plain low).1, unescape_octet (isHex_upperOctet b), unhex_upperOctet]

/-- What was escaped is read back. -/
theorem unescapeComponent_escape (text : Bytes) : unescapeComponent (escape text) = some text := by
  induction text with
  | nil => rfl
  | cons b rest ih =>
    rw [show escape (b :: rest) = escapeOctet b (escape rest) from rfl,
      unescapeComponent_escapeOctet, ih]
    rfl

theorem notMem_spaced (text : Bytes) : 43 ∉ spaced text := by
  intro mem
  obtain ⟨b, _, same⟩ := List.mem_map.mp mem
  split at same
  · cases same
  · exact absurd same ‹_›

theorem spaced_of_notMem {text : Bytes} (plain : 43 ∉ text) : spaced text = text := by
  have each : ∀ b ∈ text, (if b = 43 then 32 else b) = b := by
    intro b mem
    have other : b ≠ 43 := fun same => plain (same ▸ mem)
    exact if_neg other
  rw [spaced, List.map_congr_left each, List.map_id']

theorem length_unescapeComponent {text decoded : Bytes}
    (ok : unescapeComponent text = some decoded) : decoded.length ≤ text.length := by
  have shorter := (length_unescape ok).1
  rwa [spaced, List.length_map] at shorter

/-- The texts that a reader leaves as they are. -/
theorem unescapeComponent_eq_self_iff {text : Bytes} :
    unescapeComponent text = some text ↔ 43 ∉ text ∧ 37 ∉ text := by
  constructor
  · intro same
    have length : (spaced text).length ≤ text.length := by rw [spaced, List.length_map]
    obtain ⟨whole, plain⟩ := unescape_of_length same length
    rw [← whole] at plain
    exact ⟨whole ▸ notMem_spaced text, plain⟩
  · rintro ⟨plus, percent⟩
    rw [unescapeComponent, spaced_of_notMem plus, unescape_plain percent]

/-- Escaped text is made of unreserved octets, plus signs and percent signs. -/
theorem mem_escape {text : Bytes} {b : UInt8} (mem : b ∈ escape text) :
    isUnreserved b = true ∨ b = 43 ∨ b = 37 := by
  induction text with
  | nil => cases mem
  | cons first rest ih =>
    rw [show escape (first :: rest) = escapeOctet first (escape rest) from rfl, escapeOctet] at mem
    split at mem
    · rcases List.mem_cons.mp mem with rfl | below
      · exact .inl ‹_›
      · exact ih below
    · split at mem
      · rcases List.mem_cons.mp mem with rfl | below
        · exact .inr (.inl rfl)
        · exact ih below
      · obtain ⟨high, low⟩ := upperOctet_unreserved first
        simp only [upperOctet, List.mem_cons] at mem
        rcases mem with rfl | rfl | rfl | below
        · exact .inr (.inr rfl)
        · exact .inl high
        · exact .inl low
        · exact ih below

theorem notMem_escape {b : UInt8} (reserved : isUnreserved b = false) (plus : b ≠ 43)
    (percent : b ≠ 37) (text : Bytes) : b ∉ escape text := by
  intro mem
  rcases mem_escape mem with unreserved | rfl | rfl
  · rw [reserved] at unreserved
    cases unreserved
  · exact plus rfl
  · exact percent rfl

/-! ## Pairs -/

def encodePair (pair : Bytes × Bytes) : Bytes := escape pair.1 ++ 61 :: escape pair.2

def encode (pairs : List (Bytes × Bytes)) : Bytes := [38].intercalate (pairs.map encodePair)

/-- A piece between ampersands. One without text, with a semicolon or with a broken escape
is skipped. -/
def parsePair (piece : Bytes) : Option (Bytes × Bytes) :=
  if piece = [] ∨ 59 ∈ piece then none
  else
    match unescapeComponent (cut 61 piece).1, unescapeComponent ((cut 61 piece).2.getD []) with
    | some name, some value => some (name, value)
    | _, _ => none

def parse (text : Bytes) : List (Bytes × Bytes) := (text.splitOn 38).filterMap parsePair

theorem parsePair_encodePair (pair : Bytes × Bytes) : parsePair (encodePair pair) = some pair := by
  have equals := notMem_escape (b := 61) rfl (by decide) (by decide) pair.1
  have semicolon : 59 ∉ encodePair pair := by
    simp only [encodePair, List.mem_append, List.mem_cons, not_or]
    exact ⟨notMem_escape rfl (by decide) (by decide) _, by decide,
      notMem_escape rfl (by decide) (by decide) _⟩
  have text : encodePair pair ≠ [] := by simp [encodePair]
  rw [parsePair, if_neg (by simp [semicolon, text]), encodePair, cut_append equals]
  simp only [Option.getD_some, unescapeComponent_escape]

theorem splitOn_encode {pairs : List (Bytes × Bytes)} (some : pairs ≠ []) :
    (encode pairs).splitOn 38 = pairs.map encodePair := by
  have separated : ∀ piece ∈ pairs.map encodePair, 38 ∉ piece := by
    intro piece mem
    obtain ⟨pair, _, rfl⟩ := List.mem_map.mp mem
    simp only [encodePair, List.mem_append, List.mem_cons, not_or]
    exact ⟨notMem_escape rfl (by decide) (by decide) _, by decide,
      notMem_escape rfl (by decide) (by decide) _⟩
  rw [encode, List.splitOn_intercalate _ separated (by simpa using some)]

/-- Every list of pairs is read back as it was written. -/
theorem parse_encode (pairs : List (Bytes × Bytes)) : parse (encode pairs) = pairs := by
  cases pairs with
  | nil => rfl
  | cons first rest =>
    rw [parse, splitOn_encode (List.cons_ne_nil first rest), List.filterMap_map]
    have each : parsePair ∘ encodePair = some := funext parsePair_encodePair
    rw [each, List.filterMap_some]

/-- The values under a name, in order. -/
def valuesOf (pairs : List (Bytes × Bytes)) (name : Bytes) : List Bytes :=
  (pairs.filter fun pair => pair.1 = name).map Prod.snd

theorem valuesOf_append (first second : List (Bytes × Bytes)) (name : Bytes) :
    valuesOf (first ++ second) name = valuesOf first name ++ valuesOf second name := by
  simp [valuesOf]

/-- The values under each of the names, as pairs. -/
def pairsOf (names : List Bytes) (values : Bytes → List Bytes) : List (Bytes × Bytes) :=
  names.flatMap fun name => (values name).map fun value => (name, value)

theorem valuesOf_map (name asked : Bytes) (values : List Bytes) :
    valuesOf (values.map fun value => (name, value)) asked =
      if name = asked then values else [] := by
  by_cases same : name = asked
  · simp [valuesOf, same, List.filter_map, Function.comp_def]
  · simp [valuesOf, same, List.filter_map, Function.comp_def]

theorem valuesOf_pairsOf_notMem {names : List Bytes} {values : Bytes → List Bytes} {asked : Bytes}
    (missing : asked ∉ names) : valuesOf (pairsOf names values) asked = [] := by
  induction names with
  | nil => rfl
  | cons name rest ih =>
    rw [List.mem_cons, not_or] at missing
    rw [pairsOf, List.flatMap_cons, valuesOf_append, valuesOf_map, if_neg (Ne.symm missing.1)]
    exact ih missing.2

/-- Values under finitely many names are those of their pairs. -/
theorem valuesOf_pairsOf {names : List Bytes} {values : Bytes → List Bytes} (distinct : names.Nodup)
    (rest : ∀ name ∉ names, values name = []) : valuesOf (pairsOf names values) = values := by
  funext asked
  by_cases mem : asked ∈ names
  · clear rest
    induction names with
    | nil => cases mem
    | cons name rest ih =>
      obtain ⟨new, distinct⟩ := List.nodup_cons.mp distinct
      rw [pairsOf, List.flatMap_cons, valuesOf_append, valuesOf_map]
      by_cases here : name = asked
      · subst here
        rw [if_pos rfl, ← pairsOf, valuesOf_pairsOf_notMem new, List.append_nil]
      · have below := (List.mem_cons.mp mem).resolve_left (Ne.symm here)
        rw [if_neg here, List.nil_append]
        exact ih distinct below
  · rw [valuesOf_pairsOf_notMem mem, rest asked mem]

end FormEncoding
