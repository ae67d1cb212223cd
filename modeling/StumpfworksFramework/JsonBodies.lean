import StumpfworksFramework.JsonReading

/-!
# Decoding a request body

`DecodeJSON` with the parts of the standard library it is made of: the reader that
limits the body, the decoder's search for a value, and what decoding into an empty
struct reports. The destination's own decoding and the parsing of media types are
parameters.
-/

namespace JsonBodies

open ByteStrings JsonScanner

/-! ## The code -/

/-- Errors of the decoder, as far as `decodeError` tells them apart. -/
inductive Failure where
  | maxBytes
  | syntaxError
  | unexpectedEOF
  | eof
  | unmarshalType
  | other
  deriving DecidableEq, Repr

/-- A coded error with its public message and its cause. -/
structure Error where
  code : String
  message : String
  cause : Option Failure
  deriving DecidableEq, Repr

def decodeError : Failure → Error
  | .maxBytes => ⟨"request_too_large", "Request body is too large", some .maxBytes⟩
  | .syntaxError =>
    ⟨"malformed_json", "Request body contains malformed JSON", some .syntaxError⟩
  | .unexpectedEOF =>
    ⟨"malformed_json", "Request body contains malformed JSON", some .unexpectedEOF⟩
  | .eof => ⟨"empty_body", "Request body must not be empty", some .eof⟩
  | .unmarshalType =>
    ⟨"invalid_json_type", "Request body contains an invalid value type", some .unmarshalType⟩
  | .other => ⟨"invalid_json", "Request body is invalid", some .other⟩

/-- A body: its bytes, and the error that reading ends with. -/
structure Body where
  bytes : Bytes
  ending : Failure
  deriving DecidableEq, Repr

/-- `http.MaxBytesReader`. -/
def maxBytesReader (body : Body) (limit : Nat) : Body :=
  if body.bytes.length ≤ limit then body else ⟨body.bytes.take limit, .maxBytes⟩

def maxNestingDepth : Nat := 10000

/-- `Decoder.readValue`: a value's text and the body after it. A value that only the end of
the body completes is one if white space would end it. -/
def readValue (body : Body) : Except Failure (Bytes × Body) :=
  match scan maxNestingDepth .beginValue [] [] body.bytes with
  | .value text rest => .ok (text, ⟨rest, body.ending⟩)
  | .syntaxError => .error .syntaxError
  | .more mode stack =>
    if body.ending ≠ .eof then .error body.ending
    else if step maxNestingDepth mode stack 32 = .ended then .ok (body.bytes, ⟨[], body.ending⟩)
    else if ∃ b ∈ body.bytes, isSpace b = false then .error .unexpectedEOF
    else .error .eof

/-- `Decoder.Decode` for a destination: what decoding the text of a value reports. -/
def decode (unmarshal : Bytes → Option Failure) (body : Body) : Option Failure × Body :=
  match readValue body with
  | .error e => (some e, body)
  | .ok (text, rest) => (unmarshal text, rest)

/-- Decoding the text of a value into an empty struct with `DisallowUnknownFields`: `null` and
an object without members are accepted, a member is an unknown field. -/
def unmarshalEmpty (text : Bytes) : Option Failure :=
  match text.dropWhile isSpace with
  | 110 :: _ => none
  | 123 :: rest =>
    match rest.dropWhile isSpace with
    | 125 :: _ => none
    | _ => some .other
  | _ => some .unmarshalType

/-- `DecodeJSON`; no error is `none`. -/
def decodeJSON (parseMediaType : Bytes → Option Bytes) (contentType : Bytes) (body : Body)
    (destination : Option (Bytes → Option Failure)) (maxBytes : Int) : Option Error :=
  match destination with
  | none =>
    some ⟨"invalid_decoder_target", "The server could not process the request", none⟩
  | some unmarshal =>
    if maxBytes ≤ 0 then
      some ⟨"invalid_body_limit", "The server could not process the request", none⟩
    else if parseMediaType contentType ≠ some (ascii "application/json") then
      some ⟨"unsupported_media_type", "Content-Type must be application/json",
        if parseMediaType contentType = none then some .other else none⟩
    else
      match decode unmarshal (maxBytesReader body maxBytes.toNat) with
      | (some err, _) => some (decodeError err)
      | (none, rest) =>
        match (decode unmarshalEmpty rest).1 with
        | some .eof => none
        | some err => some (decodeError err)
        | none => some ⟨"malformed_json", "Request body must contain exactly one JSON value", none⟩

/-! ## Decoding into an empty struct -/

section Empty

variable {kind : Kind} {depth : Nat} {text before : Bytes}

theorem dropWhile_blank {c : UInt8} {rest : Bytes} (blank : Blank before)
    (other : isSpace c = false) : (before ++ c :: rest).dropWhile isSpace = c :: rest := by
  rw [List.dropWhile_append_of_pos blank, List.dropWhile_cons_of_neg (by simp [other])]

/-- The members of an object start with a name. -/
theorem members_begin (ok : Text .members depth text) :
    ∃ space rest, Blank space ∧ text = space ++ 34 :: rest := by
  cases ok with
  | member member =>
    cases member with
    | pair first name last value => exact ⟨_, _, first, rfl⟩
  | members member more =>
    cases member with
    | pair first name last value => exact ⟨_, _, first, List.append_assoc _ _ _⟩

/-- What decoding a value of each kind into an empty struct reports. -/
def emptyReport : Kind → Option Failure
  | .null => none
  | .emptyObject => none
  | .object => some .other
  | .boolean => some .unmarshalType
  | .number => some .unmarshalType
  | .string => some .unmarshalType
  | .array => some .unmarshalType

theorem unmarshalEmpty_number (ok : Number text) (blank : Blank before) :
    unmarshalEmpty (before ++ text) = some .unmarshalType := by
  have all : ∀ c : UInt8, c = 45 ∨ isDigit c = true → isSpace c = false ∧ c ≠ 110 ∧ c ≠ 123 :=
    forall_octet (by decide +kernel)
  obtain ⟨c, rest, rfl, first⟩ := ok.begins
  obtain ⟨space, letter, brace⟩ := all c first
  unfold unmarshalEmpty
  rw [dropWhile_blank blank space]
  split
  · rename_i same
    exact absurd (List.cons.inj same).1 letter
  · rename_i same
    exact absurd (List.cons.inj same).1 brace
  · rfl

theorem unmarshalEmpty_eq (ok : Text (.value kind) depth text) (blank : Blank before) :
    unmarshalEmpty (before ++ text) = emptyReport kind := by
  have brace : isSpace 125 = false := by decide
  have quote : isSpace 34 = false := by decide
  cases ok with
  | number ok => exact unmarshalEmpty_number ok blank
  | emptyObject space =>
    unfold unmarshalEmpty
    rw [dropWhile_blank blank (by decide)]
    simp only [dropWhile_blank space brace]
    rfl
  | object members =>
    obtain ⟨space, rest, gap, rfl⟩ := members_begin members
    unfold unmarshalEmpty
    rw [dropWhile_blank blank (by decide), List.append_assoc, List.cons_append]
    simp only [dropWhile_blank gap quote]
    rfl
  | _ =>
    unfold unmarshalEmpty
    rw [dropWhile_blank blank (by decide)]
    rfl

end Empty

/-! ## A second value -/

/-- The code of the error for a second value of a kind and depth. -/
def secondCode (kind : Kind) (depth : Nat) : String :=
  if depth > maxNestingDepth then "malformed_json"
  else
    match emptyReport kind with
    | none => "malformed_json"
    | some failure => (decodeError failure).code

section Second

variable {kind kind' : Kind} {depth depth' : Nat} {text text' before gap rest : Bytes}

/-- A value that another byte follows is read up to that byte. -/
theorem readValue_followed (ok : Text (.value kind) depth text) (blank : Blank before)
    (room : depth ≤ maxNestingDepth) (ends : Ends kind rest) (some : rest ≠ [])
    (ending : Failure) :
    readValue ⟨before ++ (text ++ rest), ending⟩ = .ok (before ++ text, ⟨rest, ending⟩) := by
  rcases ok.scan blank room ends with found | ⟨none, -⟩
  · simp only [readValue, found]
  · exact absurd none some

/-- A value that the body may end with. -/
theorem readValue_last (ok : Text (.value kind) depth text) (blank : Blank before)
    (room : depth ≤ maxNestingDepth) (ends : Ends kind rest) :
    readValue ⟨before ++ (text ++ rest), .eof⟩ = .ok (before ++ text, ⟨rest, .eof⟩) := by
  rcases ok.scan blank room ends with found | ⟨rfl, mode, more, ended⟩
  · simp only [readValue, found]
  · rw [List.append_nil] at more ⊢
    simp [readValue, more, ended]

theorem readValue_deep (ok : Text (.value kind) depth text) (blank : Blank before)
    (deep : maxNestingDepth < depth) (ending : Failure) :
    readValue ⟨before ++ (text ++ rest), ending⟩ = .error .syntaxError := by
  simp only [readValue, ok.scan_deep blank deep rest]

/-- White space ends every value. -/
theorem ends_of_blank (blank : Blank gap) (some : gap ≠ []) (rest : Bytes) :
    Ends kind (gap ++ rest) := by
  obtain ⟨c, more, rfl⟩ := List.exists_cons_of_ne_nil some
  intro _ b first
  cases first
  exact continuesNumber_of_isSpace (blank c List.mem_cons_self)

/-- The decoding of what follows the first value. -/
theorem decode_second (ok : Text (.value kind) depth text) (blank : Blank gap)
    (ends : Ends kind rest) :
    (decode unmarshalEmpty ⟨gap ++ (text ++ rest), .eof⟩).1 =
      if depth > maxNestingDepth then some .syntaxError else emptyReport kind := by
  split
  · rename_i deep
    simp only [decode, readValue_deep ok blank deep]
  · rename_i room
    simp only [decode, readValue_last ok blank (Nat.not_lt.mp room) ends,
      unmarshalEmpty_eq ok blank]

theorem emptyReport_ne_eof (kind : Kind) : emptyReport kind ≠ some .eof := by
  cases kind <;> simp [emptyReport]

theorem secondCode_eq_malformed_iff (kind : Kind) (depth : Nat) :
    secondCode kind depth = "malformed_json" ↔
      kind = .null ∨ kind = .emptyObject ∨ depth > maxNestingDepth := by
  unfold secondCode
  split
  · rename_i deep
    simp [deep]
  · rename_i room
    cases kind <;> simp [emptyReport, decodeError, room]

/-- The error for a body with a second value depends on that value's kind and depth only. -/
theorem decodeJSON_second {parseMediaType : Bytes → Option Bytes} {contentType : Bytes}
    {unmarshal : Bytes → Option Failure} {maxBytes : Int}
    (json : parseMediaType contentType = some (ascii "application/json"))
    (blank : Blank before) (first : Text (.value kind) depth text)
    (decodes : depth ≤ maxNestingDepth ∧ unmarshal (before ++ text) = none)
    (space : Blank gap) (apart : gap ≠ []) (second : Text (.value kind') depth' text')
    (ends : Ends kind' rest)
    (within : (before ++ (text ++ (gap ++ (text' ++ rest)))).length ≤ maxBytes) :
    ∃ e, decodeJSON parseMediaType contentType
        ⟨before ++ (text ++ (gap ++ (text' ++ rest))), .eof⟩ (some unmarshal) maxBytes = some e ∧
      e.code = secondCode kind' depth' := by
  have positive : ¬ maxBytes ≤ 0 := by
    have long : 0 < gap.length := List.length_pos_iff.mpr apart
    simp only [List.length_append] at within
    omega
  have whole : (before ++ (text ++ (gap ++ (text' ++ rest)))).length ≤ maxBytes.toNat := by omega
  have more : gap ++ (text' ++ rest) ≠ [] := by simp [apart]
  have read := readValue_followed first blank decodes.1 (ends_of_blank space apart _) more .eof
  have head : decode unmarshal ⟨before ++ (text ++ (gap ++ (text' ++ rest))), .eof⟩ =
      (none, ⟨gap ++ (text' ++ rest), .eof⟩) := by
    simp only [decode, read, decodes.2]
  simp only [decodeJSON, if_neg positive, json, maxBytesReader, if_pos whole, head,
    decode_second second space ends, ne_eq, not_true_eq_false, if_false, secondCode]
  by_cases deep : depth' > maxNestingDepth
  · simp only [if_pos deep]
    exact ⟨_, rfl, rfl⟩
  · simp only [if_neg deep]
    cases report : emptyReport kind' with
    | none => exact ⟨_, rfl, rfl⟩
    | some failure =>
      have other := emptyReport_ne_eof kind'
      rw [report] at other
      cases failure with
      | eof => exact absurd rfl other
      | _ => exact ⟨_, rfl, rfl⟩

end Second

/-- For a body within the limit with a second value after one that decodes, the code is
`malformed_json` exactly if the second value is `null`, an object without members, or
nested too deeply for the decoder. -/
theorem second_value_malformed_iff (parseMediaType : Bytes → Option Bytes) (contentType : Bytes)
    (json : parseMediaType contentType = some (ascii "application/json"))
    (unmarshal : Bytes → Option Failure) (maxBytes : Int)
    (before text gap text' rest : Bytes) (kind kind' : Kind) (depth depth' : Nat)
    (blank : Blank before) (first : Text (.value kind) depth text)
    (decodes : depth ≤ maxNestingDepth ∧ unmarshal (before ++ text) = none)
    (space : Blank gap) (apart : gap ≠ []) (second : Text (.value kind') depth' text')
    (ends : Ends kind' rest)
    (within : (before ++ (text ++ (gap ++ (text' ++ rest)))).length ≤ maxBytes) :
    (∃ e, decodeJSON parseMediaType contentType
        ⟨before ++ (text ++ (gap ++ (text' ++ rest))), .eof⟩ (some unmarshal) maxBytes = some e ∧
      e.code = "malformed_json") ↔
      kind' = .null ∨ kind' = .emptyObject ∨ depth' > maxNestingDepth := by
  obtain ⟨e, failed, code⟩ :=
    decodeJSON_second json blank first decodes space apart second ends within
  rw [← secondCode_eq_malformed_iff, ← code, failed]
  refine ⟨?_, fun malformed => ⟨e, rfl, malformed⟩⟩
  rintro ⟨e', same, malformed⟩
  cases same
  exact malformed

/-- Media types without parameters. -/
def sampleMediaType (contentType : Bytes) : Option Bytes :=
  if contentType = ascii "application/json" then some contentType else none

/-- A struct of optional fields, as far as an empty object goes. -/
def sampleDestination (text : Bytes) : Option Failure :=
  if text = ascii "\x7b\x7d" then none else some .other

/-- An empty object, a blank and a second value. -/
def sampleBody (second : Bytes) : Body := ⟨ascii "\x7b\x7d " ++ second, .eof⟩

theorem blank_nil : Blank [] := fun _ mem => absurd mem List.not_mem_nil

theorem second_value_null :
    ∃ e, decodeJSON sampleMediaType (ascii "application/json") (sampleBody (ascii "null"))
      (some sampleDestination) 1024 = some e ∧ e.code = "malformed_json" := by
  have space : Blank [32] := by
    intro b mem
    rw [List.mem_singleton.mp mem]
    rfl
  exact (second_value_malformed_iff sampleMediaType (ascii "application/json") (by decide +kernel)
    sampleDestination 1024 [] [123, 125] [32] [110, 117, 108, 108] [] .emptyObject .null 1 0
    blank_nil (.emptyObject blank_nil) ⟨by decide, by decide +kernel⟩ space (by simp) .nullText
    (fun number => by cases number) (by decide)).mpr (.inl rfl)

theorem text_one : Text (.value .number) 0 [49] :=
  .number ⟨[], [49], [], [], rfl, .inl rfl, .inr ⟨49, [], rfl, by decide, by simp⟩, .inl rfl,
    .inl rfl⟩

/-- An object with a member and an array after an empty object: complete values with other
codes. A string, a number and a boolean have the array's code. -/
theorem second_value_other_codes :
    Text (.value .object) 1 (ascii "\x7b\"a\":1\x7d") ∧ Text (.value .array) 1 (ascii "[]") ∧
    ([ascii "\x7b\"a\":1\x7d", ascii "[]", ascii "\"x\"", ascii "1", ascii "true"].map fun second =>
      (decodeJSON sampleMediaType (ascii "application/json") (sampleBody second)
        (some sampleDestination) 1024).map Error.code) =
      [some "invalid_json", some "invalid_json_type", some "invalid_json_type",
        some "invalid_json_type", some "invalid_json_type"] := by
  refine ⟨?_, ?_, by decide +kernel⟩
  · have name : Chars [97] := .plain (by decide) (by decide) (by decide) .nil
    have value : Text .padded 0 [49] :=
      @Text.padded .number 0 [] [49] [] blank_nil text_one blank_nil
    have bytes : ascii "\x7b\"a\":1\x7d" = [123, 34, 97, 34, 58, 49, 125] := by decide +kernel
    rw [bytes]
    exact .object (.member (@Text.pair 0 [] [97] [] [49] blank_nil name blank_nil value))
  · have bytes : ascii "[]" = [91, 93] := by decide +kernel
    rw [bytes]
    exact .emptyArray blank_nil

end JsonBodies
