import Mathlib.Data.List.Sort
import StumpfworksFramework.Instants
import StumpfworksFramework.JsonTrees
import StumpfworksFramework.SensitiveKeys
import StumpfworksFramework.Utf8Runes

/-!
# Audit events and their metadata

`Event.Validate` encodes the metadata, decodes the text into a value and inspects
the value; the PostgreSQL store encodes the metadata again and inserts that text.
Metadata is any Go value that `encoding/json` knows, raw messages among them,
which are copied into the text after they have been compacted. JSON texts are
trees here (`JsonTrees`), so decoding a text that was just encoded needs no
parser. The limit of 10000 levels in `encoding/json` cannot be met within 16 KiB.
-/

namespace AuditMetadata

open ByteStrings Instants JsonTrees SensitiveKeys Utf8Runes

/-- What is taken from `encoding/json` and `strings`: how a string is written between quotes and
read back, the compacted form of a raw message if it is valid, and which scalars decode. -/
structure Codec where
  quote : Bytes → Bytes
  unquote : Bytes → Bytes
  compact : Bytes → Option Json
  decodable : Bytes → Bool
  toLower : Bytes → Bytes

/-! ## Metadata and its text -/

mutual

/-- A Go value: a scalar by its literal, a slice, a map, a raw message, or a value that has
no encoding. -/
inductive GoValue where
  | scalar (literal : Bytes)
  | text (contents : Bytes)
  | slice (items : GoItems)
  | mapping (entries : GoEntries)
  | rawMessage (contents : Bytes)
  | unsupported

inductive GoItems where
  | nil
  | cons (first : GoValue) (rest : GoItems)

/-- The entries of a map in any order; their keys are distinct. -/
inductive GoEntries where
  | nil
  | cons (key : Bytes) (value : GoValue) (rest : GoEntries)

end

/-- Byte strings in the order in which map keys are written. -/
def keyLe : Bytes → Bytes → Bool
  | [], _ => true
  | _ :: _, [] => false
  | a :: as, b :: bs => a < b || (a = b && keyLe as bs)

section Marshal

variable (c : Codec)

/-- Sorted members with their names quoted. -/
def membersOf (entries : List (Bytes × Json)) : Members :=
  Members.ofList ((entries.insertionSort fun a b => keyLe a.1 b.1).map fun e => (c.quote e.1, e.2))

mutual

def marshal : GoValue → Option Json
  | .scalar literal => some (.scalar literal)
  | .text contents => some (.scalar (34 :: c.quote contents ++ [34]))
  | .slice items => (marshalItems items).map fun found => .array (Items.ofList found)
  | .mapping entries => (marshalEntries entries).map fun found => .object (membersOf c found)
  | .rawMessage contents => c.compact contents
  | .unsupported => none

def marshalItems : GoItems → Option (List Json)
  | .nil => some []
  | .cons first rest =>
    match marshal first, marshalItems rest with
    | some head, some tail => some (head :: tail)
    | _, _ => none

def marshalEntries : GoEntries → Option (List (Bytes × Json))
  | .nil => some []
  | .cons key value rest =>
    match marshal value, marshalEntries rest with
    | some head, some tail => some ((key, head) :: tail)
    | _, _ => none

end

/-- The field `Metadata`, which may be nil. -/
def marshalMetadata : Option GoEntries → Option Json
  | none => some (.scalar (ascii "null"))
  | some entries => marshal c (.mapping entries)

/-- `json.Unmarshal` into an interface value: the last of repeated members remains. -/
def unmarshal (text : Json) : Option Json :=
  if text.scalars c.decodable = true then some (text.denote c.unquote).lastWins else none

end Marshal

/-! ## Inspection -/

mutual

def inspectMetadata (c : Codec) : Json → Nat → Except String Unit
  | value, depth =>
    if depth > 16 then .error "audit metadata is nested too deeply"
    else match value with
      | .scalar _ => .ok ()
      | .array items => inspectItems c items depth
      | .object members => inspectMembers c members depth

def inspectItems (c : Codec) : Items → Nat → Except String Unit
  | .nil, _ => .ok ()
  | .cons first rest, depth =>
    match inspectMetadata c first (depth + 1) with
    | .error e => .error e
    | .ok _ => inspectItems c rest depth

def inspectMembers (c : Codec) : Members → Nat → Except String Unit
  | .nil, _ => .ok ()
  | .cons key child rest, depth =>
    if isSensitiveKey c.toLower key = true then .error "audit metadata contains a sensitive field"
    else match inspectMetadata c child (depth + 1) with
      | .error e => .error e
      | .ok _ => inspectMembers c rest depth

end

def maxMetadataBytes : Nat := 16 * 1024

def validateMetadata (c : Codec) (metadata : Option GoEntries) : Except String Unit :=
  match marshalMetadata c metadata with
  | none => .error "audit metadata must be valid JSON"
  | some encoded =>
    if encoded.render.length > maxMetadataBytes then .error "audit metadata exceeds its size limit"
    else
      match unmarshal c encoded with
      | none => .error "audit metadata must be valid JSON"
      | some value => inspectMetadata c value 0

/-! ## Events -/

structure Event where
  id : Bytes
  timestamp : Time
  actor : Bytes
  action : Bytes
  resource : Bytes
  result : Bytes
  correlationID : Bytes
  metadata : Option GoEntries

def validateText (name : String) (value : Bytes) (maximum : Nat) (required : Bool) :
    Except String Unit :=
  if required = true ∧ value = [] then .error ("audit " ++ name ++ " is required")
  else if validUTF8 value = false then .error ("audit " ++ name ++ " must be valid UTF-8")
  else if value.length > maximum then .error ("audit " ++ name ++ " exceeds its size limit")
  else .ok ()

def results : List Bytes := ["success", "failure", "denied"].map ascii

def Event.validate (c : Codec) (e : Event) : Except String Unit := do
  validateText "event ID" e.id 128 true
  if e.timestamp.isZero = true then throw "audit event timestamp is required"
  validateText "actor" e.actor 256 true
  validateText "action" e.action 100 true
  validateText "resource" e.resource 512 true
  validateText "correlation ID" e.correlationID 128 false
  if e.result ∉ results then throw "audit result is invalid"
  validateMetadata c e.metadata

/-- The arguments of the INSERT. -/
structure Insert where
  id : Bytes
  occurredAt : Time
  actor : Bytes
  action : Bytes
  resource : Bytes
  result : Bytes
  correlationID : Bytes
  metadata : Json

/-- What `Append` passes to the database, unless it fails before. -/
def insertOf (c : Codec) (e : Event) : Except String Insert :=
  match e.validate c with
  | .error cause => .error ("validate audit event: " ++ cause)
  | .ok _ =>
    match marshalMetadata c e.metadata with
    | none => .error "encode audit metadata: unsupported value"
    | some metadata =>
      .ok ⟨e.id, e.timestamp, e.actor, e.action, e.resource, e.result, e.correlationID, metadata⟩

/-! ## What was inspected and what is sent -/

section Sent

variable {c : Codec}

mutual

/-- An accepted value has no sensitive name at any depth. -/
theorem inspectMetadata_names : (value : Json) → (depth : Nat) →
    inspectMetadata c value depth = .ok () → ∀ n ∈ value.names, isSensitiveKey c.toLower n = false
  | .scalar literal, depth, _ => by simp [Json.names]
  | .array items, depth, accepted => by
    rw [inspectMetadata] at accepted
    split at accepted
    · cases accepted
    · exact inspectItems_names items depth accepted
  | .object members, depth, accepted => by
    rw [inspectMetadata] at accepted
    split at accepted
    · cases accepted
    · exact inspectMembers_names members depth accepted

theorem inspectItems_names : (items : Items) → (depth : Nat) →
    inspectItems c items depth = .ok () → ∀ n ∈ items.names, isSensitiveKey c.toLower n = false
  | .nil, depth, _ => by simp [Items.names]
  | .cons first rest, depth, accepted => by
    rw [inspectItems] at accepted
    split at accepted
    · cases accepted
    · rename_i inspected
      intro n mem
      rcases List.mem_append.mp mem with here | after
      · exact inspectMetadata_names first (depth + 1) inspected n here
      · exact inspectItems_names rest depth accepted n after

theorem inspectMembers_names : (members : Members) → (depth : Nat) →
    inspectMembers c members depth = .ok () →
    ∀ n ∈ members.names, isSensitiveKey c.toLower n = false
  | .nil, depth, _ => by simp [Members.names]
  | .cons key child rest, depth, accepted => by
    rw [inspectMembers] at accepted
    split at accepted
    · cases accepted
    · rename_i harmless
      split at accepted
      · cases accepted
      · rename_i inspected
        intro n mem
        rcases List.mem_cons.mp mem with rfl | below
        · exact Bool.eq_false_of_not_eq_true harmless
        · rcases List.mem_append.mp below with here | after
          · exact inspectMetadata_names child (depth + 1) inspected n here
          · exact inspectMembers_names rest depth accepted n after

end

/-- The metadata is checked last, after every other field was accepted. -/
theorem Event.validate_metadata {e : Event} (validated : e.validate c = .ok ()) :
    validateMetadata c e.metadata = .ok () := by
  simp only [Event.validate, bind, Except.bind, throw, throwThe, MonadExceptOf.throw] at validated
  repeat' split at validated
  all_goals first
    | cases validated
    | exact validated

/-- The store inserts a text whose value was inspected. -/
theorem insertOf_inspected {e : Event} {insert : Insert} (inserted : insertOf c e = .ok insert) :
    inspectMetadata c (insert.metadata.denote c.unquote).lastWins 0 = .ok () := by
  unfold insertOf at inserted
  split at inserted
  · cases inserted
  · rename_i validated
    split at inserted
    · cases inserted
    · rename_i text encoded
      cases inserted
      have metadata := Event.validate_metadata validated
      unfold validateMetadata at metadata
      simp only [encoded] at metadata
      split at metadata
      · cases metadata
      · split at metadata
        · cases metadata
        · rename_i value decoded
          unfold unmarshal at decoded
          split at decoded
          · cases decoded
            exact metadata
          · cases decoded

/-- Every name in the text, as often as it occurs and whatever stands above it. -/
def Insert.names (c : Codec) (insert : Insert) : List Bytes :=
  (insert.metadata.denote c.unquote).names

/-- The names below members that a later member of the same object replaces. -/
def Insert.overwritten (c : Codec) (insert : Insert) : List Bytes :=
  (insert.metadata.denote c.unquote).hidden

end Sent

/-- The text that is inserted has no sensitive member name exactly if none stands below a member
that a later one of the same name replaces. -/
theorem inserted_names_iff {c : Codec} {e : Event} {insert : Insert}
    (inserted : insertOf c e = .ok insert) :
    (∀ n ∈ insert.names c, isSensitiveKey c.toLower n = false) ↔
      ∀ n ∈ insert.overwritten c, isSensitiveKey c.toLower n = false := by
  have inspected := inspectMetadata_names _ _ (insertOf_inspected inserted)
  constructor
  · intro none n mem
    exact none n ((Json.mem_names_iff _).mpr (Or.inr mem))
  · intro none n mem
    rcases (Json.mem_names_iff _).mp mem with kept | hidden
    · exact inspected n kept
    · exact none n hidden

/-! ## Two raw messages -/

def number (digit : UInt8) : Json := .scalar [digit]

def harmlessMessage : Bytes := ascii "\x7b\"k\":1,\"k\":2\x7d"

def repeatedMessage : Bytes := ascii "\x7b\"k\":\x7b\"password\":1\x7d,\"k\":1\x7d"

/-- `encoding/json` on texts without escapes, at the two messages that occur. -/
def plainCodec : Codec where
  quote := id
  unquote := id
  compact := fun contents =>
    if contents = harmlessMessage then
      some (.object (Members.ofList [(ascii "k", number 49), (ascii "k", number 50)]))
    else if contents = repeatedMessage then
      some (.object (Members.ofList [
        (ascii "k", .object (Members.ofList [(ascii "password", number 49)])),
        (ascii "k", number 49)]))
    else none
  decodable := fun _ => true
  toLower := asciiLower

def sampleEvent (message : Bytes) : Event where
  id := ascii "event-1"
  timestamp := ⟨(unixToInternal + 1767225600) * second⟩
  actor := ascii "alice"
  action := ascii "badge.issue"
  resource := ascii "badge/7"
  result := ascii "success"
  correlationID := []
  metadata := some (.cons (ascii "a") (.rawMessage message) .nil)

/-- A password below the first of two members with one name is inserted. -/
theorem overwritten_password_inserted :
    (insertOf plainCodec (sampleEvent repeatedMessage)).map
        (fun insert => (insert.names plainCodec, insert.metadata.render)) =
      .ok (["a", "k", "password", "k"].map ascii,
        ascii "\x7b\"a\":\x7b\"k\":\x7b\"password\":1\x7d,\"k\":1\x7d\x7d") ∧
    isSensitiveKey plainCodec.toLower (ascii "password") = true := by
  decide +kernel

/-- A repeated member with nothing sensitive below it. -/
theorem inserted_names_iff_harmless :
    ∃ insert, insertOf plainCodec (sampleEvent harmlessMessage) = .ok insert ∧
      ∀ n ∈ insert.names plainCodec, isSensitiveKey plainCodec.toLower n = false := by
  have found : (insertOf plainCodec (sampleEvent harmlessMessage)).map
      (fun insert => insert.overwritten plainCodec) = .ok [] := by
    decide +kernel
  cases inserted : insertOf plainCodec (sampleEvent harmlessMessage) with
  | error cause =>
    rw [inserted] at found
    cases found
  | ok insert =>
    rw [inserted] at found
    have none : insert.overwritten plainCodec = [] := Except.ok.inj found
    refine ⟨insert, rfl, (inserted_names_iff inserted).mpr ?_⟩
    rw [none]
    intro n mem
    cases mem

end AuditMetadata
