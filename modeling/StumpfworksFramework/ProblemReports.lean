import StumpfworksFramework.JsonWriting
import StumpfworksFramework.MiddlewareChain

/-!
# Problem responses

An application error may wrap others, in chains and in trees; `WriteError` reports
the first coded error that `errors.As` meets, with its code and its public message,
and nothing of the causes. The body is the JSON text of the details, and whoever
reads it gets every field back. Codes and messages are texts; the octets of a
request identity are shown as the encoder shows them. Errors with an `As` method
of their own are left out.
-/

namespace ProblemReports

open ByteStrings ConcurrencyLimit HttpResponses JsonWriting MiddlewareChain

/-! ## Errors -/

mutual

/-- Error values: without a cause, coded, with a cause, or with several. `nilCoded` is the nil
pointer to a coded error. -/
inductive GoError where
  | other (text : String)
  | coded (code message : String)
  | wrap (code message : String) (cause : GoError)
  | nilCoded
  | annotated (text : String) (cause : GoError)
  | joined (text : String) (causes : GoErrors)

inductive GoErrors where
  | nil
  | cons (first : GoError) (rest : GoErrors)

end

/-- The code and the public message of a coded error. -/
structure Coded where
  code : String
  message : String
  deriving DecidableEq, Repr

mutual

/-- `errors.As` for a pointer to a coded error, which may be nil. -/
def GoError.as : GoError → Option (Option Coded)
  | .other _ => none
  | .coded code message => some (some ⟨code, message⟩)
  | .wrap code message _ => some (some ⟨code, message⟩)
  | .nilCoded => some none
  | .annotated _ cause => cause.as
  | .joined _ causes => causes.as

def GoErrors.as : GoErrors → Option (Option Coded)
  | .nil => none
  | .cons first rest =>
    match first.as with
    | some found => some found
    | none => rest.as

end

section WriteError

variable (E : Surroundings) {σ : Type} (w : ResponseWriter σ)

/-- `WriteError`; without a result it panics, at the field of a nil pointer. -/
def writeError (s : σ) (status : Int) (err : Option GoError) : Option σ :=
  match err.bind GoError.as with
  | none => some (problemWrite E w s ⟨"", "", status, "", "", []⟩)
  | some none => none
  | some (some coded) =>
    some (problemWrite E w s ⟨"", coded.message, status, coded.code, "", []⟩)

end WriteError

/-! ## The text of the details -/

/-- A member, unless its text is empty. -/
def omitEmpty (name text : String) : List (String × Value String) :=
  if text = "" then [] else [(name, .string text)]

def fieldValue (e : FieldError) : Value String :=
  .object (Members.ofList
    ([("field", .string e.field), ("code", .string e.code)] ++ omitEmpty "message" e.message))

def detailsMembers (d : Details) : List (String × Value String) :=
  [("type", .string d.type), ("title", .string d.title), ("status", .number d.status)] ++
    omitEmpty "code" d.code ++ omitEmpty "correlation_id" d.correlationID ++
    if d.errors = [] then [] else [("errors", .array (Items.ofList (d.errors.map fieldValue)))]

/-- The encoder's line, with the escapes for HTML that it makes by default. -/
def encodeDetails (d : Details) : Bytes :=
  (Value.object (Members.ofList (detailsMembers d))).write true [10]

/-! ## Reading the details -/

/-- The text of a member, empty if there is none. -/
def textOf (name : String) (members : List (Bytes × Value Bytes)) : Bytes :=
  match members.lookup (utf8 name) with
  | some (.string text) => text
  | _ => []

/-- A problem as a client reads it. -/
structure Report where
  type : Bytes
  title : Bytes
  status : Int
  code : Bytes
  correlationID : Bytes
  errors : List (Bytes × Bytes × Bytes)
  deriving DecidableEq, Repr

def readField : Value Bytes → Bytes × Bytes × Bytes
  | .object members =>
    let members := members.toList
    (textOf "field" members, textOf "code" members, textOf "message" members)
  | _ => ([], [], [])

def readErrors (members : List (Bytes × Value Bytes)) : List (Bytes × Bytes × Bytes) :=
  match members.lookup (utf8 "errors") with
  | some (.array items) => items.toList.map readField
  | _ => []

def decodeProblem (body : Bytes) : Option Report :=
  match readLine body with
  | some (.object members) =>
    let members := members.toList
    match members.lookup (utf8 "status") with
    | some (.number status) =>
      some ⟨textOf "type" members, textOf "title" members, status, textOf "code" members,
        textOf "correlation_id" members, readErrors members⟩
    | _ => none
  | _ => none

/-- What the details say. -/
def report (d : Details) : Report :=
  ⟨utf8 d.type, utf8 d.title, d.status, utf8 d.code, utf8 d.correlationID,
    d.errors.map fun e => (utf8 e.field, utf8 e.code, utf8 e.message)⟩

section Reading

theorem toList_ofList (members : List (String × Value String)) :
    ((Members.ofList members).map utf8).toList =
      members.map fun m => (utf8 m.1, m.2.map utf8) := by
  induction members with
  | nil => rfl
  | cons m rest ih =>
    rw [Members.ofList, Members.map, Members.toList, ih]
    rfl

theorem toList_items (items : List (Value String)) :
    ((Items.ofList items).map utf8).toList = items.map (Value.map utf8) := by
  induction items with
  | nil => rfl
  | cons first rest ih =>
    rw [Items.ofList, Items.map, Items.toList, ih]
    rfl

/-- The names of all members. -/
def names : List String :=
  ["type", "title", "status", "code", "correlation_id", "errors", "field", "message"]

/-- They are told apart by their octets. -/
theorem names_distinct : ∀ a ∈ names, ∀ b ∈ names, utf8 a = utf8 b → a = b := by
  decide +kernel

theorem lookup_cons_of_ne {κ ν : Type} [BEq κ] [LawfulBEq κ] {name own : κ} (other : name ≠ own)
    (value : ν) (rest : List (κ × ν)) : ((own, value) :: rest).lookup name = rest.lookup name := by
  rw [List.lookup_cons, beq_false_of_ne other]

/-- Looking for the octets of a name is looking for the name. -/
theorem lookup_utf8 {name : String} (known : name ∈ names) {members : List (String × Value String)}
    (named : ∀ m ∈ members, m.1 ∈ names) :
    (members.map fun m => (utf8 m.1, m.2.map utf8)).lookup (utf8 name) =
      (members.lookup name).map (Value.map utf8) := by
  induction members with
  | nil => rfl
  | cons m rest ih =>
    have tail := ih fun m' mem => named m' (List.mem_cons_of_mem m mem)
    obtain ⟨own, value⟩ := m
    rw [List.map_cons]
    by_cases here : name = own
    · rw [here, List.lookup_cons_self, List.lookup_cons_self]
      rfl
    · have apart : utf8 name ≠ utf8 own := fun same =>
        here (names_distinct name known own (named _ List.mem_cons_self) same)
      rw [lookup_cons_of_ne here, ← tail]
      exact lookup_cons_of_ne apart _ _

theorem named_omitEmpty {name text : String} (known : name ∈ names) :
    ∀ m ∈ omitEmpty name text, m.1 ∈ names := by
  intro m mem
  unfold omitEmpty at mem
  split at mem
  · cases mem
  · rw [List.mem_singleton.mp mem]
    exact known

theorem named_field (e : FieldError) :
    ∀ m ∈ [("field", Value.string e.field), ("code", .string e.code)] ++
        omitEmpty "message" e.message,
      m.1 ∈ names := by
  intro m mem
  rcases List.mem_append.mp mem with mem | mem
  · simp only [List.mem_cons, List.not_mem_nil, or_false] at mem
    rcases mem with rfl | rfl <;> simp [names]
  · exact named_omitEmpty (by decide) m mem

theorem named_details (d : Details) : ∀ m ∈ detailsMembers d, m.1 ∈ names := by
  intro m mem
  unfold detailsMembers at mem
  rcases List.mem_append.mp mem with mem | mem
  · rcases List.mem_append.mp mem with mem | mem
    · rcases List.mem_append.mp mem with mem | mem
      · simp only [List.mem_cons, List.not_mem_nil, or_false] at mem
        rcases mem with rfl | rfl | rfl <;> simp [names]
      · exact named_omitEmpty (by decide) m mem
    · exact named_omitEmpty (by decide) m mem
  · split at mem
    · cases mem
    · rw [List.mem_singleton.mp mem]
      simp [names]

/-- The text of a member that is left out is empty. -/
theorem textOf_utf8 {name : String} (known : name ∈ names) {members : List (String × Value String)}
    (named : ∀ m ∈ members, m.1 ∈ names) {text : String}
    (found : members.lookup name = some (.string text) ∨ (members.lookup name = none ∧ text = "")) :
    textOf name (members.map fun m => (utf8 m.1, m.2.map utf8)) = utf8 text := by
  rw [textOf, lookup_utf8 known named]
  rcases found with found | ⟨found, rfl⟩
  · rw [found]
    rfl
  · rw [found]
    rfl

theorem lookup_omitEmpty (name text : String) :
    (omitEmpty name text).lookup name = some (.string text) ∨
      ((omitEmpty name text).lookup name = none ∧ text = "") := by
  unfold omitEmpty
  split
  · rename_i empty
    exact .inr ⟨rfl, empty⟩
  · exact .inl (by simp)

theorem readField_fieldValue (e : FieldError) :
    readField ((fieldValue e).map utf8) = (utf8 e.field, utf8 e.code, utf8 e.message) := by
  have field := textOf_utf8 (show "field" ∈ names by decide) (named_field e)
    (.inl (List.lookup_cons_self ..))
  have code := textOf_utf8 (show "code" ∈ names by decide) (named_field e)
    (.inl ((lookup_cons_of_ne (by decide) _ _).trans (List.lookup_cons_self ..)))
  have skipped : ([("field", Value.string e.field), ("code", .string e.code)] ++
      omitEmpty "message" e.message).lookup "message" =
      (omitEmpty "message" e.message).lookup "message" :=
    (lookup_cons_of_ne (by decide) _ _).trans (lookup_cons_of_ne (by decide) _ _)
  have message := textOf_utf8 (show "message" ∈ names by decide) (named_field e)
    (skipped ▸ lookup_omitEmpty "message" e.message)
  rw [fieldValue, Value.map, readField, toList_ofList, field, code, message]

theorem lookup_omitEmpty_other {name own : String} (other : name ≠ own) (text : String) :
    (omitEmpty own text).lookup name = none := by
  unfold omitEmpty
  split
  · rfl
  · exact lookup_cons_of_ne other _ _

/-- The member with the field errors, if there are any. -/
def errorsMember (d : Details) : List (String × Value String) :=
  if d.errors = [] then [] else [("errors", .array (Items.ofList (d.errors.map fieldValue)))]

theorem lookup_errorsMember_other {name : String} (other : name ≠ "errors") (d : Details) :
    (errorsMember d).lookup name = none := by
  unfold errorsMember
  split
  · rfl
  · exact lookup_cons_of_ne other _ _

/-- Behind the three members that are always there. -/
theorem lookup_details {name : String} (type : name ≠ "type") (title : name ≠ "title")
    (status : name ≠ "status") (d : Details) :
    (detailsMembers d).lookup name =
      (((omitEmpty "code" d.code).lookup name).or
        ((omitEmpty "correlation_id" d.correlationID).lookup name)).or
        ((errorsMember d).lookup name) := by
  rw [detailsMembers, List.append_assoc, List.append_assoc, List.cons_append, List.cons_append,
    List.cons_append, List.nil_append, lookup_cons_of_ne type, lookup_cons_of_ne title,
    lookup_cons_of_ne status, List.lookup_append, List.lookup_append, ← Option.or_assoc]
  rfl

theorem readErrors_details (d : Details) :
    readErrors ((detailsMembers d).map fun m => (utf8 m.1, m.2.map utf8)) =
      d.errors.map fun e => (utf8 e.field, utf8 e.code, utf8 e.message) := by
  rw [readErrors, lookup_utf8 (by decide) (named_details d),
    lookup_details (by decide) (by decide) (by decide), lookup_omitEmpty_other (by decide),
    lookup_omitEmpty_other (by decide), Option.none_or, Option.none_or, errorsMember]
  split
  · rename_i items found
    split at found
    · cases found
    · rw [List.lookup_cons_self, Option.map_some, Value.map, Option.some.injEq,
        Value.array.injEq] at found
      rw [← found, toList_items, List.map_map, List.map_map]
      exact List.map_congr_left fun e _ => readField_fieldValue e
  · rename_i missing
    split at missing
    · rename_i empty
      rw [empty]
      rfl
    · exact absurd (by rw [List.lookup_cons_self]; rfl) (missing _)

/-- The details are read back from their line. -/
theorem decodeProblem_encodeDetails (d : Details) :
    decodeProblem (encodeDetails d) = some (report d) := by
  have type := textOf_utf8 (show "type" ∈ names by decide) (named_details d)
    (.inl (List.lookup_cons_self ..))
  have title := textOf_utf8 (show "title" ∈ names by decide) (named_details d)
    (.inl ((lookup_cons_of_ne (by decide) _ _).trans (List.lookup_cons_self ..)))
  have status : (detailsMembers d).lookup "status" = some (.number d.status) :=
    (lookup_cons_of_ne (by decide) _ _).trans
      ((lookup_cons_of_ne (by decide) _ _).trans (List.lookup_cons_self ..))
  have codeFound : (detailsMembers d).lookup "code" = (omitEmpty "code" d.code).lookup "code" := by
    rw [lookup_details (by decide) (by decide) (by decide), lookup_omitEmpty_other
      (show "code" ≠ "correlation_id" by decide), lookup_errorsMember_other (by decide),
      Option.or_none, Option.or_none]
  have identityFound : (detailsMembers d).lookup "correlation_id" =
      (omitEmpty "correlation_id" d.correlationID).lookup "correlation_id" := by
    rw [lookup_details (by decide) (by decide) (by decide), lookup_omitEmpty_other
      (show "correlation_id" ≠ "code" by decide), lookup_errorsMember_other (by decide),
      Option.none_or, Option.or_none]
  have code := textOf_utf8 (show "code" ∈ names by decide) (named_details d)
    (codeFound ▸ lookup_omitEmpty "code" d.code)
  have identity := textOf_utf8 (show "correlation_id" ∈ names by decide) (named_details d)
    (identityFound ▸ lookup_omitEmpty "correlation_id" d.correlationID)
  rw [decodeProblem, encodeDetails, readLine_write, Value.map]
  dsimp only
  rw [toList_ofList, lookup_utf8 (by decide) (named_details d), status]
  dsimp only [Option.map_some, Value.map]
  rw [type, title, code, identity, readErrors_details]
  rfl

end Reading

/-! ## What is disclosed -/

mutual

/-- The errors in the order in which `errors.As` meets them. A coded error is met before its
cause, and so is every other. -/
def GoError.visited : GoError → List GoError
  | .other text => [.other text]
  | .coded code message => [.coded code message]
  | .wrap code message cause => .wrap code message cause :: cause.visited
  | .nilCoded => [.nilCoded]
  | .annotated text cause => .annotated text cause :: cause.visited
  | .joined text causes => .joined text causes :: causes.visited

def GoErrors.visited : GoErrors → List GoError
  | .nil => []
  | .cons first rest => first.visited ++ rest.visited

end

/-- The code and message of a coded error itself. -/
def GoError.own : GoError → Option (Option Coded)
  | .coded code message => some (some ⟨code, message⟩)
  | .wrap code message _ => some (some ⟨code, message⟩)
  | .nilCoded => some none
  | _ => none

mutual

/-- `errors.As` finds the first coded error of the tree. -/
theorem GoError.as_eq : ∀ e : GoError, e.as = (e.visited.filterMap GoError.own).head?
  | .other _ => rfl
  | .coded _ _ => rfl
  | .wrap _ _ _ => rfl
  | .nilCoded => rfl
  | .annotated _ cause => by
    rw [GoError.as, GoError.visited, List.filterMap_cons_none rfl]
    exact cause.as_eq
  | .joined _ causes => by
    rw [GoError.as, GoError.visited, List.filterMap_cons_none rfl]
    exact causes.as_eq

theorem GoErrors.as_eq : ∀ es : GoErrors, es.as = (es.visited.filterMap GoError.own).head?
  | .nil => rfl
  | .cons first rest => by
    rw [GoErrors.as, GoErrors.visited, List.filterMap_append, List.head?_append, ← first.as_eq,
      ← rest.as_eq]
    cases first.as with
    | none => rfl
    | some found => rfl

end

/-- All coded errors in an error or in none, in their order. -/
def codes (err : Option GoError) : List (Option Coded) :=
  (err.toList.flatMap GoError.visited).filterMap GoError.own

theorem as_eq_head (err : Option GoError) : err.bind GoError.as = (codes err).head? := by
  cases err with
  | none => rfl
  | some e =>
    rw [codes, Option.toList_some, List.flatMap_cons, List.flatMap_nil, List.append_nil]
    exact e.as_eq

/-- What is reported for the first coded error. -/
def disclosed (E : Surroundings) (header : Header) (status : Int) (coded : Coded) : Details :=
  Details.completed E.texts (E.shown (header.get requestIDName))
    ⟨"", coded.message, status, coded.code, "", []⟩

theorem completed_status (texts : Texts) (identity : String) (d : Details) :
    400 ≤ (d.completed texts identity).status ∧ (d.completed texts identity).status ≤ 599 := by
  show 400 ≤ (d.orInternal texts).status ∧ (d.orInternal texts).status ≤ 599
  unfold Details.orInternal
  split
  · exact ⟨Int.le_of_lt (by decide : (400 : Int) < 500),
      Int.le_of_lt (by decide : (500 : Int) < 599)⟩
  · omega

theorem encodeDetails_ne_nil (d : Details) : encodeDetails d ≠ [] := List.cons_ne_nil _ _

/-- A problem on a response that has sent nothing. -/
theorem problemWrite_fresh {E : Surroundings} (json : E.texts.encode = encodeDetails)
    {header : Header} (unannounced : header.values contentLength = []) (details : Details) :
    let d := details.completed E.texts (E.shown (header.get requestIDName))
    problemWrite E netHTTP (Response.fresh header) details =
      ⟨problemHeader header, some (d.status, problemHeader header), [], none,
        (encodeDetails d).length, encodeDetails d⟩ := by
  intro d
  obtain ⟨low, high⟩ : 400 ≤ d.status ∧ d.status ≤ 599 := completed_status E.texts _ details
  have final : ¬ResponseStatus.Informational d.status := fun informational => by
    have bound := informational.2.1
    omega
  have allowed : bodyAllowedFor d.status = true := by
    simp only [bodyAllowedFor, Bool.not_eq_true', decide_eq_false_iff_not]
    omega
  show (((Response.fresh (problemHeader header)).writeHeader d.status).writeHeader 200).append
    (E.texts.encode d) = _
  rw [json, Response.writeHeader_unannounced final
    ((problemHeader_length header).trans unannounced)]
  exact Response.append_unannounced (encodeDetails_ne_nil d) allowed

/-- `WriteError` discloses the first coded error of a tree and nothing else: two errors with the
same coded errors are answered alike, whatever else they hold. A client reads back the code, the
public message, the status and the identity, unless the first coded error is a nil pointer, at
which the function panics. -/
theorem problems_read_back (E : Surroundings) (json : E.texts.encode = encodeDetails)
    (header : Header) (unannounced : header.values contentLength = []) (status : Int)
    (err : Option GoError) :
    (∀ err', (codes err').head? = (codes err).head? →
      writeError E netHTTP (Response.fresh header) status err' =
        writeError E netHTTP (Response.fresh header) status err) ∧
    (writeError E netHTTP (Response.fresh header) status err = none ↔
      (codes err).head? = some none) ∧
    ∀ response, writeError E netHTTP (Response.fresh header) status err = some response →
      ∃ coded : Coded, ((codes err).head?.getD (some ⟨"", ""⟩)) = some coded ∧
        response.sent = some ((disclosed E header status coded).status, problemHeader header) ∧
        decodeProblem response.body = some (report (disclosed E header status coded)) := by
  have answer : ∀ coded : Coded, ∃ response,
      problemWrite E netHTTP (Response.fresh header)
        ⟨"", coded.message, status, coded.code, "", []⟩ = response ∧
      response.sent = some ((disclosed E header status coded).status, problemHeader header) ∧
      decodeProblem response.body = some (report (disclosed E header status coded)) := by
    intro coded
    refine ⟨_, problemWrite_fresh json unannounced _, rfl, ?_⟩
    exact decodeProblem_encodeDetails _
  unfold writeError
  simp only [as_eq_head]
  refine ⟨?_, ?_, ?_⟩
  · intro err' same
    rw [same]
  · rcases (codes err).head? with _ | _ | coded
    · exact ⟨nofun, nofun⟩
    · exact ⟨fun _ => rfl, fun _ => rfl⟩
    · exact ⟨nofun, nofun⟩
  · intro response written
    generalize (codes err).head? = first at written ⊢
    rcases first with _ | _ | coded
    · obtain ⟨_, rfl, sent, read⟩ := answer ⟨"", ""⟩
      cases written
      exact ⟨⟨"", ""⟩, rfl, sent, read⟩
    · cases written
    · obtain ⟨_, rfl, sent, read⟩ := answer coded
      cases written
      exact ⟨coded, rfl, sent, read⟩

/-- A database error behind a coded one, joined with another; the message holds markup. -/
def sampleError : GoError :=
  .joined "two errors" (.cons (.annotated "decode: refused" (.other "secret"))
    (.cons (.wrap "conflict" "Name <b>\"x\"</b> is taken" (.other "duplicate key")) .nil))

def sampleSurroundings : Surroundings where
  texts := ⟨fun _ => "Conflict", encodeDetails⟩
  shown := fun _ => ""
  newID := []
  durationMs := 0

theorem problems_read_back_sample :
    ∃ response, writeError sampleSurroundings netHTTP (Response.fresh ∅) 409
        (some sampleError) = some response ∧
      decodeProblem response.body = some ⟨utf8 "about:blank", utf8 "Name <b>\"x\"</b> is taken",
        409, utf8 "conflict", [], []⟩ := by
  obtain ⟨_, _, read⟩ := problems_read_back sampleSurroundings rfl ∅ rfl 409
    (some sampleError)
  refine ⟨_, rfl, ?_⟩
  obtain ⟨coded, first, _, decoded⟩ := read _ rfl
  cases first
  rw [decoded]
  rfl

end ProblemReports
