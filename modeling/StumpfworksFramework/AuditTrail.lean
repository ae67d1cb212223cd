import StumpfworksFramework.LayeredValues
import StumpfworksFramework.MetadataInspection
import StumpfworksFramework.Runs

/-!
# The audit table

Calls of `Append` against the table `swf_audit_events`, in any interleaving.
The server refuses a row for the constraints of the schema and for texts that
its types do not take. The column `metadata` is a `jsonb`, which keeps the last
of repeated members, so that what is stored is the value that was inspected and
not the text that was sent. A `timestamptz` counts microseconds and ends long before
the times of Go do, which `Validate` does not ask about.

The answer to an INSERT may be lost after the server has carried it out.
-/

namespace AuditTrail

open ByteStrings Instants JsonTrees LayeredValues SensitiveKeys AuditMetadata Runs Utf8Runes

/-! ## The table -/

/-- A row of `swf_audit_events`. -/
structure Row where
  id : Bytes
  occurredAt : Int
  actor : Bytes
  action : Bytes
  resource : Bytes
  result : Bytes
  correlationID : Bytes
  metadata : Json

/-- `encoding/json` on one side, and on the other what the server complains of in a JSON text for
a `jsonb`, the microseconds that the driver sends for a time, and those that a `timestamptz`
takes. -/
structure Formats where
  codec : Codec
  jsonb : Json → Option String
  microseconds : Time → Int
  timestamptz : Int → Bool

def rowOf (formats : Formats) (insert : Insert) : Row where
  id := insert.id
  occurredAt := formats.microseconds insert.occurredAt
  actor := insert.actor
  action := insert.action
  resource := insert.resource
  result := insert.result
  correlationID := insert.correlationID
  metadata := (insert.metadata.denote formats.codec.unquote).lastWins

/-- The columns of type `text`. -/
def Row.texts (row : Row) : List Bytes :=
  [row.id, row.actor, row.action, row.resource, row.result, row.correlationID]

/-- A `text` is well-formed UTF-8 without a zero octet. -/
def isText (text : Bytes) : Bool := validUTF8 text && !text.contains 0

inductive Refusal where
  | encoding
  | range
  | json (error : String)
  | check
  | duplicate
  deriving DecidableEq, Repr

/-- What is not UTF-8 was refused before, so that the complaint is about a zero octet. -/
def Refusal.error : Refusal → String
  | .encoding => "ERROR: invalid byte sequence for encoding \"UTF8\": 0x00 (SQLSTATE 22021)"
  | .range => "ERROR: timestamp out of range (SQLSTATE 22008)"
  | .json error => error
  | .check => "ERROR: new row for relation \"swf_audit_events\" violates check constraint " ++
      "\"swf_audit_events_result_check\" (SQLSTATE 23514)"
  | .duplicate => "ERROR: duplicate key value violates unique constraint " ++
      "\"swf_audit_events_pkey\" (SQLSTATE 23505)"

/-- Why the server refuses a row, if it does. It reads the arguments in their order. -/
def refusal (formats : Formats) (ids : List Bytes) (insert : Insert) : Option Refusal :=
  let row := rowOf formats insert
  if isText row.id = false then some .encoding
  else if formats.timestamptz row.occurredAt = false then some .range
  else if row.texts.all isText = false then some .encoding
  else
    match formats.jsonb insert.metadata with
    | some error => some (.json error)
    | none =>
      if row.result ∉ results then some .check
      else if row.id ∈ ids then some .duplicate
      else none

/-! ## Calls -/

/-- How an INSERT ends. -/
inductive Answer where
  | answered
  | unsent (cause : String)
  | lost (cause : String) (reached : Bool)

inductive Stage where
  | called
  | sending (insert : Insert)
  | done (result : Except String Unit)

/-- A call of `Append`; `lost` says that the answer to its INSERT never came. -/
structure Call where
  event : Event
  stage : Stage
  lost : Bool

inductive CallStep where
  | prepare
  | exec (answer : Answer)

def appendError (cause : String) : Except String Unit := .error ("append audit event: " ++ cause)

/-- The INSERT at the server, with the row that it adds. -/
def execute (formats : Formats) (ids : List Bytes) (insert : Insert) :
    Except String Unit × Option Row :=
  match refusal formats ids insert with
  | some refused => (appendError refused.error, none)
  | none => (.ok (), some (rowOf formats insert))

/-- `pool.Exec` and the return. -/
def Call.exec (formats : Formats) (ids : List Bytes) (insert : Insert) (call : Call) :
    Answer → Call × Option Row
  | .answered =>
    let executed := execute formats ids insert
    ({ call with stage := .done executed.1 }, executed.2)
  | .unsent cause => ({ call with stage := .done (appendError cause) }, none)
  | .lost cause reached =>
    ({ call with stage := .done (appendError cause), lost := true },
      if reached then (execute formats ids insert).2 else none)

def Call.advance (formats : Formats) (ids : List Bytes) (call : Call) (step : CallStep) :
    Call × Option Row :=
  match call.stage, step with
  | .called, .prepare =>
    match insertOf formats.codec call.event with
    | .error cause => ({ call with stage := .done (.error cause) }, none)
    | .ok insert => ({ call with stage := .sending insert }, none)
  | .sending insert, .exec answer => call.exec formats ids insert answer
  | _, _ => (call, none)

/-- The table, each row with the call that it comes from. -/
structure Trail where
  rows : List (Nat × Row)
  calls : List Call

def Trail.empty : Trail := ⟨[], []⟩

def Trail.ids (t : Trail) : List Bytes := t.rows.map fun entry => entry.2.id

inductive Action where
  | append (event : Event)
  | advance (i : Nat) (step : CallStep)

def stepTrail (formats : Formats) (t : Trail) : Action → Trail
  | .append event => { t with calls := t.calls ++ [⟨event, .called, false⟩] }
  | .advance i step =>
    match t.calls[i]? with
    | none => t
    | some call =>
      let after := call.advance formats t.ids step
      ⟨t.rows ++ (after.2.map fun row => (i, row)).toList, t.calls.set i after.1⟩

def step (formats : Formats) (t : Trail) (a : Action) : Trail × Unit := (stepTrail formats t a, ())

/-! ## What validation gives -/

section Rows

variable {formats : Formats} {c : Codec} {e : Event} {insert : Insert}

/-- What holds of every row. -/
structure Clean (c : Codec) (row : Row) : Prop where
  identified : row.id ≠ [] ∧ row.id.length ≤ 128
  attributed : row.actor ≠ [] ∧ row.actor.length ≤ 256
  described : row.action ≠ [] ∧ row.action.length ≤ 100
  located : row.resource ≠ [] ∧ row.resource.length ≤ 512
  correlated : row.correlationID.length ≤ 128
  result : row.result ∈ results
  harmless : ∀ name ∈ row.metadata.names, isSensitiveKey c.toLower name = false
  shallow : ∀ k w, Inside row.metadata k w → k ≤ 16

theorem validateText_ok {name : String} {value : Bytes} {maximum : Nat} {required : Bool}
    (valid : validateText name value maximum required = .ok ()) :
    (required = true → value ≠ []) ∧ validUTF8 value = true ∧ value.length ≤ maximum := by
  unfold validateText at valid
  split at valid
  · cases valid
  · rename_i present
    split at valid
    · cases valid
    · rename_i encoded
      split at valid
      · cases valid
      · rename_i short
        exact ⟨fun needed empty => present ⟨needed, empty⟩, by simpa using encoded,
          Nat.le_of_not_lt short⟩

theorem validate_texts (validated : e.validate c = .ok ()) :
    validateText "event ID" e.id 128 true = .ok () ∧
    validateText "actor" e.actor 256 true = .ok () ∧
    validateText "action" e.action 100 true = .ok () ∧
    validateText "resource" e.resource 512 true = .ok () ∧
    validateText "correlation ID" e.correlationID 128 false = .ok () ∧ e.result ∈ results := by
  unfold Event.validate at validated
  obtain ⟨⟨⟩, id, rest⟩ := bind_eq_ok.mp validated
  dsimp only at rest
  split at rest
  · cases rest
  · obtain ⟨⟨⟩, actor, rest⟩ := bind_eq_ok.mp rest
    obtain ⟨⟨⟩, action, rest⟩ := bind_eq_ok.mp rest
    obtain ⟨⟨⟩, resource, rest⟩ := bind_eq_ok.mp rest
    obtain ⟨⟨⟩, correlation, rest⟩ := bind_eq_ok.mp rest
    split at rest
    · cases rest
    · rename_i known
      exact ⟨id, actor, action, resource, correlation, not_not.mp known⟩

/-- What is inserted is the event, after it was validated. -/
theorem insertOf_ok (inserted : insertOf c e = .ok insert) :
    e.validate c = .ok () ∧ ∃ metadata, insert =
      ⟨e.id, e.timestamp, e.actor, e.action, e.resource, e.result, e.correlationID, metadata⟩ := by
  unfold insertOf at inserted
  split at inserted
  · cases inserted
  · split at inserted
    · cases inserted
    · cases inserted
      exact ⟨‹_›, _, rfl⟩

theorem clean_rowOf (inserted : insertOf formats.codec e = .ok insert) :
    Clean formats.codec (rowOf formats insert) := by
  have inspected := insertOf_inspected inserted
  obtain ⟨validated, metadata, rfl⟩ := insertOf_ok inserted
  obtain ⟨id, actor, action, resource, correlation, result⟩ := validate_texts validated
  have acceptable := (MetadataInspection.inspects_inspectMetadata _ _).ok_iff.mp inspected
  obtain ⟨idGiven, _, idShort⟩ := validateText_ok id
  obtain ⟨actorGiven, _, actorShort⟩ := validateText_ok actor
  obtain ⟨actionGiven, _, actionShort⟩ := validateText_ok action
  obtain ⟨resourceGiven, _, resourceShort⟩ := validateText_ok resource
  obtain ⟨_, _, correlationShort⟩ := validateText_ok correlation
  exact {
    identified := ⟨idGiven rfl, idShort⟩
    attributed := ⟨actorGiven rfl, actorShort⟩
    described := ⟨actionGiven rfl, actionShort⟩
    located := ⟨resourceGiven rfl, resourceShort⟩
    correlated := correlationShort
    result := result
    harmless := inspectMetadata_names _ _ inspected
    shallow := fun k w inside => by
      have within := (acceptable k w inside).1
      omega }

theorem isText_results : ∀ result ∈ results, isText result = true := by
  decide +kernel

theorem isText_iff {text : Bytes} (valid : validUTF8 text = true) :
    isText text = true ↔ 0 ∉ text := by
  simp [isText, valid]

/-- What `Validate` does not ask about. -/
structure Storable (formats : Formats) (insert : Insert) : Prop where
  texts : ∀ text ∈ [insert.id, insert.actor, insert.action, insert.resource, insert.correlationID],
    0 ∉ text
  inRange : formats.timestamptz (formats.microseconds insert.occurredAt) = true
  json : formats.jsonb insert.metadata = none

theorem isText_of_storable (inserted : insertOf formats.codec e = .ok insert)
    (storable : Storable formats insert) :
    ∀ text ∈ (rowOf formats insert).texts, isText text = true := by
  have texts := storable.texts
  obtain ⟨validated, metadata, rfl⟩ := insertOf_ok inserted
  obtain ⟨id, actor, action, resource, correlation, result⟩ := validate_texts validated
  simp only [List.forall_mem_cons] at texts
  obtain ⟨idWhole, actorWhole, actionWhole, resourceWhole, correlationWhole, _⟩ := texts
  have whole : ∀ {name text maximum required}, validateText name text maximum required = .ok () →
      0 ∉ text → isText text = true := fun valid => (isText_iff (validateText_ok valid).2.1).mpr
  simp only [rowOf, Row.texts, List.forall_mem_cons]
  exact ⟨whole id idWhole, whole actor actorWhole, whole action actionWhole,
    whole resource resourceWhole, isText_results e.result result,
    whole correlation correlationWhole, by simp⟩

/-- After validation, a row that the types take is refused for nothing but its identity. -/
theorem refusal_storable (inserted : insertOf formats.codec e = .ok insert)
    (storable : Storable formats insert) (ids : List Bytes) :
    refusal formats ids insert = if insert.id ∈ ids then some .duplicate else none := by
  have texts := isText_of_storable inserted storable
  have known := (clean_rowOf inserted).result
  have id : isText (rowOf formats insert).id = true := texts _ List.mem_cons_self
  have inRange : formats.timestamptz (rowOf formats insert).occurredAt = true := storable.inRange
  have all : (rowOf formats insert).texts.all isText = true := List.all_eq_true.mpr texts
  unfold refusal
  simp only [id, inRange, all, storable.json, known, not_true_eq_false, Bool.true_eq_false,
    if_false]
  rfl

theorem refusal_id {ids : List Bytes} (accepted : refusal formats ids insert = none) :
    (rowOf formats insert).id ∉ ids := by
  unfold refusal at accepted
  grind

end Rows

/-! ## Runs -/

section Runs

variable {formats : Formats} {t : Trail}

/-- The call has added a row, or may have without being told. -/
def Call.Kept (call : Call) : Prop :=
  call.stage = .done (.ok ()) ∨ call.lost = true ∧ ∃ cause, call.stage = .done (.error cause)

def Call.Fits (c : Codec) (call : Call) : Prop :=
  match call.stage with
  | .sending insert => insertOf c call.event = .ok insert
  | _ => True

/-- What one statement of a call may do. -/
structure Advanced (formats : Formats) (ids : List Bytes) (call : Call)
    (after : Call × Option Row) : Prop where
  fits : after.1.Fits formats.codec
  event : after.1.event = call.event
  kept : call.Kept → after.1.Kept
  told : after.1.stage = .done (.ok ()) → call.stage = .done (.ok ()) ∨ after.2.isSome = true
  row : ∀ row, after.2 = some row → row.id ∉ ids ∧ after.1.Kept ∧
    ∃ insert, insertOf formats.codec call.event = .ok insert ∧ row = rowOf formats insert

theorem execute_row {ids : List Bytes} {insert : Insert} {row : Row}
    (executed : (execute formats ids insert).2 = some row) :
    (execute formats ids insert).1 = .ok () ∧ row = rowOf formats insert ∧
      row.id ∉ ids := by
  unfold execute at executed ⊢
  cases refused : refusal formats ids insert with
  | some reason =>
    rw [refused] at executed
    cases executed
  | none =>
    rw [refused] at executed
    cases executed
    exact ⟨rfl, rfl, refusal_id refused⟩

theorem execute_told {ids : List Bytes} {insert : Insert}
    (told : (execute formats ids insert).1 = .ok ()) :
    (execute formats ids insert).2.isSome = true := by
  unfold execute at told ⊢
  cases refused : refusal formats ids insert with
  | some reason =>
    rw [refused] at told
    cases told
  | none => rfl

theorem Advanced.still {ids : List Bytes} {call : Call} (fits : call.Fits formats.codec) :
    Advanced formats ids call (call, none) :=
  ⟨fits, rfl, id, .inl, nofun⟩

theorem not_kept {call : Call} (unfinished : ∀ result, call.stage ≠ .done result) :
    ¬ call.Kept := by
  rintro (done | ⟨_, _, done⟩)
  · exact unfinished _ done
  · exact unfinished _ done

/-- A call that ends without its INSERT. -/
theorem Advanced.failed {ids : List Bytes} {call : Call}
    (unfinished : ∀ result, call.stage ≠ .done result) (cause : String) :
    Advanced formats ids call ({ call with stage := .done (.error cause) }, none) :=
  ⟨trivial, rfl, fun kept => absurd kept (not_kept unfinished), nofun, nofun⟩

theorem Advanced.prepare {ids : List Bytes} {call : Call} (stage : call.stage = .called) :
    Advanced formats ids call (call.advance formats ids .prepare) := by
  have unfinished : ∀ result, call.stage ≠ .done result := by simp [stage]
  unfold Call.advance
  simp only [stage]
  cases prepared : insertOf formats.codec call.event with
  | error cause => exact Advanced.failed unfinished cause
  | ok insert =>
    exact ⟨prepared, rfl, fun kept => absurd kept (not_kept unfinished), nofun, nofun⟩

theorem Advanced.exec {ids : List Bytes} {call : Call} {insert : Insert}
    (unfinished : ∀ result, call.stage ≠ .done result)
    (prepared : insertOf formats.codec call.event = .ok insert) (answer : Answer) :
    Advanced formats ids call (call.exec formats ids insert answer) := by
  cases answer with
  | answered =>
    refine ⟨trivial, rfl, fun kept => absurd kept (not_kept unfinished), ?_, ?_⟩
    · intro told
      exact .inr (execute_told (Stage.done.inj told))
    · intro row executed
      obtain ⟨ok, same, new⟩ := execute_row executed
      exact ⟨new, .inl (congrArg Stage.done ok), insert, prepared, same⟩
  | unsent cause => exact Advanced.failed unfinished _
  | lost cause reached =>
    refine ⟨trivial, rfl, fun kept => absurd kept (not_kept unfinished), nofun, ?_⟩
    intro row executed
    simp only [Call.exec] at executed
    split at executed
    · obtain ⟨_, same, new⟩ := execute_row executed
      exact ⟨new, .inr ⟨rfl, _, rfl⟩, insert, prepared, same⟩
    · cases executed

/-- One lemma for every statement of a call. -/
theorem advance_advanced (ids : List Bytes) {call : Call} (fits : call.Fits formats.codec)
    (step : CallStep) : Advanced formats ids call (call.advance formats ids step) := by
  cases stage : call.stage with
  | called =>
    cases step with
    | prepare => exact Advanced.prepare stage
    | exec answer =>
      unfold Call.advance
      simp only [stage]
      exact Advanced.still fits
  | sending insert =>
    cases step with
    | prepare =>
      unfold Call.advance
      simp only [stage]
      exact Advanced.still fits
    | exec answer =>
      rw [Call.Fits, stage] at fits
      unfold Call.advance
      simp only [stage]
      exact Advanced.exec (by simp [stage]) fits answer
  | done result =>
    unfold Call.advance
    simp only [stage]
    exact Advanced.still fits

/-- Where a row comes from. -/
def Trail.Sourced (formats : Formats) (t : Trail) (i : Nat) (row : Row) : Prop :=
  ∃ (call : Call) (insert : Insert), t.calls[i]? = some call ∧
    insertOf formats.codec call.event = .ok insert ∧ row = rowOf formats insert ∧ call.Kept

structure Inv (formats : Formats) (t : Trail) : Prop where
  fits : ∀ (i : Nat) (call : Call), t.calls[i]? = some call → call.Fits formats.codec
  distinct : t.ids.Nodup
  sourced : ∀ (i : Nat) (row : Row), (i, row) ∈ t.rows → t.Sourced formats i row
  told : ∀ (i : Nat) (call : Call), t.calls[i]? = some call → call.stage = .done (.ok ()) →
    ∃ row, (i, row) ∈ t.rows

theorem Inv.append (inv : Inv formats t) (event : Event) :
    Inv formats { t with calls := t.calls ++ [⟨event, .called, false⟩] } where
  fits := by
    intro i call found
    rcases getElem?_concat_cases found with old | ⟨_, rfl⟩
    · exact inv.fits i call old
    · trivial
  distinct := inv.distinct
  sourced := by
    intro i row mem
    obtain ⟨call, insert, found, source⟩ := inv.sourced i row mem
    have inside := (List.getElem?_eq_some_iff.mp found).1
    exact ⟨call, insert, (List.getElem?_append_left inside).trans found, source⟩
  told := by
    intro i call found done
    rcases getElem?_concat_cases found with old | ⟨_, rfl⟩
    · exact inv.told i call old done
    · cases done

theorem Inv.advance (inv : Inv formats t) {i : Nat} {call : Call}
    (found : t.calls[i]? = some call) {after : Call × Option Row}
    (advanced : Advanced formats t.ids call after) :
    Inv formats
      ⟨t.rows ++ (after.2.map fun row => (i, row)).toList, t.calls.set i after.1⟩ where
  fits := by
    intro j other found'
    rcases getElem?_set_cases found' with ⟨_, rfl⟩ | ⟨_, old⟩
    · exact advanced.fits
    · exact inv.fits j other old
  distinct := by
    cases added : after.2 with
    | none => simpa [Trail.ids] using inv.distinct
    | some row =>
      have new := (advanced.row row added).1
      simpa [Trail.ids] using List.Nodup.concat new inv.distinct
  sourced := by
    have inside := (List.getElem?_eq_some_iff.mp found).1
    intro j row mem
    rcases List.mem_append.mp mem with old | new
    · obtain ⟨other, insert, found', prepared, same, kept⟩ := inv.sourced j row old
      by_cases here : i = j
      · subst here
        rw [found] at found'
        cases found'
        exact ⟨after.1, insert, List.getElem?_set_self inside, advanced.event ▸ prepared, same,
          advanced.kept kept⟩
      · exact ⟨other, insert, (List.getElem?_set_ne here).trans found', prepared, same, kept⟩
    · obtain ⟨added, here, same⟩ := Option.map_eq_some_iff.mp (Option.mem_toList.mp new)
      cases same
      obtain ⟨_, kept, insert, prepared, same⟩ := advanced.row row here
      exact ⟨after.1, insert, List.getElem?_set_self inside, advanced.event ▸ prepared, same, kept⟩
  told := by
    intro j other found' done
    rcases getElem?_set_cases found' with ⟨rfl, rfl⟩ | ⟨_, old⟩
    · rcases advanced.told done with before | now
      · obtain ⟨row, mem⟩ := inv.told j call found before
        exact ⟨row, List.mem_append_left _ mem⟩
      · obtain ⟨row, added⟩ := Option.isSome_iff_exists.mp now
        exact ⟨row, List.mem_append_right _ (by simp [added])⟩
    · obtain ⟨row, mem⟩ := inv.told j other old done
      exact ⟨row, List.mem_append_left _ mem⟩

theorem Inv.step (inv : Inv formats t) (a : Action) :
    Inv formats (stepTrail formats t a) := by
  cases a with
  | append event => exact inv.append event
  | advance i step =>
    simp only [stepTrail]
    split
    · exact inv
    · rename_i call found
      exact inv.advance found (advance_advanced _ (inv.fits i call found) step)

theorem inv_empty (formats : Formats) : Inv formats Trail.empty := by
  refine ⟨?_, List.nodup_nil, ?_, ?_⟩
  · intro i call found
    cases found
  · intro i row mem
    cases mem
  · intro i call found
    cases found

theorem run_inv {legal : Trail → Action → Prop} {h : List (Action × Unit)}
    (run : Run (step formats) legal Trail.empty h t) : Inv formats t :=
  Run.invariant (P := fun _ t => Inv formats t) (inv_empty _)
    (fun _ _ a _ inv _ => inv.step a) run

theorem stepTrail_rows (t : Trail) (a : Action) : t.rows <+: (stepTrail formats t a).rows := by
  cases a with
  | append event => exact List.prefix_refl _
  | advance i step =>
    simp only [stepTrail]
    split
    · exact List.prefix_refl _
    · exact List.prefix_append _ _

theorem run_rows {legal : Trail → Action → Prop} {h : List (Action × Unit)} {later : Trail}
    (run : Run (step formats) legal t h later) : t.rows <+: later.rows :=
  Run.invariant (P := fun _ later => t.rows <+: later.rows) (List.prefix_refl _)
    (fun _ s a _ kept _ => kept.trans (stepTrail_rows s a)) run

theorem Trail.Sourced.call {i : Nat} {row : Row} (sourced : t.Sourced formats i row)
    {call : Call} (found : t.calls[i]? = some call) :
    call.Kept ∧
      ∃ insert, insertOf formats.codec call.event = .ok insert ∧ row = rowOf formats insert := by
  obtain ⟨other, insert, found', prepared, same, kept⟩ := sourced
  rw [found] at found'
  cases found'
  exact ⟨kept, insert, prepared, same⟩

end Runs

/-- In every run of calls of `Append`, rows are only added, at the end and under identities of
their own; each is the row of a validated event, with no sensitive member name and nothing more
than 16 levels deep. A call that returned without an error has added exactly one row, and one that
was told of a failure has added none. -/
theorem trail_append_only {formats : Formats} {legal : Trail → Action → Prop}
    {earlier later : Trail} {h h' : List (Action × Unit)}
    (first : Run (step formats) legal Trail.empty h earlier)
    (second : Run (step formats) legal earlier h' later) :
    earlier.rows <+: later.rows ∧ later.ids.Nodup ∧
    (∀ i row, (i, row) ∈ later.rows → Clean formats.codec row ∧ later.Sourced formats i row) ∧
    (∀ (i : Nat) (call : Call), later.calls[i]? = some call → call.stage = .done (.ok ()) →
      ∃! row, (i, row) ∈ later.rows) ∧
    ∀ (i : Nat) (call : Call) (cause : String), later.calls[i]? = some call →
      call.stage = .done (.error cause) → call.lost = false → ∀ row, (i, row) ∉ later.rows := by
  have inv := run_inv (first.trans second)
  refine ⟨run_rows second, inv.distinct, ?_, ?_, ?_⟩
  · intro i row mem
    have sourced := inv.sourced i row mem
    obtain ⟨_, insert, _, prepared, rfl, _⟩ := sourced
    exact ⟨clean_rowOf prepared, inv.sourced i _ mem⟩
  · intro i call found done
    obtain ⟨row, mem⟩ := inv.told i call found done
    refine ⟨row, mem, ?_⟩
    intro other mem'
    obtain ⟨_, insert, prepared, rfl⟩ := (inv.sourced i row mem).call found
    obtain ⟨_, insert', prepared', rfl⟩ := (inv.sourced i other mem').call found
    rw [prepared] at prepared'
    cases prepared'
    rfl
  · intro i call cause found failed told row mem
    rcases ((inv.sourced i row mem).call found).1 with done | ⟨lost, _⟩
    · rw [failed] at done
      cases done
    · rw [told] at lost
      cases lost

/-- The range is that of PostgreSQL, in microseconds since 1970. -/
def sampleFormats : Formats where
  codec := plainCodec
  jsonb := fun _ => none
  microseconds := fun time => time.unixSec * 1000000 + time.ns % second / 1000
  timestamptz := fun us => -210866803200000000 ≤ us ∧ us < 9224318016000000000

/-- One event twice, with a password below a member that a later one replaces. -/
def sampleActions : List Action :=
  [.append (sampleEvent repeatedMessage), .append (sampleEvent repeatedMessage),
    .advance 0 .prepare, .advance 1 .prepare, .advance 1 (.exec .answered),
    .advance 0 (.exec .answered)]

theorem trail_append_only_repeated :
    (play (step sampleFormats) Trail.empty sampleActions).2.rows.map
      (fun entry => (entry.1, entry.2.id)) = [(1, ascii "event-1")] ∧
    ∀ i row, (i, row) ∈ (play (step sampleFormats) Trail.empty sampleActions).2.rows →
      Clean plainCodec row := by
  have allowed : LegalPlay (step sampleFormats) (fun _ _ => True) Trail.empty sampleActions :=
    legalPlay_of_forall (fun _ _ _ => trivial) Trail.empty
  refine ⟨by decide +kernel, fun i row mem => ?_⟩
  exact ((trail_append_only .nil (Run.of_play allowed)).2.2.1 i row mem).1

/-- After an INSERT that was answered, the identity is in the table. -/
theorem mem_ids_answered {formats : Formats} {t : Trail} {i : Nat} {call : Call} {insert : Insert}
    (found : t.calls[i]? = some call) (stage : call.stage = .sending insert)
    (inserted : insertOf formats.codec call.event = .ok insert)
    (storable : Storable formats insert) :
    insert.id ∈ (stepTrail formats t (.advance i (.exec .answered))).ids := by
  have executed : (stepTrail formats t (.advance i (.exec .answered))).rows =
      t.rows ++ ((execute formats t.ids insert).2.map fun row => (i, row)).toList := by
    simp only [stepTrail, found, Call.advance, stage, Call.exec]
  rw [Trail.ids, executed, List.map_append, List.mem_append]
  by_cases old : insert.id ∈ t.ids
  · exact .inl old
  · rw [execute, refusal_storable inserted storable, if_neg old]
    exact .inr List.mem_cons_self

/-- A row under an identity is the only one. -/
theorem Inv.filter_id {formats : Formats} {t : Trail} (inv : Inv formats t) {id : Bytes}
    (stored : id ∈ t.ids) :
    ∃ i row, row.id = id ∧ t.Sourced formats i row ∧
      t.rows.filter (fun entry => entry.2.id = id) = [(i, row)] := by
  have once : (t.rows.filter fun entry => entry.2.id = id).length = 1 := by
    have count := List.count_eq_one_of_mem inv.distinct stored
    rw [Trail.ids, List.count, List.countP_map] at count
    rw [← List.countP_eq_length_filter, ← count]
    exact List.countP_congr fun entry _ => by simp
  obtain ⟨⟨i, row⟩, only⟩ := List.length_eq_one_iff.mp once
  have mem : (i, row) ∈ t.rows.filter fun entry => entry.2.id = id := by
    rw [only]
    exact List.mem_cons_self
  obtain ⟨inside, same⟩ := List.mem_filter.mp mem
  exact ⟨i, row, by simpa using same, inv.sourced i row inside, only⟩

/-- An event may be appended again and again, whatever became of the attempts before: from the
first INSERT on that is answered, exactly one row stands under its identity, and it is that of the
event. The types have to take the event, and the identity has to be its own. -/
theorem retries_store_once {formats : Formats} {legal : Trail → Action → Prop}
    {earlier later : Trail} {h h' : List (Action × Unit)} {i : Nat} {e : Event} {insert : Insert}
    {lost : Bool} (first : Run (step formats) legal Trail.empty h earlier)
    (found : earlier.calls[i]? = some ⟨e, .sending insert, lost⟩)
    (allowed : legal earlier (.advance i (.exec .answered)))
    (second : Run (step formats) legal (stepTrail formats earlier (.advance i (.exec .answered)))
      h' later)
    (storable : Storable formats insert)
    (own : ∀ call ∈ later.calls, call.event.id = e.id → call.event = e) :
    ∃ j, later.rows.filter (fun entry => entry.2.id = e.id) = [(j, rowOf formats insert)] := by
  have inserted : insertOf formats.codec e = .ok insert := (run_inv first).fits i _ found
  have inv : Inv formats later := run_inv ((first.snoc _ allowed).trans second)
  have same : insert.id = e.id := by
    obtain ⟨_, metadata, rfl⟩ := insertOf_ok inserted
    rfl
  have stored : e.id ∈ later.ids := by
    have answered := mem_ids_answered found rfl inserted storable
    rw [same] at answered
    exact ((run_rows second).map fun entry => entry.2.id).subset answered
  obtain ⟨j, row, id, ⟨call, insert', called, prepared, rfl, _⟩, only⟩ := inv.filter_id stored
  have again : call.event = e := by
    refine own call (List.mem_of_getElem? called) ?_
    obtain ⟨_, metadata, rfl⟩ := insertOf_ok prepared
    exact id
  rw [again, inserted] at prepared
  cases prepared
  exact ⟨j, only⟩

/-- Two attempts, the first of which is carried out although its answer is lost. -/
def sampleAttempts : List Action :=
  [.append (sampleEvent harmlessMessage), .append (sampleEvent harmlessMessage),
    .advance 0 .prepare, .advance 1 .prepare, .advance 0 (.exec (.lost "timeout" true))]

theorem retries_store_once_lost :
    ∃ insert, insertOf sampleFormats.codec (sampleEvent harmlessMessage) = .ok insert ∧
      ∃ j, (stepTrail sampleFormats (play (step sampleFormats) Trail.empty sampleAttempts).2
        (.advance 1 (.exec .answered))).rows.filter
          (fun entry => entry.2.id = (sampleEvent harmlessMessage).id) =
            [(j, rowOf sampleFormats insert)] := by
  have accepted : (insertOf sampleFormats.codec (sampleEvent harmlessMessage)).isOk = true := by
    decide +kernel
  cases inserted : insertOf sampleFormats.codec (sampleEvent harmlessMessage) with
  | error cause =>
    rw [inserted] at accepted
    cases accepted
  | ok insert =>
    refine ⟨insert, rfl, ?_⟩
    have allowed : LegalPlay (step sampleFormats) (fun _ _ => True) Trail.empty sampleAttempts :=
      legalPlay_of_forall (fun _ _ _ => trivial) Trail.empty
    have calls : (play (step sampleFormats) Trail.empty sampleAttempts).2.calls =
        [⟨sampleEvent harmlessMessage, .done (appendError "timeout"), true⟩,
          ⟨sampleEvent harmlessMessage, .sending insert, false⟩] := by
      simp [sampleAttempts, play, step, stepTrail, Trail.empty, Call.advance, inserted, Call.exec]
    refine retries_store_once (Run.of_play allowed) (i := 1) (by rw [calls]; rfl) trivial .nil ?_ ?_
    · have unbroken : ∀ text ∈ [(sampleEvent harmlessMessage).id,
          (sampleEvent harmlessMessage).actor, (sampleEvent harmlessMessage).action,
          (sampleEvent harmlessMessage).resource, (sampleEvent harmlessMessage).correlationID],
          0 ∉ text := by
        decide +kernel
      have inRange : sampleFormats.timestamptz
          (sampleFormats.microseconds (sampleEvent harmlessMessage).timestamp) = true := by
        decide +kernel
      obtain ⟨_, metadata, rfl⟩ := insertOf_ok inserted
      exact ⟨unbroken, inRange, rfl⟩
    · simp [stepTrail, calls, Call.advance, Call.exec]

-- A time almost three hundred thousand years from now is validated, and then refused.
example :
    (insertOf sampleFormats.codec { sampleEvent harmlessMessage with
      timestamp := ⟨(unixToInternal + 9300000000000) * second⟩ }).map
        (fun insert => refusal sampleFormats [] insert) = .ok (some .range) := by
  decide +kernel

end AuditTrail
