import StumpfworksFramework.EarlyReturns
import StumpfworksFramework.Instants
import StumpfworksFramework.Utf8Runes

/-!
# Looking up a directory user

`GetUser` with its two variables for the report, `outcome` and `stage`, assigned
apart from the results along a dozen early returns, and the deferred report that
reads them. A context ends once, at some instant and with one error; whether it
has ended is read again and again while time passes. What the directory answers
to dial, bind and search is arbitrary. How a deadline closes the connection is
not modelled, since it shows only in those answers; nor are the TLS settings.
-/

namespace DirectoryLookup

open ByteStrings EarlyReturns Instants Utf8Runes

/-! ## Contexts -/

inductive ContextError where
  | canceled
  | deadlineExceeded
  deriving DecidableEq, Repr

/-- A standard context, by the instant at which it ends and the error it has from then on. -/
structure Context where
  ending : Option (Nat × ContextError)
  deriving DecidableEq, Repr

def Context.err (ctx : Context) (now : Nat) : Option ContextError :=
  match ctx.ending with
  | none => none
  | some (instant, error) => if instant ≤ now then some error else none

/-- `context.WithTimeout`, whose timer fires at the instant `timer`: the derived context ends
with its parent or by the timer, whichever is first. -/
def Context.withTimeout (parent : Context) (timer : Nat) : Context :=
  match parent.ending with
  | none => ⟨some (timer, .deadlineExceeded)⟩
  | some (instant, error) =>
    if instant ≤ timer then ⟨some (instant, error)⟩ else ⟨some (timer, .deadlineExceeded)⟩

/-! ## Data -/

structure User where
  username : Bytes
  displayName : Bytes
  dn : Bytes
  mail : Bytes
  deriving DecidableEq, Repr

inductive LookupOutcome where
  | success
  | notFound
  | ambiguous
  | canceled
  | timeout
  | unavailable
  | invalidInput
  deriving DecidableEq, Repr

inductive LookupStage where
  | validation
  | connect
  | bind
  | search
  | result
  deriving DecidableEq, Repr

structure LookupObservation where
  outcome : LookupOutcome
  stage : LookupStage
  duration : Int
  deriving DecidableEq, Repr

inductive LookupError where
  | errUnavailable
  | errNotFound
  | errAmbiguous
  | context (error : ContextError)
  | other (text : String)
  deriving DecidableEq, Repr

/-- The results of `GetUser`; either may be nil. -/
abbrev Results := Option User × Option LookupError

inductive Scope where
  | baseObject
  | singleLevel
  | wholeSubtree
  deriving DecidableEq, Repr

inductive DerefAliases where
  | neverDerefAliases
  | derefInSearching
  | derefFindingBaseObj
  | derefAlways
  deriving DecidableEq, Repr

structure SearchRequest where
  baseDN : Bytes
  scope : Scope
  derefAliases : DerefAliases
  sizeLimit : Nat
  timeLimit : Int
  typesOnly : Bool
  filter : Bytes
  attributes : List Bytes
  deriving DecidableEq, Repr

structure Attribute where
  name : Bytes
  values : List Bytes
  deriving DecidableEq, Repr

structure Entry where
  dn : Bytes
  attributes : List Attribute
  deriving DecidableEq, Repr

structure SearchResult where
  entries : List Entry
  referrals : List Bytes
  deriving DecidableEq, Repr

/-- The first value of the first attribute of that name, or the empty string. -/
def Entry.getAttributeValue (entry : Entry) (name : Bytes) : Bytes :=
  match entry.attributes.find? (fun a => a.name == name) with
  | none => []
  | some a => a.values.headD []

/-- How a call of the observer comes to its end. -/
inductive Finish where
  | returned
  | panicked (value : String)
  deriving DecidableEq, Repr

/-- A reader with the parts of its configuration that a lookup uses. -/
structure Reader where
  baseDN : Bytes
  bindDN : Bytes
  bindPassword : Bytes
  timeout : Int
  observer : Option (LookupObservation → Finish)
  address : Bytes
  hostname : Bytes

/-- What surrounds one lookup. The instant of its `n`-th operation is `clock n`. -/
structure World where
  trimSpace : Bytes → Bytes
  escapeFilter : Bytes → Bytes
  clock : Nat → Nat
  forward : ∀ m n, m ≤ n → clock m ≤ clock n
  timer : Int → Nat
  dial : (address hostname : Bytes) → Except String Unit
  bind : (dn password : Bytes) → Except String Unit
  search : SearchRequest → Except String SearchResult
  started : Time
  finished : Time

inductive Event where
  | dial (address hostname : Bytes)
  | bind (dn password : Bytes)
  | search (request : SearchRequest)
  | contextErr (error : Option ContextError)
  | connClose
  | rawClose
  | observe (observation : LookupObservation)
  deriving DecidableEq, Repr

/-- The variables of a call, and what it has done so far. -/
structure Frame where
  outcome : LookupOutcome
  stage : LookupStage
  trace : List Event
  deriving DecidableEq, Repr

abbrev Lookup (α : Type) := Body Frame Results α

def setOutcome (outcome : LookupOutcome) : Lookup PUnit := .assign ({ · with outcome })

def setStage (stage : LookupStage) : Lookup PUnit := .assign ({ · with stage })

def Frame.log (f : Frame) (e : Event) : Frame := { f with trace := f.trace ++ [e] }

def perform {α : Type} (e : Event) (answer : α) : Lookup α := fun f => (.ok answer, f.log e)

/-! ## The lookup -/

section Lookup

variable (W : World) (r : Reader)

def userFilter (username : Bytes) : Bytes :=
  ascii "(&(objectCategory=person)(objectClass=user)" ++
    ascii "(!(userAccountControl:1.2.840.113556.1.4.803:=2))(sAMAccountName="
    ++ W.escapeFilter username ++ ascii "))"

def searchRequest (username : Bytes) : SearchRequest :=
  ⟨r.baseDN, .wholeSubtree, .neverDerefAliases, 2, r.timeout / second, false,
    userFilter W username, [ascii "sAMAccountName", ascii "displayName", ascii "mail"]⟩

def reject {α : Type} (text : String) : Lookup α := do
  setOutcome .invalidInput
  .exit (none, some (.other text))

def fail {α : Type} (error : LookupError) : Lookup α := .exit (none, some error)

/-- The username as it is searched for. -/
def checkedUsername (username : Bytes) : Lookup Bytes := do
  .onlyIf (username.length > 256 ∨ validUTF8 username = false) (reject "invalid directory username")
  .onlyIf (W.trimSpace username = [] ∨ 0 ∈ W.trimSpace username)
    (reject "invalid directory username")
  pure (W.trimSpace username)

/-- `ctx.Err()`. -/
def contextErr (ctx : Context) : Lookup (Option ContextError) := fun f =>
  (.ok (ctx.err (W.clock f.trace.length)), f.log (.contextErr (ctx.err (W.clock f.trace.length))))

/-- The block that follows dial, bind and search. The context is read three times. -/
def returnIfEnded (ctx : Context) : Lookup PUnit := do
  let ended ← contextErr W ctx
  .onlyIf (ended ≠ none) do
    let reason ← contextErr W ctx
    setOutcome (if reason = some .deadlineExceeded then .timeout else .canceled)
    let error ← contextErr W ctx
    .exit (none, error.map .context)

/-- The user of an entry; a missing display name is the username. -/
def Entry.user (entry : Entry) : User where
  username := entry.getAttributeValue (ascii "sAMAccountName")
  displayName :=
    if entry.getAttributeValue (ascii "displayName") = [] then
      entry.getAttributeValue (ascii "sAMAccountName")
    else entry.getAttributeValue (ascii "displayName")
  dn := entry.dn
  mail := entry.getAttributeValue (ascii "mail")

def conclude (result : SearchResult) : Lookup Results := do
  .onlyIf (result.entries = [] ∧ result.referrals ≠ []) (fail .errUnavailable)
  setStage .result
  match result.entries with
  | [] => do
    setOutcome .notFound
    fail .errNotFound
  | [entry] => do
    .onlyIf (entry.user.username = []) (fail .errUnavailable)
    setOutcome .success
    pure (some entry.user, none)
  | _ => do
    setOutcome .ambiguous
    fail .errAmbiguous

/-- The part of `GetUser` with a connection. -/
def converse (ctx : Context) (username : Bytes) : Lookup Results := do
  setStage .bind
  let bound ← perform (.bind r.bindDN r.bindPassword) (W.bind r.bindDN r.bindPassword)
  match bound with
  | .error _ => do
    returnIfEnded W ctx
    fail .errUnavailable
  | .ok () => do
    setStage .search
    let found ← perform (.search (searchRequest W r username))
      (W.search (searchRequest W r username))
    returnIfEnded W ctx
    match found with
    | .error _ => fail .errUnavailable
    | .ok result => conclude result

/-- The body of `GetUser`. The connection is closed twice, by `conn.Close` and `raw.Close`. -/
def body (ctx : Option Context) (username : Bytes) : Lookup Results :=
  match ctx with
  | none => reject "directory context required"
  | some parent => do
    let username ← checkedUsername W username
    let ctx := parent.withTimeout (W.timer r.timeout)
    setStage .connect
    let raw ← perform (.dial r.address r.hostname) (W.dial r.address r.hostname)
    match raw with
    | .error _ => do
      returnIfEnded W ctx
      fail .errUnavailable
    | .ok () =>
      .deferring (Frame.log · .rawClose) <| .deferring (Frame.log · .connClose) <|
        converse W r ctx username

/-- `recover` in a deferred call ends a panic. -/
def recovered : Finish → Finish
  | .returned => .returned
  | .panicked _ => .returned

structure Call where
  results : Option Results
  trace : List Event
  deriving DecidableEq, Repr

/-- `GetUser`; without results it panicked. -/
def getUser (ctx : Option Context) (username : Bytes) : Call :=
  let ended := Body.finish (body W r ctx username) ⟨.unavailable, .validation, []⟩
  match r.observer with
  | none => ⟨some ended.1, ended.2.trace⟩
  | some observer =>
    let observation : LookupObservation :=
      ⟨ended.2.outcome, ended.2.stage, W.finished.sub W.started⟩
    match recovered (observer observation) with
    | .returned => ⟨some ended.1, ended.2.trace ++ [.observe observation]⟩
    | .panicked _ => ⟨none, ended.2.trace ++ [.observe observation]⟩

end Lookup

end DirectoryLookup
