import StumpfworksFramework.FiniteMaps
import StumpfworksFramework.MigrationFiles

/-!
# Applying migrations

`Apply` as a system of calls against one PostgreSQL server. Each call takes its
statements one at a time, in any interleaving with the others, and any of them
may fail. A transaction's effects become visible when the server commits it and
not before; the advisory lock has at most one holder and is released when the
holder's transaction ends; the version is a primary key.

What the migrations themselves change is represented by the sequence of the
migrations whose SQL was committed. The time of application is left out, and
so are statements that other programs send to the same database.
-/

namespace MigrationRuns

open ByteStrings FiniteMaps MigrationFiles

/-- A row of `swf_schema_migrations`. -/
structure Row where
  version : Int
  name : Bytes
  checksum : Bytes
  deriving DecidableEq, Repr

def rowOf (m : Migration) : Row := ⟨m.version, m.name, m.checksum⟩

def versions (rows : List Row) : List Int := rows.map Row.version

/-- What is committed. `history` has the migrations whose SQL was committed, in the order
of execution, each with the call that executed it. -/
structure Database where
  tableExists : Bool
  rows : List Row
  history : List (Nat × Migration)
  deriving DecidableEq, Repr

/-- Where a call stands. `failing` is the return with an error while the transaction is
still open, up to the deferred rollback. -/
inductive Stage where
  | called
  | begun
  | locked
  | ready
  | looping (applied : FiniteMap Int Bytes) (rest : List Migration)
  | recording (applied : FiniteMap Int Bytes) (migration : Migration) (rest : List Migration)
  | failing (error : String)
  | done (result : Except String Unit)

def Stage.result : Stage → Option (Except String Unit)
  | .done result => some result
  | _ => none

/-- Between the lock and the end of the loop. -/
def Stage.Holding : Stage → Prop
  | .locked | .ready | .looping _ _ | .recording _ _ _ => True
  | _ => False

/-- A call of `Apply` with the rows its transaction inserted, the migrations whose SQL it
sent to the server, and whether the server committed its transaction. -/
structure Call where
  migrations : List Migration
  stage : Stage
  inserted : List Row
  executed : List Migration
  committed : Bool

inductive ReadFailure where
  | query (cause : String)
  | scan (cause : String)
  | rows (cause : String)

def ReadFailure.error : ReadFailure → String
  | .query cause | .rows cause => "read migration state: " ++ cause
  | .scan cause => "scan migration state: " ++ cause

/-- How a commit ends: with the server's answer, with the answer lost after the server has
committed, or without effect. -/
inductive CommitOutcome where
  | answered
  | lost (cause : String)
  | failed (cause : String)

/-- The statements of a call, each with the failure it meets, if any. -/
inductive CallStep where
  | begin (failure : Option String)
  | lock (failure : Option String)
  | createTable (failure : Option String)
  | readState (failure : Option ReadFailure)
  | migrate (failure : Option String)
  | record (failure : Option String)
  | commit (outcome : CommitOutcome)
  | rollback

def duplicateKey : String :=
  "ERROR: duplicate key value violates unique constraint " ++
    "\"swf_schema_migrations_pkey\" (SQLSTATE 23505)"

/-- The map `applied`, filled row by row. -/
def appliedOf (rows : List Row) : FiniteMap Int Bytes :=
  rows.foldl (fun applied r => applied.insert r.version r.checksum) ∅

structure Server where
  db : Database
  holder : Option Nat
  calls : List Call

def Server.empty : Server := ⟨⟨false, [], []⟩, none, []⟩

def Call.fail (call : Call) (error : String) : Call := { call with stage := .failing error }

/-- The database after the commit of call `i`. -/
def Database.commit (db : Database) (i : Nat) (call : Call) : Database where
  tableExists := true
  rows := db.rows ++ call.inserted
  history := db.history ++ call.executed.map fun m => (i, m)

/-- One iteration of the loop, up to the insertion of the row. -/
def Call.migrate (call : Call) (applied : FiniteMap Int Bytes) (migration : Migration)
    (rest : List Migration) (failure : Option String) : Call :=
  match applied.lookup migration.version with
  | some checksum =>
    if checksum ≠ migration.checksum then
      call.fail ("migration " ++ toString migration.version ++ " checksum changed")
    else { call with stage := .looping applied rest }
  | none =>
    let call := { call with executed := call.executed ++ [migration] }
    match failure with
    | some cause => call.fail ("apply migration " ++ toString migration.version ++ ": " ++ cause)
    | none => { call with stage := .recording applied migration rest }

/-- The insertion of a row. The map `applied` is not updated. -/
def Call.record (call : Call) (rows : List Row) (applied : FiniteMap Int Bytes)
    (migration : Migration) (rest : List Migration) (failure : Option String) : Call :=
  match failure with
  | some cause => call.fail ("record migration " ++ toString migration.version ++ ": " ++ cause)
  | none =>
    if migration.version ∈ versions (rows ++ call.inserted) then
      call.fail ("record migration " ++ toString migration.version ++ ": " ++ duplicateKey)
    else { call with
      stage := .looping applied rest
      inserted := call.inserted ++ [rowOf migration] }

/-- One statement of call `i`. A statement that the call has not come to, and a lock that
another transaction holds, change nothing. -/
def advance (db : Database) (holder : Option Nat) (i : Nat) (call : Call) (step : CallStep) :
    Database × Option Nat × Call :=
  match call.stage, step with
  | .called, .begin none => (db, holder, { call with stage := .begun })
  | .called, .begin (some cause) =>
    (db, holder, { call with stage := .done (.error ("begin migrations: " ++ cause)) })
  | .begun, .lock none =>
    if holder = none then (db, some i, { call with stage := .locked }) else (db, holder, call)
  | .begun, .lock (some cause) => (db, holder, call.fail ("lock migrations: " ++ cause))
  | .locked, .createTable none => (db, holder, { call with stage := .ready })
  | .locked, .createTable (some cause) =>
    (db, holder, call.fail ("create migration table: " ++ cause))
  | .ready, .readState none =>
    (db, holder, { call with stage := .looping (appliedOf db.rows) call.migrations })
  | .ready, .readState (some failure) => (db, holder, call.fail failure.error)
  | .looping applied (migration :: rest), .migrate failure =>
    (db, holder, call.migrate applied migration rest failure)
  | .recording applied migration rest, .record failure =>
    (db, holder, call.record db.rows applied migration rest failure)
  | .looping _ [], .commit .answered =>
    (db.commit i call, none, { call with stage := .done (.ok ()), committed := true })
  | .looping _ [], .commit (.lost cause) =>
    (db.commit i call, none,
      { call with stage := .done (.error ("commit migrations: " ++ cause)), committed := true })
  | .looping _ [], .commit (.failed cause) =>
    (db, none, { call with stage := .done (.error ("commit migrations: " ++ cause)) })
  | .failing error, .rollback =>
    (db, if holder = some i then none else holder, { call with stage := .done (.error error) })
  | _, _ => (db, holder, call)

inductive Action where
  | apply (hasPool : Bool) (migrations : List Migration)
  | advance (call : Nat) (step : CallStep)

/-- A new call of `Apply`. -/
def enter (hasPool : Bool) (migrations : List Migration) : Call where
  migrations := migrations
  stage := if hasPool = true then .called else .done (.error "PostgreSQL pool is required")
  inserted := []
  executed := []
  committed := false

theorem enter_outside (hasPool : Bool) (migrations : List Migration) :
    ¬ (enter hasPool migrations).stage.Holding := by
  cases hasPool <;> exact not_false

/-- One action of the system, with what a call returns if it returns now. -/
def step (s : Server) : Action → Server × Option (Except String Unit)
  | .apply hasPool migrations =>
    let call := enter hasPool migrations
    ({ s with calls := s.calls ++ [call] }, call.stage.result)
  | .advance i step =>
    match s.calls[i]? with
    | none => (s, none)
    | some call =>
      let (db, holder, call') := MigrationRuns.advance s.db s.holder i call step
      (⟨db, holder, s.calls.set i call'⟩,
        if call.stage.result.isSome then none else call'.stage.result)

/-! ## What a statement can do -/

/-- The ways a statement of call `i` can change the database, the lock and the call. -/
inductive Advanced (db : Database) (holder : Option Nat) (i : Nat) (call : Call) :
    Database → Option Nat → Call → Prop where
  | idle : Advanced db holder i call db holder call
  | refused (stage : call.stage = .called) (error : String) :
    Advanced db holder i call db holder { call with stage := .done (.error error) }
  | begun (stage : call.stage = .called) :
    Advanced db holder i call db holder { call with stage := .begun }
  | locked (stage : call.stage = .begun) (free : holder = none) :
    Advanced db holder i call db (some i) { call with stage := .locked }
  | ready (stage : call.stage = .locked) :
    Advanced db holder i call db holder { call with stage := .ready }
  | read (stage : call.stage = .ready) :
    Advanced db holder i call db holder
      { call with stage := .looping (appliedOf db.rows) call.migrations }
  | skipped {applied : FiniteMap Int Bytes} {m : Migration} {rest : List Migration}
    (stage : call.stage = .looping applied (m :: rest))
    (same : applied.lookup m.version = some m.checksum) :
    Advanced db holder i call db holder { call with stage := .looping applied rest }
  | executed {applied : FiniteMap Int Bytes} {m : Migration} {rest : List Migration}
    (stage : call.stage = .looping applied (m :: rest))
    (pending : applied.lookup m.version = none) (stage' : Stage)
    (next : stage' = .recording applied m rest ∨ ∃ error, stage' = .failing error) :
    Advanced db holder i call db holder
      { call with executed := call.executed ++ [m], stage := stage' }
  | recorded {applied : FiniteMap Int Bytes} {m : Migration} {rest : List Migration}
    (stage : call.stage = .recording applied m rest)
    (fresh : m.version ∉ versions (db.rows ++ call.inserted)) :
    Advanced db holder i call db holder
      { call with stage := .looping applied rest, inserted := call.inserted ++ [rowOf m] }
  | failed (live : call.stage = .begun ∨ call.stage.Holding) (error : String) :
    Advanced db holder i call db holder (call.fail error)
  | committed {applied : FiniteMap Int Bytes} (stage : call.stage = .looping applied [])
    (result : Except String Unit)
    (answer : result = .ok () ∨ ∃ cause, result = .error ("commit migrations: " ++ cause)) :
    Advanced db holder i call (db.commit i call) none
      { call with stage := .done result, committed := true }
  | abandoned {applied : FiniteMap Int Bytes} (stage : call.stage = .looping applied [])
    (error : String) :
    Advanced db holder i call db none { call with stage := .done (.error error) }
  | rolledBack {error : String} (stage : call.stage = .failing error) :
    Advanced db holder i call db (if holder = some i then none else holder)
      { call with stage := .done (.error error) }

section Inversion

variable {db : Database} {holder : Option Nat} {i : Nat} {call : Call}

theorem migrate_advanced {applied : FiniteMap Int Bytes} {m : Migration} {rest : List Migration}
    (stage : call.stage = .looping applied (m :: rest)) (failure : Option String) :
    Advanced db holder i call db holder (call.migrate applied m rest failure) := by
  unfold Call.migrate
  split
  · rename_i checksum found
    split
    · exact .failed (.inr (by rw [stage]; trivial)) _
    · rename_i same
      rw [not_not] at same
      exact .skipped stage (same ▸ found)
  · rename_i pending
    cases failure with
    | some cause => exact .executed stage pending _ (.inr ⟨_, rfl⟩)
    | none => exact .executed stage pending _ (.inl rfl)

theorem record_advanced {applied : FiniteMap Int Bytes} {m : Migration} {rest : List Migration}
    (stage : call.stage = .recording applied m rest) (failure : Option String) :
    Advanced db holder i call db holder (call.record db.rows applied m rest failure) := by
  have live : call.stage = .begun ∨ call.stage.Holding := .inr (by rw [stage]; trivial)
  unfold Call.record
  split
  · exact .failed live _
  · split
    · exact .failed live _
    · rename_i fresh
      exact .recorded stage fresh

theorem advance_advanced (db : Database) (holder : Option Nat) (i : Nat) (call : Call)
    (step : CallStep) :
    Advanced db holder i call (advance db holder i call step).1
      (advance db holder i call step).2.1 (advance db holder i call step).2.2 := by
  unfold advance
  split
  · exact .begun ‹_›
  · exact .refused ‹_› _
  · split
    · exact .locked ‹_› ‹_›
    · exact .idle
  · exact .failed (.inl ‹_›) _
  · exact .ready ‹_›
  · rename_i stage
    exact .failed (.inr (by rw [stage]; trivial)) _
  · exact .read ‹_›
  · rename_i stage
    exact .failed (.inr (by rw [stage]; trivial)) _
  · exact migrate_advanced ‹_› _
  · exact record_advanced ‹_› _
  · exact .committed ‹_› _ (.inl rfl)
  · exact .committed ‹_› _ (.inr ⟨_, rfl⟩)
  · exact .abandoned ‹_› _
  · exact .rolledBack ‹_›
  · exact .idle

end Inversion

section Effects

variable {db db' : Database} {holder holder' : Option Nat} {i j : Nat} {call call' : Call}

/-- The database changes at a commit only. -/
theorem Advanced.db_cases (advanced : Advanced db holder i call db' holder' call') :
    db' = db ∨
      (∃ applied, call.stage = .looping applied []) ∧ db' = db.commit i call ∧
        call'.committed = true := by
  cases advanced with
  | committed stage result answer => exact Or.inr ⟨⟨_, stage⟩, rfl, rfl⟩
  | _ => exact Or.inl rfl

theorem Advanced.committed_mono (advanced : Advanced db holder i call db' holder' call')
    (committed : call.committed = true) : call'.committed = true := by
  cases advanced with
  | committed stage result answer => rfl
  | _ => exact committed

theorem Advanced.migrations_eq (advanced : Advanced db holder i call db' holder' call') :
    call'.migrations = call.migrations := by
  cases advanced <;> rfl

/-- Whoever is past the lock holds it. -/
theorem Advanced.holds (advanced : Advanced db holder i call db' holder' call')
    (before : call.stage.Holding → holder = some i) (after : call'.stage.Holding) :
    holder' = some i := by
  cases advanced with
  | idle => exact before after
  | refused => exact after.elim
  | begun => exact after.elim
  | locked => rfl
  | ready stage => exact before (by rw [stage]; trivial)
  | read stage => exact before (by rw [stage]; trivial)
  | skipped stage => exact before (by rw [stage]; trivial)
  | executed stage => exact before (by rw [stage]; trivial)
  | recorded stage => exact before (by rw [stage]; trivial)
  | failed => exact after.elim
  | committed => exact after.elim
  | abandoned => exact after.elim
  | rolledBack => exact after.elim

/-- A statement never takes the lock from another call. -/
theorem Advanced.leaves (advanced : Advanced db holder i call db' holder' call')
    (before : call.stage.Holding → holder = some i) (other : j ≠ i)
    (theirs : holder = some j) : holder' = some j := by
  have outside : ¬ call.stage.Holding := by
    intro holding
    rw [before holding] at theirs
    exact other (Option.some.inj theirs).symm
  cases advanced with
  | locked stage free =>
    rw [free] at theirs
    cases theirs
  | committed stage result answer => exact absurd (by rw [stage]; trivial) outside
  | abandoned stage => exact absurd (by rw [stage]; trivial) outside
  | rolledBack stage =>
    rw [if_neg]
    · exact theirs
    · rw [theirs]
      exact fun same => other (Option.some.inj same)
  | _ => exact theirs

end Effects

/-- The ways an action can change the server. -/
inductive Change (s : Server) : Action → Server → Prop where
  | quiet (a : Action) : Change s a s
  | enters (hasPool : Bool) (migrations : List Migration) :
    Change s (.apply hasPool migrations)
      { s with calls := s.calls ++ [enter hasPool migrations] }
  | advances {i : Nat} {call call' : Call} {db : Database} {holder : Option Nat}
    (here : s.calls[i]? = some call) (advanced : Advanced s.db s.holder i call db holder call')
    (statement : CallStep) :
    Change s (.advance i statement) ⟨db, holder, s.calls.set i call'⟩

theorem step_change (s : Server) (a : Action) : Change s a (step s a).1 := by
  cases a with
  | apply hasPool migrations => exact .enters hasPool migrations
  | advance i statement =>
    rw [step]
    split
    · exact .quiet _
    · exact .advances ‹_› (advance_advanced _ _ _ _ _) statement

end MigrationRuns
