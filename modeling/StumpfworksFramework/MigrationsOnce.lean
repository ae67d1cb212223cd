import StumpfworksFramework.MigrationRuns
import StumpfworksFramework.Runs

/-!
# Migrations run at most once

Seen from outside, a call of `Apply` does one thing: when the server commits
it, everything of its list that was not recorded is executed and recorded at
once. The invariant follows a call through its loop and says what it has found
and prepared so far, relative to the rows that were committed when it took the
lock; no other call can change them while it holds it.
-/

namespace MigrationsOnce

open ByteStrings FiniteMaps MigrationFiles MigrationRuns Runs

/-! ## The atomic step -/

/-- The migrations of a list whose versions are not recorded, in the order of the list. -/
def pending (rows : List Row) (migrations : List Migration) : List Migration :=
  migrations.filter fun m => m.version ∉ versions rows

def Recorded (rows : List Row) (m : Migration) : Prop :=
  ∃ r ∈ rows, r.version = m.version ∧ r.checksum = m.checksum

/-- A list may be applied to the rows: what is recorded of it has its checksum, and no
pending version is repeated. -/
structure Applicable (rows : List Row) (migrations : List Migration) : Prop where
  settled : ∀ m ∈ migrations, m.version ∈ versions rows → Recorded rows m
  distinct : ((pending rows migrations).map Migration.version).Nodup

/-- All pending migrations of a list executed and recorded at once. -/
def applyAll (db : Database) (i : Nat) (migrations : List Migration) : Database where
  tableExists := true
  rows := db.rows ++ (pending db.rows migrations).map rowOf
  history := db.history ++ (pending db.rows migrations).map fun m => (i, m)

theorem Recorded.mono {rows rows' : List Row} {m : Migration} (recorded : Recorded rows m)
    (subset : rows ⊆ rows') : Recorded rows' m := by
  obtain ⟨r, mem, same⟩ := recorded
  exact ⟨r, subset mem, same⟩

theorem Recorded.version_mem {rows : List Row} {m : Migration} (recorded : Recorded rows m) :
    m.version ∈ versions rows := by
  obtain ⟨r, mem, same, _⟩ := recorded
  exact List.mem_map.mpr ⟨r, mem, same⟩

theorem mem_pending {rows : List Row} {migrations : List Migration} {m : Migration} :
    m ∈ pending rows migrations ↔ m ∈ migrations ∧ m.version ∉ versions rows := by
  simp [pending]

theorem pending_sublist (rows : List Row) (migrations : List Migration) :
    (pending rows migrations).Sublist migrations :=
  List.filter_sublist

theorem pending_concat_recorded {rows : List Row} (past : List Migration) {m : Migration}
    (known : m.version ∈ versions rows) : pending rows (past ++ [m]) = pending rows past := by
  simp [pending, known]

theorem pending_concat_new {rows : List Row} (past : List Migration) {m : Migration}
    (new : m.version ∉ versions rows) : pending rows (past ++ [m]) = pending rows past ++ [m] := by
  simp [pending, new]

theorem versions_map_rowOf (migrations : List Migration) :
    versions (migrations.map rowOf) = migrations.map Migration.version := by
  simp [versions, Function.comp_def, rowOf]

theorem versions_append (rows rows' : List Row) :
    versions (rows ++ rows') = versions rows ++ versions rows' :=
  List.map_append

theorem Applicable.nil (rows : List Row) : Applicable rows [] :=
  ⟨by simp, by simp [pending]⟩

theorem Applicable.concat_recorded {rows : List Row} {past : List Migration} {m : Migration}
    (applicable : Applicable rows past) (recorded : Recorded rows m) :
    Applicable rows (past ++ [m]) := by
  constructor
  · exact forall_mem_concat applicable.settled fun _ => recorded
  · rw [pending_concat_recorded _ recorded.version_mem]
    exact applicable.distinct

theorem Applicable.concat_new {rows : List Row} {past : List Migration} {m : Migration}
    (applicable : Applicable rows past) (new : m.version ∉ versions rows)
    (fresh : m.version ∉ (pending rows past).map Migration.version) :
    Applicable rows (past ++ [m]) := by
  constructor
  · exact forall_mem_concat applicable.settled fun known => absurd known new
  · rw [pending_concat_new _ new, List.map_append, List.nodup_append]
    refine ⟨applicable.distinct, List.nodup_singleton _, ?_⟩
    intro v old v' last same
    have repeated : v = m.version := same.trans (List.mem_singleton.mp last)
    exact fresh (repeated ▸ old)

/-- Versions stay distinct. -/
theorem Applicable.rows_distinct {db : Database} {migrations : List Migration}
    (applicable : Applicable db.rows migrations) (distinct : (versions db.rows).Nodup) (i : Nat) :
    (versions (applyAll db i migrations).rows).Nodup := by
  rw [applyAll, versions_append, versions_map_rowOf, List.nodup_append]
  refine ⟨distinct, applicable.distinct, ?_⟩
  intro v old v' new same
  obtain ⟨m, mem, rfl⟩ := List.mem_map.mp new
  exact (mem_pending.mp mem).2 (same ▸ old)

/-- Everything of the list is recorded afterwards. -/
theorem Applicable.all_recorded {db : Database} {migrations : List Migration}
    (applicable : Applicable db.rows migrations) (i : Nat) {m : Migration}
    (mem : m ∈ migrations) : Recorded (applyAll db i migrations).rows m := by
  by_cases known : m.version ∈ versions db.rows
  · exact (applicable.settled m mem known).mono (List.subset_append_left _ _)
  · have new : rowOf m ∈ (pending db.rows migrations).map rowOf :=
      List.mem_map_of_mem (mem_pending.mpr ⟨mem, known⟩)
    exact ⟨rowOf m, List.mem_append_right _ new, rfl, rfl⟩

/-! ## What a call has prepared -/

/-- The map `applied` has the recorded checksums. -/
def Agrees (applied : FiniteMap Int Bytes) (rows : List Row) : Prop :=
  ∀ v c, applied.lookup v = some c ↔ ∃ r ∈ rows, r.version = v ∧ r.checksum = c

theorem agrees_appliedOf {rows : List Row} (distinct : (versions rows).Nodup) :
    Agrees (appliedOf rows) rows := by
  induction rows using List.reverseRecOn with
  | nil =>
    intro v c
    simp [appliedOf]
  | append_singleton rows last ih =>
    rw [versions_append, List.nodup_append] at distinct
    obtain ⟨before, _, apart⟩ := distinct
    intro v c
    have filled : appliedOf (rows ++ [last]) =
        (appliedOf rows).insert last.version last.checksum := by
      simp [appliedOf]
    rw [filled, lookup_insert_eq_some_iff, ih before v c]
    constructor
    · rintro (⟨here, value⟩ | ⟨_, r, mem, found⟩)
      · exact ⟨last, by simp, here.symm, value⟩
      · exact ⟨r, List.mem_append_left _ mem, found⟩
    · rintro ⟨r, mem, here, value⟩
      rcases List.mem_append.mp mem with old | new
      · have elsewhere : r.version ≠ last.version :=
          apart _ (List.mem_map_of_mem old) _ (by simp [versions])
        exact Or.inr ⟨here ▸ elsewhere, r, old, here, value⟩
      · rw [List.mem_singleton.mp new] at here value
        exact Or.inl ⟨here.symm, value⟩

theorem Agrees.recorded {applied : FiniteMap Int Bytes} {rows : List Row} {m : Migration}
    (agrees : Agrees applied rows) (found : applied.lookup m.version = some m.checksum) :
    Recorded rows m :=
  (agrees _ _).mp found

theorem Agrees.new {applied : FiniteMap Int Bytes} {rows : List Row} {m : Migration}
    (agrees : Agrees applied rows) (absent : applied.lookup m.version = none) :
    m.version ∉ versions rows := by
  intro known
  obtain ⟨r, mem, same⟩ := List.mem_map.mp known
  have found := (agrees m.version r.checksum).mpr ⟨r, mem, same, rfl⟩
  rw [absent] at found
  cases found

/-- What is known of a call at each stage, given the committed rows. -/
def Progress (rows : List Row) (call : Call) : Prop :=
  match call.stage with
  | .called | .begun | .locked | .ready =>
    call.executed = [] ∧ call.inserted = [] ∧ call.committed = false
  | .looping applied rest =>
    call.committed = false ∧ Agrees applied rows ∧ ∃ past, call.migrations = past ++ rest ∧
      Applicable rows past ∧ call.inserted = (pending rows past).map rowOf ∧
      call.executed = pending rows past
  | .recording applied m rest =>
    call.committed = false ∧ Agrees applied rows ∧ ∃ past, call.migrations = past ++ m :: rest ∧
      Applicable rows past ∧ call.inserted = (pending rows past).map rowOf ∧
      call.executed = pending rows past ++ [m] ∧ m.version ∉ versions rows
  | .failing _ => call.committed = false ∧ call.executed.Sublist call.migrations
  | .done result =>
    call.executed.Sublist call.migrations ∧
      (result = .ok () → call.committed = true ∧ ∀ m ∈ call.migrations, Recorded rows m) ∧
      (call.committed = true →
        result = .ok () ∨ ∃ cause, result = .error ("commit migrations: " ++ cause))

section Progress

variable {db db' : Database} {holder holder' : Option Nat} {i : Nat} {call call' : Call}
  {rows rows' : List Row}

theorem sublist_past {past rest : List Migration} {m : Migration} :
    (pending rows past ++ [m]).Sublist (past ++ m :: rest) :=
  (pending_sublist rows past).append (by simp)

theorem Progress.sublist (progress : Progress rows call) :
    call.executed.Sublist call.migrations := by
  unfold Progress at progress
  split at progress
  case h_5 =>
    obtain ⟨_, _, past, list, _, _, executed⟩ := progress
    rw [list, executed]
    exact (pending_sublist rows past).trans (List.sublist_append_left _ _)
  case h_6 =>
    obtain ⟨_, _, past, list, _, _, executed, _⟩ := progress
    rw [list, executed]
    exact sublist_past
  case h_7 => exact progress.2
  case h_8 => exact progress.1
  -- before the loop nothing was sent
  all_goals
    rw [progress.1]
    exact List.nil_sublist _

theorem Progress.uncommitted (progress : Progress rows call)
    (live : call.stage = .begun ∨ call.stage.Holding) : call.committed = false := by
  unfold Progress at progress
  split at progress
  case h_5 => exact progress.1
  case h_6 => exact progress.1
  case h_7 => exact progress.1
  case h_8 stage =>
    rw [stage] at live
    rcases live with begun | holding
    · cases begun
    · exact holding.elim
  all_goals exact progress.2.2

theorem done_error {error : String} (sublist : call.executed.Sublist call.migrations)
    (uncommitted : call.committed = false) :
    Progress rows { call with stage := .done (.error error) } := by
  refine ⟨sublist, ?_, ?_⟩
  · intro ok
    cases ok
  · intro committed
    cases uncommitted.symm.trans committed

/-- A call outside the lock keeps its account when rows are added. -/
theorem Progress.mono (progress : Progress rows call) (outside : ¬ call.stage.Holding)
    (subset : rows ⊆ rows') : Progress rows' call := by
  unfold Progress at progress ⊢
  split at progress <;> rename_i stage <;> rw [stage] at outside
  · exact progress
  · exact progress
  · exact absurd trivial outside
  · exact absurd trivial outside
  · exact absurd trivial outside
  · exact absurd trivial outside
  · exact progress
  · obtain ⟨sublist, succeeded, answered⟩ := progress
    refine ⟨sublist, fun ok => ⟨(succeeded ok).1, fun m mem => ?_⟩, answered⟩
    exact ((succeeded ok).2 m mem).mono subset

/-- Only a call that came to its commit can be committed. -/
theorem Progress.answered (progress : Progress rows call) (committed : call.committed = true) :
    call.stage = .done (.ok ()) ∨
      ∃ cause, call.stage = .done (.error ("commit migrations: " ++ cause)) := by
  unfold Progress at progress
  split at progress
  case h_8 stage =>
    rcases progress.2.2 committed with rfl | ⟨cause, rfl⟩
    · exact Or.inl stage
    · exact Or.inr ⟨cause, stage⟩
  case h_5 => cases progress.1.symm.trans committed
  case h_6 => cases progress.1.symm.trans committed
  case h_7 => cases progress.1.symm.trans committed
  all_goals cases progress.2.2.symm.trans committed

theorem Progress.succeeded (progress : Progress rows call) (ok : call.stage = .done (.ok ())) :
    ∀ m ∈ call.migrations, Recorded rows m := by
  rw [Progress, ok] at progress
  exact (progress.2.1 rfl).2

/-- At the end of the loop the commit is the atomic step. -/
theorem Progress.commit {applied : FiniteMap Int Bytes} (progress : Progress db.rows call)
    (stage : call.stage = .looping applied []) (i : Nat) :
    Applicable db.rows call.migrations ∧ call.executed = pending db.rows call.migrations ∧
      db.commit i call = applyAll db i call.migrations := by
  rw [Progress, stage] at progress
  obtain ⟨_, _, past, list, applicable, inserted, executed⟩ := progress
  rw [List.append_nil] at list
  subst list
  refine ⟨applicable, executed, ?_⟩
  rw [Database.commit, inserted, executed, applyAll]

/-- A statement keeps the account of its call. -/
theorem Progress.advanced (progress : Progress db.rows call)
    (distinct : (versions db.rows).Nodup)
    (advanced : Advanced db holder i call db' holder' call') : Progress db'.rows call' := by
  cases advanced with
  | idle => exact progress
  | refused stage error =>
    have sublist := progress.sublist
    rw [Progress, stage] at progress
    exact done_error sublist progress.2.2
  | begun stage =>
    rw [Progress, stage] at progress
    exact progress
  | locked stage _ =>
    rw [Progress, stage] at progress
    exact progress
  | ready stage =>
    rw [Progress, stage] at progress
    exact progress
  | read stage =>
    rw [Progress, stage] at progress
    obtain ⟨executed, inserted, uncommitted⟩ := progress
    exact ⟨uncommitted, agrees_appliedOf distinct, [], rfl, Applicable.nil _, inserted, executed⟩
  | @skipped applied m rest stage same =>
    rw [Progress, stage] at progress
    obtain ⟨uncommitted, agrees, past, list, applicable, inserted, executed⟩ := progress
    have recorded := agrees.recorded same
    have unchanged := pending_concat_recorded past recorded.version_mem
    refine ⟨uncommitted, agrees, past ++ [m], ?_, applicable.concat_recorded recorded, ?_, ?_⟩
    · rw [list, List.append_assoc, List.singleton_append]
    · rw [unchanged]
      exact inserted
    · rw [unchanged]
      exact executed
  | @executed applied m rest stage absent stage' next =>
    rw [Progress, stage] at progress
    obtain ⟨uncommitted, agrees, past, list, applicable, inserted, executed⟩ := progress
    rcases next with rfl | ⟨error, rfl⟩
    · refine ⟨uncommitted, agrees, past, list, applicable, inserted, ?_, agrees.new absent⟩
      exact congrArg (· ++ [m]) executed
    · refine ⟨uncommitted, ?_⟩
      show (call.executed ++ [m]).Sublist call.migrations
      rw [executed, list]
      exact sublist_past
  | @recorded applied m rest stage fresh =>
    rw [Progress, stage] at progress
    obtain ⟨uncommitted, agrees, past, list, applicable, inserted, executed, new⟩ := progress
    rw [versions_append, inserted, versions_map_rowOf, List.mem_append, not_or] at fresh
    have extended := pending_concat_new past new
    refine ⟨uncommitted, agrees, past ++ [m], ?_, applicable.concat_new new fresh.2, ?_, ?_⟩
    · rw [list, List.append_assoc, List.singleton_append]
    · rw [extended, List.map_append, ← inserted]
      rfl
    · rw [extended]
      exact executed
  | failed live error => exact ⟨progress.uncommitted live, progress.sublist⟩
  | @committed applied stage result answer =>
    obtain ⟨applicable, _, atomic⟩ := progress.commit stage i
    refine ⟨progress.sublist, fun _ => ⟨rfl, fun m mem => ?_⟩, fun _ => answer⟩
    rw [atomic]
    exact applicable.all_recorded i mem
  | abandoned stage error =>
    exact done_error progress.sublist (progress.uncommitted (.inr (by rw [stage]; trivial)))
  | @rolledBack error stage =>
    have sublist := progress.sublist
    rw [Progress, stage] at progress
    exact done_error sublist progress.1

end Progress

/-! ## What holds in every state -/

structure Consistent (s : Server) : Prop where
  distinct : (versions s.db.rows).Nodup
  recorded : s.db.rows = s.db.history.map fun e => rowOf e.2
  holding : ∀ (i : Nat) (call : Call), s.calls[i]? = some call → call.stage.Holding →
    s.holder = some i
  progress : ∀ (i : Nat) (call : Call), s.calls[i]? = some call → Progress s.db.rows call
  authors : ∀ e ∈ s.db.history, ∃ call, s.calls[e.1]? = some call ∧ call.committed = true

theorem Consistent.history_versions {s : Server} (consistent : Consistent s) :
    (s.db.history.map fun e => e.2.version) = versions s.db.rows := by
  rw [consistent.recorded, versions, List.map_map]
  rfl

theorem consistent_empty : Consistent Server.empty where
  distinct := List.nodup_nil
  recorded := rfl
  holding := by simp [Server.empty]
  progress := by simp [Server.empty]
  authors := by simp [Server.empty]

theorem enter_progress (rows : List Row) (hasPool : Bool) (migrations : List Migration) :
    Progress rows (enter hasPool migrations) := by
  cases hasPool with
  | true => exact ⟨rfl, rfl, rfl⟩
  | false =>
    have refused : Progress rows { enter true migrations with
        stage := .done (.error "PostgreSQL pool is required") } :=
      done_error (List.nil_sublist _) rfl
    exact refused

theorem Consistent.enters {s : Server} (consistent : Consistent s) (hasPool : Bool)
    (migrations : List Migration) :
    Consistent { s with calls := s.calls ++ [enter hasPool migrations] } where
  distinct := consistent.distinct
  recorded := consistent.recorded
  holding := by
    intro i call found holding
    rcases getElem?_concat_cases found with old | ⟨_, rfl⟩
    · exact consistent.holding i call old holding
    · exact absurd holding (enter_outside _ _)
  progress := by
    intro i call found
    rcases getElem?_concat_cases found with old | ⟨_, rfl⟩
    · exact consistent.progress i call old
    · exact enter_progress _ _ _
  authors := by
    intro e mem
    obtain ⟨call, found, committed⟩ := consistent.authors e mem
    exact ⟨call, List.getElem?_append_left (List.getElem?_eq_some_iff.mp found).1 ▸ found,
      committed⟩

/-- A change of the database is the atomic step of a call that is then committed. -/
theorem Consistent.db_cases {s : Server} (consistent : Consistent s) {i : Nat} {call call' : Call}
    {db : Database} {holder : Option Nat} (here : s.calls[i]? = some call)
    (advanced : Advanced s.db s.holder i call db holder call') :
    db = s.db ∨
      s.holder = some i ∧ call'.committed = true ∧ Applicable s.db.rows call.migrations ∧
        db = applyAll s.db i call.migrations := by
  rcases advanced.db_cases with same | ⟨⟨applied, stage⟩, commit, committed⟩
  · exact Or.inl same
  · obtain ⟨applicable, _, atomic⟩ := (consistent.progress i call here).commit stage i
    refine Or.inr ⟨?_, committed, applicable, commit.trans atomic⟩
    exact consistent.holding i call here (by rw [stage]; trivial)

theorem Consistent.advances {s : Server} (consistent : Consistent s) {i : Nat}
    {call call' : Call} {db : Database} {holder : Option Nat} (here : s.calls[i]? = some call)
    (advanced : Advanced s.db s.holder i call db holder call') :
    Consistent ⟨db, holder, s.calls.set i call'⟩ where
  distinct := by
    rcases consistent.db_cases here advanced with rfl | ⟨_, _, applicable, rfl⟩
    · exact consistent.distinct
    · exact applicable.rows_distinct consistent.distinct i
  recorded := by
    rcases consistent.db_cases here advanced with rfl | ⟨_, _, _, rfl⟩
    · exact consistent.recorded
    · simp [applyAll, ← consistent.recorded]
  holding := by
    intro j other found holding
    rcases getElem?_set_cases found with ⟨rfl, rfl⟩ | ⟨apart, old⟩
    · exact advanced.holds (consistent.holding j call here) holding
    · exact advanced.leaves (consistent.holding i call here) apart
        (consistent.holding j other old holding)
  progress := by
    intro j other found
    rcases getElem?_set_cases found with ⟨rfl, rfl⟩ | ⟨apart, old⟩
    · exact (consistent.progress j call here).advanced consistent.distinct advanced
    · have progress := consistent.progress j other old
      rcases consistent.db_cases here advanced with rfl | ⟨held, _, _, rfl⟩
      · exact progress
      · -- the rows changed under the lock, so the other call is outside it
        refine progress.mono (fun holding => ?_) (List.subset_append_left _ _)
        have theirs := consistent.holding j other old holding
        rw [held] at theirs
        exact apart (Option.some.inj theirs).symm
  authors := by
    have inside := (List.getElem?_eq_some_iff.mp here).1
    intro e mem
    have old_author : e ∈ s.db.history →
        ∃ c, (s.calls.set i call')[e.1]? = some c ∧ c.committed = true := by
      intro old
      obtain ⟨author, found, committed⟩ := consistent.authors e old
      by_cases same : i = e.1
      · subst same
        rw [here] at found
        cases found
        exact ⟨call', List.getElem?_set_self inside, advanced.committed_mono committed⟩
      · exact ⟨author, (List.getElem?_set_ne same).trans found, committed⟩
    rcases consistent.db_cases here advanced with rfl | ⟨_, committed, _, rfl⟩
    · exact old_author mem
    · rcases List.mem_append.mp mem with old | new
      · exact old_author old
      · obtain ⟨m, _, rfl⟩ := List.mem_map.mp new
        exact ⟨call', List.getElem?_set_self inside, committed⟩

theorem Consistent.change {s s' : Server} {a : Action} (consistent : Consistent s)
    (change : Change s a s') : Consistent s' := by
  cases change with
  | quiet => exact consistent
  | enters hasPool migrations => exact consistent.enters hasPool migrations
  | advances here advanced => exact consistent.advances here advanced

/-! ## Runs -/

/-- Any actions, in any order. -/
abbrev MigrationRun (start : Server) (h : List (Action × Option (Except String Unit)))
    (s : Server) : Prop :=
  Run step (fun _ _ => True) start h s

section Runs

variable {h h' : List (Action × Option (Except String Unit))} {s t : Server}

theorem consistent_from (start : Consistent s) (run : MigrationRun s h t) : Consistent t := by
  refine Run.invariant (P := fun _ t => Consistent t) start ?_ run
  intro _ t a _ consistent _
  exact consistent.change (step_change t a)

theorem consistent_run (run : MigrationRun Server.empty h s) : Consistent s :=
  consistent_from consistent_empty run

/-- Rows are never removed. -/
theorem rows_subset (start : Consistent s) (run : MigrationRun s h t) :
    s.db.rows ⊆ t.db.rows := by
  refine Run.invariant (P := fun _ t => s.db.rows ⊆ t.db.rows) (List.Subset.refl _) ?_ run
  intro _ t a before subset _
  have consistent := consistent_from start before
  have change := step_change t a
  generalize (step t a).1 = t' at change
  cases change with
  | quiet => exact subset
  | enters hasPool migrations => exact subset
  | advances here advanced =>
    rcases consistent.db_cases here advanced with rfl | ⟨_, _, _, rfl⟩
    · exact subset
    · exact List.Subset.trans subset (List.subset_append_left _ _)

/-- What the server has committed stays committed. -/
theorem committed_stays {i : Nat} {call : Call} (here : s.calls[i]? = some call)
    (committed : call.committed = true) (run : MigrationRun s h t) :
    ∃ call', t.calls[i]? = some call' ∧ call'.committed = true := by
  refine Run.invariant
    (P := fun _ t => ∃ call', t.calls[i]? = some call' ∧ call'.committed = true)
    ⟨call, here, committed⟩ ?_ run
  rintro _ t a _ ⟨call', found, committed'⟩ _
  have change := step_change t a
  generalize (step t a).1 = t' at change
  cases change with
  | quiet => exact ⟨call', found, committed'⟩
  | enters hasPool migrations =>
    have inside := (List.getElem?_eq_some_iff.mp found).1
    exact ⟨call', (List.getElem?_append_left inside).trans found, committed'⟩
  | @advances j other other' db holder at_ advanced statement =>
    by_cases same : j = i
    · subst same
      rw [at_] at found
      cases found
      have inside := (List.getElem?_eq_some_iff.mp at_).1
      exact ⟨other', List.getElem?_set_self inside, advanced.committed_mono committed'⟩
    · exact ⟨call', (List.getElem?_set_ne same).trans found, committed'⟩

/-- A statement of a call that is not committed later leaves the database as it was. -/
theorem db_unchanged {i : Nat} {call : Call} {statement : CallStep}
    (start : Consistent t) (run : MigrationRun (step t (.advance i statement)).1 h s)
    (here : s.calls[i]? = some call) (uncommitted : call.committed = false) :
    (step t (.advance i statement)).1.db = t.db := by
  rw [step] at run ⊢
  split at run
  · rfl
  · rename_i before at_
    have advanced := advance_advanced t.db t.holder i before statement
    rcases start.db_cases at_ advanced with same | ⟨_, committed, _⟩
    · exact same
    · have inside := (List.getElem?_eq_some_iff.mp at_).1
      obtain ⟨call', found, stays⟩ := committed_stays (List.getElem?_set_self inside) committed run
      rw [here] at found
      cases found
      cases uncommitted.symm.trans stays

/-- A statement of a call whose whole list is recorded sends no migration. -/
theorem executed_unchanged {db db' : Database} {holder holder' : Option Nat} {i : Nat}
    {call call' : Call} (progress : Progress db.rows call)
    (recorded : ∀ m ∈ call.migrations, Recorded db.rows m)
    (advanced : Advanced db holder i call db' holder' call') : call'.executed = call.executed := by
  cases advanced with
  | @executed applied m rest stage absent =>
    rw [Progress, stage] at progress
    obtain ⟨_, agrees, past, list, _⟩ := progress
    have known := (recorded m (by simp [list])).version_mem
    exact absurd known (agrees.new absent)
  | _ => rfl

/-- Calls that come after their whole list was recorded send no migration. -/
theorem repeated_idle (start : Consistent s) {migrations : List Migration}
    (recorded : ∀ m ∈ migrations, Recorded s.db.rows m) (run : MigrationRun s h t) :
    ∀ j again, s.calls.length ≤ j → t.calls[j]? = some again →
      again.migrations = migrations → again.executed = [] := by
  refine Run.invariant (P := fun _ t => ∀ j again, s.calls.length ≤ j → t.calls[j]? = some again →
    again.migrations = migrations → again.executed = []) ?_ ?_ run
  · intro j again late found
    have inside := (List.getElem?_eq_some_iff.mp found).1
    exact absurd inside (Nat.not_lt.mpr late)
  · intro _ t a before idle _ j again late found same
    have consistent := consistent_from start before
    have change := step_change t a
    generalize (step t a).1 = t' at change found
    cases change with
    | quiet => exact idle j again late found same
    | enters hasPool list =>
      rcases getElem?_concat_cases found with old | ⟨_, rfl⟩
      · exact idle j again late old same
      · rfl
    | @advances i call call' db holder here advanced statement =>
      rcases getElem?_set_cases found with ⟨rfl, rfl⟩ | ⟨_, old⟩
      · have list : call.migrations = migrations := advanced.migrations_eq.symm.trans same
        have unchanged := executed_unchanged (consistent.progress j call here)
          (fun m mem => (recorded m (list ▸ mem)).mono (rows_subset start before)) advanced
        exact unchanged.trans (idle j call late here list)
      · exact idle j again late old same

end Runs

/-- What is true of every state that calls of `Apply` lead to. -/
structure AppliedOnce (s : Server) : Prop where
  /-- No version is committed twice. -/
  at_most_once : (s.db.history.map fun e => e.2.version).Nodup
  /-- The table records exactly what was committed. -/
  recorded_exactly : s.db.rows = s.db.history.map fun e => rowOf e.2
  /-- The server commits no call that ended before its commit. -/
  ends_by_commit : ∀ (i : Nat) (call : Call), s.calls[i]? = some call → call.committed = true →
    call.stage = .done (.ok ()) ∨
      ∃ cause, call.stage = .done (.error ("commit migrations: " ++ cause))
  /-- A call that was not committed has left nothing behind, and none of its statements
  changed the database at any time. -/
  failed_unchanged : ∀ (i : Nat) (call : Call), s.calls[i]? = some call →
    call.committed = false →
      (∀ e ∈ s.db.history, e.1 ≠ i) ∧
      ∀ h h' t statement, MigrationRun Server.empty h t →
        MigrationRun (step t (.advance i statement)).1 h' s →
        (step t (.advance i statement)).1.db = t.db
  /-- After a success the whole list is recorded. -/
  succeeded_recorded : ∀ (i : Nat) (call : Call), s.calls[i]? = some call →
    call.stage = .done (.ok ()) → ∀ m ∈ call.migrations, Recorded s.db.rows m
  /-- A call that repeats a successful one sends no migration. -/
  repeated_idle : ∀ (i : Nat) (call : Call), s.calls[i]? = some call →
    call.stage = .done (.ok ()) → ∀ h t (j : Nat) (again : Call), MigrationRun s h t →
      s.calls.length ≤ j → t.calls[j]? = some again → again.migrations = call.migrations →
      again.executed = []

theorem migrations_once {h : List (Action × Option (Except String Unit))} {s : Server}
    (run : MigrationRun Server.empty h s) : AppliedOnce s := by
  have consistent := consistent_run run
  constructor
  case at_most_once =>
    rw [consistent.history_versions]
    exact consistent.distinct
  case recorded_exactly => exact consistent.recorded
  case ends_by_commit =>
    intro i call here committed
    exact (consistent.progress i call here).answered committed
  case failed_unchanged =>
    intro i call here uncommitted
    constructor
    · rintro e mem rfl
      obtain ⟨author, found, committed⟩ := consistent.authors e mem
      rw [here] at found
      cases found
      cases uncommitted.symm.trans committed
    · intro _ _ t statement before after
      exact db_unchanged (consistent_run before) after here uncommitted
  case succeeded_recorded =>
    intro i call here ok
    exact (consistent.progress i call here).succeeded ok
  case repeated_idle =>
    intro i call here ok _ t j again after late found same
    have recorded := (consistent.progress i call here).succeeded ok
    exact repeated_idle consistent recorded after j again late found same

def opening : List CallStep := [.lock none, .createTable none, .readState none]

/-- Statements of one call, in a row. -/
def statements (i : Nat) (steps : List CallStep) : List Action := steps.map (Action.advance i)

/-- Two lists race. The first call applies its list, which is not in order; the second one
waits for the lock, applies a third migration, and then finds that the second one was edited.
A call that repeats the first succeeds without sending anything, and one that names a new
version twice fails on the key. -/
theorem migrations_once_race :
    let one : Migration := ⟨1, [49], [65], [1]⟩
    let two : Migration := ⟨2, [50], [66], [2]⟩
    let three : Migration := ⟨3, [51], [67], [3]⟩
    let edited : Migration := ⟨2, [50], [68], [4]⟩
    let race : List (List Action) := [
      [.apply true [two, one], .apply true [three, edited]],
      statements 0 [.begin none], statements 1 [.begin none],
      statements 0 opening, statements 1 [.lock none],
      statements 0 [.migrate none, .record none, .migrate none, .record none, .commit .answered],
      statements 1 opening, statements 1 [.migrate none, .record none, .migrate none],
      [.apply true [two, one]], statements 2 [.begin none],
      statements 1 [.rollback], statements 2 opening,
      statements 2 [.migrate none, .migrate none, .commit .answered],
      [.apply true [three, three]], statements 3 [.begin none], statements 3 opening,
      statements 3 [.migrate none, .record none, .migrate none, .record none, .rollback]]
    let final := (play step Server.empty race.flatten).2
    final.db.history = [(0, two), (0, one)] ∧
      final.calls.map Call.executed = [[two, one], [three], [], [three, three]] ∧
      (final.calls.map fun call => call.stage.result.map Except.toOption) =
        [some (some ()), some none, some (some ()), some none] ∧
      AppliedOnce final := by
  intro one two three edited race final
  refine ⟨by decide +kernel, by decide +kernel, by decide +kernel, ?_⟩
  exact migrations_once (Run.of_play (legalPlay_of_forall (fun _ _ _ => trivial) _))

end MigrationsOnce
