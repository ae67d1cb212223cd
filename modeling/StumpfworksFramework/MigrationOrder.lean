import StumpfworksFramework.MigrationsOnce

/-!
# The order of migrations

`Load` sorts, so every call executes its pending migrations in the order of
their versions. Between calls there is no such rule: `Apply` asks of each
version whether it is recorded, not how it compares with the recorded ones. A
file with a lower number that arrives late is applied late. The order over the
whole life of a database is therefore exactly as good as the lists are: it is
increasing if and only if no committed list brought a new version below a
recorded one.
-/

namespace MigrationOrder

open ByteStrings MigrationFiles MigrationRuns MigrationsOnce Runs

/-- Every list that is applied comes from a directory. -/
def Loaded (sha256 : Bytes → Bytes) (_ : Server) : Action → Prop
  | .apply _ migrations => ∃ directory, load sha256 directory = .ok migrations
  | .advance _ _ => True

/-- The versions committed so far, in the order of execution. -/
def committedVersions (s : Server) : List Int := s.db.history.map fun e => e.2.version

def Increasing (s : Server) : Prop := (committedVersions s).Pairwise (· < ·)

/-- The action makes the server commit the transaction of call `i`. -/
inductive Commits (s : Server) : Action → Nat → Call → Prop where
  | answered {i : Nat} {call : Call} {applied : FiniteMaps.FiniteMap Int Bytes}
    (here : s.calls[i]? = some call) (stage : call.stage = .looping applied []) :
    Commits s (.advance i (.commit .answered)) i call
  | lost {i : Nat} {call : Call} {applied : FiniteMaps.FiniteMap Int Bytes}
    (here : s.calls[i]? = some call) (stage : call.stage = .looping applied []) (cause : String) :
    Commits s (.advance i (.commit (.lost cause))) i call

/-- No version of the list that is not recorded is lower than a recorded one. -/
def Above (rows : List Row) (migrations : List Migration) : Prop :=
  ∀ m ∈ migrations, m.version ∉ versions rows → ∀ r ∈ rows, r.version < m.version

/-- What the server commits goes on from the recorded versions. -/
def Forward (s : Server) (a : Action) : Prop :=
  ∀ i call, Commits s a i call → Above s.db.rows call.migrations

section Steps

variable {s : Server} {a : Action} {i j : Nat} {call call' : Call}

theorem Commits.unique (commits : Commits s a i call) (commits' : Commits s a j call') :
    call' = call := by
  cases commits with
  | answered here _ =>
    cases commits' with
    | answered here' _ => exact Option.some.inj (here'.symm.trans here)
  | lost here _ cause =>
    cases commits' with
    | lost here' _ _ => exact Option.some.inj (here'.symm.trans here)

theorem Commits.here (commits : Commits s a i call) : s.calls[i]? = some call := by
  cases commits with
  | answered here _ => exact here
  | lost here _ _ => exact here

theorem Commits.db (consistent : Consistent s) (commits : Commits s a i call) :
    (step s a).1.db = applyAll s.db i call.migrations := by
  have progress := consistent.progress i call commits.here
  cases commits with
  | answered here stage =>
    simp only [step, here, advance, stage]
    exact (progress.commit stage i).2.2
  | lost here stage cause =>
    simp only [step, here, advance, stage]
    exact (progress.commit stage i).2.2

theorem advance_db (db : Database) (holder : Option Nat) (i : Nat) (call : Call)
    (statement : CallStep) :
    (advance db holder i call statement).1 = db ∨
      (∃ applied, call.stage = .looping applied []) ∧
        (statement = .commit .answered ∨ ∃ cause, statement = .commit (.lost cause)) := by
  unfold advance
  split
  case h_3 =>
    split
    · exact Or.inl rfl
    · exact Or.inl rfl
  case h_11 => exact Or.inr ⟨⟨_, ‹_›⟩, Or.inl rfl⟩
  case h_12 => exact Or.inr ⟨⟨_, ‹_›⟩, Or.inr ⟨_, rfl⟩⟩
  all_goals exact Or.inl rfl

/-- Only a commit changes the database. -/
theorem db_same_or_commits (s : Server) (a : Action) :
    (step s a).1.db = s.db ∨ ∃ i call, Commits s a i call := by
  cases a with
  | apply hasPool migrations => exact Or.inl rfl
  | advance i statement =>
    cases here : s.calls[i]? with
    | none => exact Or.inl (by simp only [step, here])
    | some call =>
      simp only [step, here]
      rcases advance_db s.db s.holder i call statement with
        same | ⟨⟨applied, stage⟩, rfl | ⟨cause, rfl⟩⟩
      · exact Or.inl same
      · exact Or.inr ⟨i, call, Commits.answered here stage⟩
      · exact Or.inr ⟨i, call, Commits.lost here stage cause⟩

theorem above_iff (consistent : Consistent s) (migrations : List Migration) :
    Above s.db.rows migrations ↔
      ∀ v ∈ committedVersions s, ∀ v' ∈ (pending s.db.rows migrations).map Migration.version,
        v < v' := by
  rw [committedVersions, consistent.history_versions]
  constructor
  · intro above v old v' new
    obtain ⟨r, mem, rfl⟩ := List.mem_map.mp old
    obtain ⟨m, pends, rfl⟩ := List.mem_map.mp new
    obtain ⟨listed, unrecorded⟩ := mem_pending.mp pends
    exact above m listed unrecorded r mem
  · intro below m listed unrecorded r mem
    exact below _ (List.mem_map_of_mem mem) _
      (List.mem_map_of_mem (mem_pending.mpr ⟨listed, unrecorded⟩))

/-- One action keeps the order exactly if it goes on from the recorded versions. -/
theorem increasing_step (consistent : Consistent s)
    (sorted : ∀ (i : Nat) (call : Call), s.calls[i]? = some call →
      call.migrations.Pairwise fun m m' => m.version < m'.version) :
    Increasing (step s a).1 ↔ Increasing s ∧ Forward s a := by
  by_cases commits : ∃ i call, Commits s a i call
  · obtain ⟨i, call, commits⟩ := commits
    have inside : ((pending s.db.rows call.migrations).map Migration.version).Pairwise (· < ·) := by
      rw [List.pairwise_map]
      exact (sorted i call commits.here).sublist (pending_sublist _ _)
    have forward : Forward s a ↔ Above s.db.rows call.migrations := by
      constructor
      · intro forward
        exact forward i call commits
      · intro above j call' commits'
        rw [commits.unique commits']
        exact above
    have extended : committedVersions (step s a).1 =
        committedVersions s ++ (pending s.db.rows call.migrations).map Migration.version := by
      rw [committedVersions, commits.db consistent, applyAll, List.map_append, List.map_map]
      rfl
    rw [Increasing, extended, List.pairwise_append, forward, above_iff consistent]
    constructor
    · rintro ⟨before, _, between⟩
      exact ⟨before, between⟩
    · rintro ⟨before, between⟩
      exact ⟨before, inside, between⟩
  · have same : (step s a).1.db = s.db := (db_same_or_commits s a).resolve_right commits
    rw [Increasing, committedVersions, same]
    constructor
    · intro before
      exact ⟨before, fun i call now => absurd ⟨i, call, now⟩ commits⟩
    · rintro ⟨before, _⟩
      exact before

end Steps

/-! ## Runs -/

section Runs

variable {sha256 : Bytes → Bytes} {h : List (Action × Option (Except String Unit))} {s : Server}

theorem consistent_loaded (run : Run step (Loaded sha256) Server.empty h s) : Consistent s :=
  consistent_run (run.mono fun _ _ _ => trivial)

theorem sorted_loaded (run : Run step (Loaded sha256) Server.empty h s) :
    ∀ (i : Nat) (call : Call), s.calls[i]? = some call →
      call.migrations.Pairwise fun m m' => m.version < m'.version := by
  refine Run.invariant (P := fun _ s => ∀ (i : Nat) (call : Call), s.calls[i]? = some call →
    call.migrations.Pairwise fun m m' => m.version < m'.version) ?_ ?_ run
  · intro i call found
    cases found
  · intro _ s a _ sorted loaded i call found
    have change := step_change s a
    generalize (step s a).1 = s' at change found
    cases change with
    | quiet => exact sorted i call found
    | enters hasPool migrations =>
      obtain ⟨directory, ok⟩ := loaded
      rcases getElem?_concat_cases found with old | ⟨_, rfl⟩
      · exact sorted i call old
      · exact (load_increasing ok).1
    | @advances j before after db holder here advanced statement =>
      rcases getElem?_set_cases found with ⟨rfl, rfl⟩ | ⟨_, old⟩
      · rw [advanced.migrations_eq]
        exact sorted i before here
      · exact sorted i call old

/-- The order of a whole run, from the single actions. -/
theorem increasing_iff_forward (run : Run step (Loaded sha256) Server.empty h s) :
    Increasing s ↔
      Run step (fun s a => Loaded sha256 s a ∧ Forward s a) Server.empty h s := by
  constructor
  · refine Run.invariant (P := fun h s => Increasing s →
      Run step (fun s a => Loaded sha256 s a ∧ Forward s a) Server.empty h s) ?_ ?_ run
    · intro _
      exact Run.nil
    · intro h s a before ih loaded increasing
      obtain ⟨earlier, forward⟩ :=
        (increasing_step (consistent_loaded before) (sorted_loaded before)).mp increasing
      exact Run.snoc (ih earlier) a ⟨loaded, forward⟩
  · have empty : Increasing Server.empty := List.Pairwise.nil
    refine Run.invariant (P := fun _ s => Increasing s) empty ?_
    intro h s a before earlier allowed
    have loaded := before.mono fun _ _ both => both.1
    exact (increasing_step (consistent_loaded loaded) (sorted_loaded loaded)).mpr
      ⟨earlier, allowed.2⟩

end Runs

/-- The order in which loaded migrations are executed. -/
structure AppliedInOrder (sha256 : Bytes → Bytes)
    (h : List (Action × Option (Except String Unit))) (s : Server) : Prop where
  /-- A call executes in the order of versions. -/
  within_call : ∀ (i : Nat) (call : Call), s.calls[i]? = some call →
    (call.executed.map Migration.version).Pairwise (· < ·)
  /-- No version is committed twice. -/
  at_most_once : (committedVersions s).Nodup
  /-- Over all calls the order is increasing exactly if every commit that took effect went on
  from the recorded versions. -/
  across_calls : Increasing s ↔
    Run step (fun s a => Loaded sha256 s a ∧ Forward s a) Server.empty h s

theorem applied_in_order (sha256 : Bytes → Bytes)
    {h : List (Action × Option (Except String Unit))} {s : Server}
    (run : Run step (Loaded sha256) Server.empty h s) : AppliedInOrder sha256 h s := by
  have consistent := consistent_loaded run
  refine ⟨?_, ?_, increasing_iff_forward run⟩
  · intro i call here
    rw [List.pairwise_map]
    exact (sorted_loaded run i call here).sublist (consistent.progress i call here).sublist
  · rw [committedVersions, consistent.history_versions]
    exact consistent.distinct

/-! ## A directory that grows -/

section Samples

def sampleFile (name sql : String) : DirEntry := ⟨ascii name, false, .ok (ascii sql)⟩

def fileA : DirEntry := sampleFile "1_a.up.sql" "create table a()"
def fileB : DirEntry := sampleFile "2_b.up.sql" "create table b()"
def fileC : DirEntry := sampleFile "3_c.up.sql" "create table c()"

/-- SHA-256 at the three files. -/
def fileDigest : Bytes → Bytes := pinnedDigest [
  (ascii "create table a()", [118, 227, 205, 107, 4, 225, 91, 3, 74, 149, 101, 164, 124, 222, 128,
    234, 53, 198, 127, 129, 182, 184, 67, 172, 189, 197, 173, 223, 183, 97, 90, 252]),
  (ascii "create table b()", [201, 151, 217, 76, 92, 228, 169, 219, 160, 162, 12, 209, 69, 70, 253,
    152, 167, 45, 2, 217, 215, 92, 41, 194, 182, 163, 121, 33, 229, 8, 178, 198]),
  (ascii "create table c()", [121, 233, 52, 70, 102, 15, 24, 18, 235, 251, 51, 247, 111, 29, 86,
    213, 129, 211, 95, 119, 53, 100, 198, 188, 247, 30, 91, 85, 134, 170, 242, 246])] 32

/-- What is loaded from a listing. -/
def loadedFrom (entries : List DirEntry) : List Migration :=
  (load fileDigest (.ok entries)).toOption.getD []

theorem load_loadedFrom {entries : List DirEntry}
    (ok : (load fileDigest (.ok entries)).toOption.isSome = true) :
    load fileDigest (.ok entries) = .ok (loadedFrom entries) := by
  unfold loadedFrom
  cases h : load fileDigest (.ok entries) with
  | error e =>
    rw [h] at ok
    cases ok
  | ok migrations => rfl

/-- Two calls, the second after the first has returned, with the statements of their loops. -/
def deploys (before after : List DirEntry) (loop loop' : List CallStep) : List Action :=
  [[.apply true (loadedFrom before)], statements 0 [.begin none], statements 0 opening,
    statements 0 loop, statements 0 [.commit .answered],
    [.apply true (loadedFrom after)], statements 1 [.begin none], statements 1 opening,
    statements 1 loop', statements 1 [.commit .answered]].flatten

theorem deploys_loaded {before after : List DirEntry} {loop loop' : List CallStep}
    (ok : (load fileDigest (.ok before)).toOption.isSome = true)
    (ok' : (load fileDigest (.ok after)).toOption.isSome = true) :
    ∀ a ∈ deploys before after loop loop', ∀ s, Loaded fileDigest s a := by
  intro a mem s
  cases a with
  | advance i statement => trivial
  | apply hasPool migrations =>
    simp only [deploys, statements, List.flatten_cons, List.flatten_nil, List.mem_append,
      List.mem_singleton, List.mem_map, reduceCtorEq, and_false, exists_false, false_or, or_false,
      List.append_nil, Action.apply.injEq] at mem
    rcases mem with ⟨_, rfl⟩ | ⟨_, rfl⟩
    · exact ⟨_, load_loadedFrom ok⟩
    · exact ⟨_, load_loadedFrom ok'⟩

end Samples

/-- The third file is deployed before the second: the directory gains it between two calls,
both succeed, and the second migration is executed after the third. -/
theorem late_file_applied_late :
    let final := (play step Server.empty (deploys [fileA, fileC] [fileA, fileB, fileC]
      [.migrate none, .record none, .migrate none, .record none]
      [.migrate none, .migrate none, .record none, .migrate none])).2
    (∃ h, Run step (Loaded fileDigest) Server.empty h final) ∧
      (final.calls.map fun call => call.stage.result.map Except.toOption) =
        [some (some ()), some (some ())] ∧
      committedVersions final = [1, 3, 2] ∧ ¬ Increasing final := by
  intro final
  have order : committedVersions final = [1, 3, 2] := by decide +kernel
  refine ⟨⟨_, Run.of_play (legalPlay_of_forall (deploys_loaded ?_ ?_) _)⟩, by decide +kernel,
    order, ?_⟩
  · decide +kernel
  · decide +kernel
  · rw [Increasing, order]
    decide

/-- The files are deployed in order. -/
theorem applied_in_order_growing :
    let run := play step Server.empty (deploys [fileA, fileB] [fileA, fileB, fileC]
      [.migrate none, .record none, .migrate none, .record none]
      [.migrate none, .migrate none, .migrate none, .record none])
    committedVersions run.2 = [1, 2, 3] ∧ AppliedInOrder fileDigest run.1 run.2 := by
  intro run
  refine ⟨by decide +kernel, ?_⟩
  apply applied_in_order
  refine Run.of_play (legalPlay_of_forall (deploys_loaded ?_ ?_) _)
  · decide +kernel
  · decide +kernel

end MigrationOrder
