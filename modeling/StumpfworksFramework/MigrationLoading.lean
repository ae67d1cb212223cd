import Mathlib.Data.List.TakeWhile
import StumpfworksFramework.MigrationFiles

/-!
# What `Load` makes of a directory

Which files are migrations, and with which version, is stated here from the file names
alone. For a listing with readable files, `Load` fails exactly if a version is out of
range or used twice; otherwise it returns one migration for each such file.
-/

namespace MigrationLoading

open ByteStrings HexText MigrationFiles

/-! ## File names -/

/-- The number that decimal digits denote. -/
def number (digits : Bytes) : Nat := digits.foldl (fun n b => n * 10 + (b.toNat - 48)) 0

/-- Digits, an underscore, a stem that starts with a letter or a digit, and the suffix. -/
def Named (name digits : Bytes) : Prop :=
  ∃ first rest, name = digits ++ 95 :: (first :: rest) ++ ascii ".up.sql" ∧ digits ≠ [] ∧
    (∀ b ∈ digits, isDigit b = true) ∧ (isLower first || isDigit first) = true ∧
    ∀ b ∈ rest, isNameByte b = true

/-- A file that is a migration of this version. -/
def Numbered (entry : DirEntry) (version : Nat) : Prop :=
  entry.isDir = false ∧ ∃ digits, Named entry.name digits ∧ version = number digits

theorem span_digits {digits : Bytes} (all : ∀ b ∈ digits, isDigit b = true) (rest : Bytes) :
    (digits ++ 95 :: rest).takeWhile isDigit = digits ∧
      (digits ++ 95 :: rest).dropWhile isDigit = 95 :: rest := by
  have underscore : ¬ isDigit 95 = true := by decide
  refine ⟨?_, ?_⟩
  · rw [List.takeWhile_append_of_pos all, List.takeWhile_cons_of_neg underscore, List.append_nil]
  · rw [List.dropWhile_append_of_pos all, List.dropWhile_cons_of_neg underscore]

theorem filenameVersion_eq_some_iff {name digits : Bytes} :
    filenameVersion name = some digits ↔ Named name digits := by
  have suffix : (ascii ".up.sql").length = 7 := by decide +kernel
  constructor
  · intro found
    unfold filenameVersion at found
    simp only at found
    split at found
    · rename_i tail after
      split at found
      · rename_i first rest stem
        split at found
        · rename_i ok
          cases found
          refine ⟨first, rest, ?_, ok.1, ?_, ok.2.2.1, ?_⟩
          · have whole := List.takeWhile_append_dropWhile (p := isDigit) (l := name)
            have parts := List.take_append_drop (tail.length - 7) tail
            rw [stem, ok.2.1] at parts
            rw [after, ← parts] at whole
            simpa using whole.symm
          · intro b mem
            exact List.mem_takeWhile_imp mem
          · exact List.all_eq_true.mp ok.2.2.2
        · cases found
      · cases found
    · cases found
  · rintro ⟨first, rest, rfl, some, all, start, bytes⟩
    obtain ⟨taken, dropped⟩ := span_digits all (first :: rest ++ ascii ".up.sql")
    have length : (first :: rest ++ ascii ".up.sql").length - 7 = (first :: rest).length := by
      rw [List.length_append, suffix, Nat.add_sub_cancel]
    unfold filenameVersion
    rw [List.append_assoc, List.cons_append, taken, dropped]
    simp only [length, List.take_left', List.drop_left']
    rw [if_pos ⟨some, trivial, start, List.all_eq_true.mpr bytes⟩]

theorem numbered_iff {entry : DirEntry} {version : Nat} : Numbered entry version ↔
    entry.isDir = false ∧ ∃ digits, filenameVersion entry.name = some digits ∧
      version = number digits := by
  simp only [Numbered, filenameVersion_eq_some_iff]

theorem Numbered.unique {entry : DirEntry} {m n : Nat} (first : Numbered entry m)
    (second : Numbered entry n) : m = n := by
  obtain ⟨-, digits, found, rfl⟩ := numbered_iff.mp first
  obtain ⟨-, digits', found', rfl⟩ := numbered_iff.mp second
  rw [Option.some.inj (found.symm.trans found')]

theorem parseInt_eq (digits : Bytes) :
    parseInt digits = if number digits < 2 ^ 63 then some (number digits : Int) else none := rfl

/-! ## The loop -/

section Loop

variable {sha256 : Bytes → Bytes} {entry : DirEntry} {rest : List DirEntry}
  {before loaded : List Migration}

/-- The migration that a file of this version stands for. -/
def migrationOf (sha256 : Bytes → Bytes) (entry : DirEntry) : Option Migration :=
  if entry.isDir = true then none
  else
    match filenameVersion entry.name, entry.contents with
    | some digits, .ok contents =>
      some ⟨number digits, entry.name, contents, hexEncode (sha256 contents)⟩
    | _, _ => none

/-- A migration against the file it was read from. -/
structure ReadFrom (sha256 : Bytes → Bytes) (entry : DirEntry) (m : Migration) : Prop where
  version : ∃ n, Numbered entry n ∧ m.version = n
  name : m.name = entry.name
  sql : entry.contents = .ok m.sql
  checksum : m.checksum = hexEncode (sha256 m.sql)

theorem migrationOf_eq_some_iff {m : Migration} :
    migrationOf sha256 entry = some m ↔ ReadFrom sha256 entry m := by
  unfold migrationOf
  constructor
  · intro found
    split at found
    · cases found
    rename_i file
    split at found
    · rename_i digits contents named here
      cases found
      refine ⟨⟨number digits, ?_, rfl⟩, rfl, here, rfl⟩
      exact numbered_iff.mpr ⟨Bool.eq_false_of_not_eq_true file, digits, named, rfl⟩
    · cases found
  · rintro ⟨⟨n, numbered, version⟩, name, sql, checksum⟩
    obtain ⟨file, digits, named, rfl⟩ := numbered_iff.mp numbered
    rw [if_neg (by simp [file]), named, sql]
    obtain ⟨v, nm, s, c⟩ := m
    simp_all

theorem loadEntries_skip (other : ∀ n, ¬ Numbered entry n) :
    loadEntries sha256 (entry :: rest) before = loadEntries sha256 rest before := by
  rw [loadEntries]
  split
  · rfl
  rename_i file
  split
  · rfl
  · rename_i digits named
    exact absurd (numbered_iff.mpr ⟨Bool.eq_false_of_not_eq_true file, digits, named, rfl⟩)
      (other _)

/-- A readable file with a version: what has to hold for the loop to go on. -/
theorem loadEntries_numbered {n : Nat} {contents : Bytes} (numbered : Numbered entry n)
    (readable : entry.contents = .ok contents) :
    loadEntries sha256 (entry :: rest) before = .ok loaded ↔
      (0 < n ∧ n < 2 ^ 63) ∧ (n : Int) ∉ before.map Migration.version ∧
      loadEntries sha256 rest
        (before ++ [⟨n, entry.name, contents, hexEncode (sha256 contents)⟩]) = .ok loaded := by
  obtain ⟨file, digits, named, rfl⟩ := numbered_iff.mp numbered
  rw [loadEntries, if_neg (by simp [file])]
  simp only [named, parseInt_eq, readable]
  by_cases small : number digits < 2 ^ 63
  · simp only [if_pos small]
    split
    · rename_i zero
      simp only [reduceCtorEq, false_iff]
      rintro ⟨range, -⟩
      omega
    · rename_i positive
      split
      · rename_i repeated
        simp only [reduceCtorEq, false_iff]
        exact fun all => all.2.1 repeated
      · rename_i fresh
        exact ⟨fun ok => ⟨⟨by omega, small⟩, fresh, ok⟩, fun all => all.2.2⟩
  · simp only [if_neg small, reduceCtorEq, false_iff]
    exact fun all => small all.1.2

end Loop

/-! ## Listings -/

/-- Every file that is a migration can be read. -/
def Readable (entries : List DirEntry) : Prop :=
  ∀ entry ∈ entries, ∀ n, Numbered entry n → ∃ contents, entry.contents = .ok contents

/-- Versions are positive, fit 63 bits and differ from file to file. -/
structure Loadable (entries : List DirEntry) : Prop where
  range : ∀ entry ∈ entries, ∀ n, Numbered entry n → 0 < n ∧ n ≤ 2 ^ 63 - 1
  distinct : entries.Pairwise fun a b => ∀ n, Numbered a n → ¬ Numbered b n

section Listings

variable {sha256 : Bytes → Bytes} {entries : List DirEntry} {before loaded : List Migration}

theorem loadable_nil : Loadable [] := ⟨by simp, .nil⟩

theorem loadable_cons_iff {entry : DirEntry} : Loadable (entry :: entries) ↔
    (∀ n, Numbered entry n → (0 < n ∧ n ≤ 2 ^ 63 - 1) ∧ ∀ other ∈ entries, ¬ Numbered other n) ∧
      Loadable entries := by
  constructor
  · rintro ⟨range, distinct⟩
    obtain ⟨first, later⟩ := List.forall_mem_cons.mp range
    obtain ⟨apart, others⟩ := List.pairwise_cons.mp distinct
    exact ⟨fun n numbered => ⟨first n numbered, fun other mem => apart other mem n numbered⟩,
      later, others⟩
  · rintro ⟨first, later, others⟩
    exact ⟨List.forall_mem_cons.mpr ⟨fun n numbered => (first n numbered).1, later⟩,
      List.pairwise_cons.mpr ⟨fun other mem n numbered => (first n numbered).2 other mem, others⟩⟩

/-- A migration appended to those collected takes its version away from the rest. -/
theorem unseen_concat {m : Migration} {n : Nat} (version : m.version = n) :
    (∀ entry ∈ entries, ∀ k, Numbered entry k →
        (k : Int) ∉ (before ++ [m]).map Migration.version) ↔
      (∀ entry ∈ entries, ∀ k, Numbered entry k → (k : Int) ∉ before.map Migration.version) ∧
        ∀ entry ∈ entries, ¬ Numbered entry n := by
  simp only [List.map_append, List.map_cons, List.map_nil, List.mem_append, List.mem_singleton,
    version, Int.ofNat_inj, not_or]
  constructor
  · intro unseen
    refine ⟨fun entry mem k numbered => (unseen entry mem k numbered).1, ?_⟩
    intro entry mem numbered
    exact (unseen entry mem n numbered).2 rfl
  · rintro ⟨unseen, apart⟩ entry mem k numbered
    refine ⟨unseen entry mem k numbered, ?_⟩
    rintro rfl
    exact apart entry mem numbered

/-- The loop ends well exactly on loadable listings with versions not seen before. -/
theorem loadEntries_ok_iff (readable : Readable entries) :
    loadEntries sha256 entries before = .ok loaded ↔
      Loadable entries ∧
      (∀ entry ∈ entries, ∀ n, Numbered entry n → (n : Int) ∉ before.map Migration.version) ∧
      loaded = before ++ entries.filterMap (migrationOf sha256) := by
  induction entries generalizing before with
  | nil => simp [loadEntries, loadable_nil, eq_comm]
  | cons entry rest ih =>
    obtain ⟨first, later⟩ := List.forall_mem_cons.mp readable
    rw [loadable_cons_iff, List.forall_mem_cons]
    by_cases file : ∃ n, Numbered entry n
    · obtain ⟨n, numbered⟩ := file
      obtain ⟨contents, here⟩ := first n numbered
      have read : migrationOf sha256 entry =
          some ⟨n, entry.name, contents, hexEncode (sha256 contents)⟩ :=
        migrationOf_eq_some_iff.mpr ⟨⟨n, numbered, rfl⟩, rfl, here, rfl⟩
      have only : ∀ {P : Nat → Prop}, (∀ k, Numbered entry k → P k) ↔ P n :=
        ⟨fun all => all n numbered, fun holds k other => numbered.unique other ▸ holds⟩
      have range : n < 2 ^ 63 ↔ n ≤ 2 ^ 63 - 1 := by omega
      rw [loadEntries_numbered numbered here, ih later, only, only, unseen_concat rfl, range,
        List.filterMap_cons_some read, List.append_assoc, List.singleton_append]
      tauto
    · have other : ∀ n, ¬ Numbered entry n := not_exists.mp file
      have unread : migrationOf sha256 entry = none := by
        refine Option.eq_none_iff_forall_not_mem.mpr fun m found => ?_
        obtain ⟨n, numbered, -⟩ := (migrationOf_eq_some_iff.mp found).version
        exact other n numbered
      rw [loadEntries_skip other, ih later, List.filterMap_cons_none unread]
      simp [other]

/-- On loadable listings `Load` returns the migrations of its files, sorted. -/
theorem load_eq (readable : Readable entries) (ok : Loadable entries) :
    load sha256 (.ok entries) =
      .ok ((entries.filterMap (migrationOf sha256)).insertionSort
        fun a b => a.version ≤ b.version) := by
  have collected : loadEntries sha256 entries [] = .ok (entries.filterMap (migrationOf sha256)) :=
    (loadEntries_ok_iff readable).mpr ⟨ok, by simp, rfl⟩
  simp only [load, collected]

theorem load_failed (readable : Readable entries) (refused : ¬ Loadable entries) :
    ∃ e, load sha256 (.ok entries) = .error e := by
  cases collected : loadEntries sha256 entries [] with
  | error e => exact ⟨e, by simp only [load, collected]⟩
  | ok loaded => exact absurd ((loadEntries_ok_iff readable).mp collected).1 refused

theorem Loadable.perm {entries' : List DirEntry} (ok : Loadable entries)
    (perm : entries.Perm entries') : Loadable entries' := by
  refine ⟨fun entry mem => ok.range entry (perm.mem_iff.mpr mem), ?_⟩
  exact perm.pairwise ok.distinct fun apart n numbered other => apart n other numbered

theorem not_loadable_iff : ¬ Loadable entries ↔
    (∃ entry ∈ entries, ∃ n, Numbered entry n ∧ (n = 0 ∨ n > 2 ^ 63 - 1)) ∨
      ¬ entries.Pairwise fun a b => ∀ n, Numbered a n → ¬ Numbered b n := by
  constructor
  · intro refused
    by_contra neither
    rw [not_or, not_not] at neither
    refine refused ⟨fun entry mem n numbered => ?_, neither.2⟩
    by_contra outside
    exact neither.1 ⟨entry, mem, n, numbered, by omega⟩
  · rintro (⟨entry, mem, n, numbered, outside⟩ | repeated) ok
    · have range := ok.range entry mem n numbered
      omega
    · exact repeated ok.distinct

theorem loadable_of_load (readable : Readable entries)
    (ok : load sha256 (.ok entries) = .ok loaded) : Loadable entries := by
  by_contra refused
  obtain ⟨e, failed⟩ := load_failed readable refused
  cases failed.symm.trans ok

theorem mem_load_iff (readable : Readable entries) (ok : load sha256 (.ok entries) = .ok loaded)
    (m : Migration) : m ∈ loaded ↔ ∃ entry ∈ entries, ReadFrom sha256 entry m := by
  rw [load_eq readable (loadable_of_load readable ok)] at ok
  cases ok
  rw [List.mem_insertionSort, List.mem_filterMap]
  exact exists_congr fun entry => and_congr_right fun _ => migrationOf_eq_some_iff

/-- Versions determine the order, so the listing's order does not matter. -/
theorem load_perm (readable : Readable entries) (ok : load sha256 (.ok entries) = .ok loaded)
    {entries' : List DirEntry} (perm : entries.Perm entries') :
    load sha256 (.ok entries') = .ok loaded := by
  have loadable := loadable_of_load readable ok
  have readable' : Readable entries' :=
    fun entry mem => readable entry (perm.mem_iff.mpr mem)
  have ok' : load sha256 (.ok entries') = _ := load_eq readable' (loadable.perm perm)
  have increasing := (load_increasing ok).1
  have increasing' := (load_increasing ok').1
  rw [load_eq readable loadable] at ok
  cases ok
  rw [ok']
  have same := List.Perm.eq_of_pairwise
    (fun a b _ _ before after => absurd (Int.lt_trans before after) (Int.lt_irrefl _))
    increasing' increasing
    ((List.perm_insertionSort _ _).trans
      ((perm.symm.filterMap _).trans (List.perm_insertionSort _ _).symm))
  rw [same]

end Listings

/-- For a listing whose migration files can be read, `Load` fails exactly if a version is
zero, does not fit 63 bits, or is used twice. Otherwise it returns one migration for each
of the files, in increasing order of versions, for every order of the listing. -/
theorem loading_exact (sha256 : Bytes → Bytes) (entries : List DirEntry)
    (readable : Readable entries) :
    ((∃ e, load sha256 (.ok entries) = .error e) ↔
      (∃ entry ∈ entries, ∃ n, Numbered entry n ∧ (n = 0 ∨ n > 2 ^ 63 - 1)) ∨
        ¬ entries.Pairwise fun a b => ∀ n, Numbered a n → ¬ Numbered b n) ∧
    ∀ migrations, load sha256 (.ok entries) = .ok migrations →
      (∀ m, m ∈ migrations ↔ ∃ entry ∈ entries, ReadFrom sha256 entry m) ∧
      (∀ entry ∈ entries, ∀ n, Numbered entry n →
        ∃! m, m ∈ migrations ∧ ReadFrom sha256 entry m) ∧
      (migrations.Pairwise fun a b => a.version < b.version) ∧
      ∀ entries', entries.Perm entries' → load sha256 (.ok entries') = .ok migrations := by
  refine ⟨?_, fun migrations ok => ⟨mem_load_iff readable ok, ?_, (load_increasing ok).1,
    fun entries' perm => load_perm readable ok perm⟩⟩
  · rw [← not_loadable_iff]
    refine ⟨?_, load_failed readable⟩
    rintro ⟨e, failed⟩ loadable
    cases failed.symm.trans (load_eq readable loadable)
  · intro entry mem n numbered
    obtain ⟨contents, here⟩ := readable entry mem n numbered
    have read : ReadFrom sha256 entry ⟨n, entry.name, contents, hexEncode (sha256 contents)⟩ :=
      ⟨⟨n, numbered, rfl⟩, rfl, here, rfl⟩
    refine ⟨_, ⟨(mem_load_iff readable ok _).mpr ⟨entry, mem, read⟩, read⟩, ?_⟩
    -- a file determines the migration read from it
    rintro other ⟨-, same⟩
    exact Option.some.inj
      ((migrationOf_eq_some_iff.mpr same).symm.trans (migrationOf_eq_some_iff.mpr read))

/-- The digest of an empty file. -/
def emptyDigest : Bytes :=
  [227, 176, 196, 66, 152, 252, 28, 20, 154, 251, 244, 200, 153, 111, 185, 36, 39, 174, 65, 228,
    100, 155, 147, 76, 164, 149, 153, 27, 120, 82, 184, 85]

/-- Two migrations whose names are in the other order than their versions, a directory with
the name of a migration, and a foreign file. -/
def sampleListing : List DirEntry :=
  [⟨ascii "10_index.up.sql", false, .ok []⟩, ⟨ascii "2_users.up.sql", false, .ok []⟩,
    ⟨ascii "3_old.up.sql", true, .error "is a directory"⟩, ⟨ascii "README.md", false, .ok []⟩]

theorem loading_exact_sample :
    load (pinnedDigest [([], emptyDigest)] 32) (.ok sampleListing.reverse) =
      .ok [⟨2, ascii "2_users.up.sql", [], hexEncode emptyDigest⟩,
        ⟨10, ascii "10_index.up.sql", [], hexEncode emptyDigest⟩] := by
  have readable : Readable sampleListing := by
    have files : ∀ entry ∈ sampleListing, entry.isDir = false → entry.contents.toOption.isSome := by
      decide +kernel
    intro entry mem n numbered
    have here := files entry mem numbered.1
    cases contents : entry.contents with
    | error e => simp [contents, Except.toOption] at here
    | ok bytes => exact ⟨bytes, rfl⟩
  refine ((loading_exact _ sampleListing readable).2 _ ?_).2.2.2 _
    (List.reverse_perm sampleListing).symm
  decide +kernel

end MigrationLoading
