import Mathlib.Data.List.Sort
import StumpfworksFramework.HexText

/-!
# Loading migrations

`Load` over a directory listing: names are matched against the filename
pattern, versions are parsed as 64-bit decimal numbers, and the result is
sorted by version. A listing is what `fs.ReadDir` returns, in any order; every
entry carries what reading its file would return. The digest is a parameter.
-/

namespace MigrationFiles

open ByteStrings HexText

structure Migration where
  version : Int
  name : Bytes
  sql : Bytes
  checksum : Bytes
  deriving DecidableEq, Repr

structure DirEntry where
  name : Bytes
  isDir : Bool
  contents : Except String Bytes

/-- The letters of the pattern's middle part: `[a-z0-9_-]`. -/
def isNameByte (b : UInt8) : Bool := isLower b || isDigit b || b = 95 || b = 45

/-- `filenamePattern.FindStringSubmatch`: the digits before the first underscore. No other
split can match, since digits exclude the underscore and the middle part excludes the dot. -/
def filenameVersion (name : Bytes) : Option Bytes :=
  let digits := name.takeWhile isDigit
  match name.dropWhile isDigit with
  | 95 :: tail =>
    let stem := tail.take (tail.length - 7)
    match stem with
    | first :: rest =>
      if digits ≠ [] ∧ tail.drop (tail.length - 7) = ascii ".up.sql" ∧
          (isLower first || isDigit first) = true ∧ rest.all isNameByte = true then some digits
      else none
    | [] => none
  | _ => none

/-- `strconv.ParseInt` on decimal digits, with its 64-bit range. -/
def parseInt (digits : Bytes) : Option Int :=
  let n : Nat := digits.foldl (fun n b => n * 10 + (b.toNat - 48)) 0
  if n < 2 ^ 63 then some (n : Int) else none

/-- A matched file name as `%q` prints it; it has no byte that needs an escape. -/
def quoted (name : Bytes) : String :=
  "\"" ++ String.ofList (name.map fun b => Char.ofNat b.toNat) ++ "\""

section Load

variable (sha256 : Bytes → Bytes)

/-- The loop of `Load`. The versions seen are those of the migrations collected so far. -/
def loadEntries : List DirEntry → List Migration → Except String (List Migration)
  | [], migrations => .ok migrations
  | entry :: rest, migrations =>
    if entry.isDir = true then loadEntries rest migrations
    else
      match filenameVersion entry.name with
      | none => loadEntries rest migrations
      | some digits =>
        match parseInt digits with
        | none => .error ("invalid migration version in " ++ quoted entry.name)
        | some version =>
          if version ≤ 0 then .error ("invalid migration version in " ++ quoted entry.name)
          else if version ∈ migrations.map Migration.version then
            .error ("duplicate migration version " ++ toString version)
          else
            match entry.contents with
            | .error e => .error ("read migration " ++ quoted entry.name ++ ": " ++ e)
            | .ok contents =>
              loadEntries rest
                (migrations ++ [⟨version, entry.name, contents, hexEncode (sha256 contents)⟩])

def load (directory : Except String (List DirEntry)) : Except String (List Migration) :=
  match directory with
  | .error e => .error ("read migrations: " ++ e)
  | .ok entries =>
    match loadEntries sha256 entries [] with
    | .error e => .error e
    | .ok migrations => .ok (migrations.insertionSort fun a b => a.version ≤ b.version)

end Load

/-- Versions are distinct and positive. -/
def Versioned (migrations : List Migration) : Prop :=
  (migrations.map Migration.version).Nodup ∧ ∀ m ∈ migrations, 0 < m.version

theorem loadEntries_versioned {sha256 : Bytes → Bytes} {entries : List DirEntry}
    {migrations loaded : List Migration} (before : Versioned migrations)
    (ok : loadEntries sha256 entries migrations = .ok loaded) : Versioned loaded := by
  induction entries generalizing migrations with
  | nil =>
    cases ok
    exact before
  | cons entry rest ih =>
    rw [loadEntries] at ok
    split at ok
    · exact ih before ok
    · split at ok
      · exact ih before ok
      · split at ok
        · cases ok
        · rename_i version _
          split at ok
          · cases ok
          · rename_i positive
            split at ok
            · cases ok
            · rename_i fresh
              split at ok
              · cases ok
              · refine ih ⟨?_, ?_⟩ ok
                · rw [List.map_append, List.nodup_append]
                  refine ⟨before.1, List.nodup_singleton _, ?_⟩
                  intro v old v' new same
                  have repeated : v = version := same.trans (List.mem_singleton.mp new)
                  exact fresh (repeated ▸ old)
                · intro m mem
                  rcases List.mem_append.mp mem with old | new
                  · exact before.2 m old
                  · rw [List.mem_singleton.mp new]
                    exact Int.not_le.mp positive

/-- What `Load` returns is in strictly increasing order of positive versions. -/
theorem load_increasing {sha256 : Bytes → Bytes} {directory : Except String (List DirEntry)}
    {migrations : List Migration} (ok : load sha256 directory = .ok migrations) :
    migrations.Pairwise (fun a b => a.version < b.version) ∧ ∀ m ∈ migrations, 0 < m.version := by
  unfold load at ok
  split at ok
  · cases ok
  · split at ok
    · cases ok
    · rename_i loaded collected
      cases ok
      have empty : Versioned [] := ⟨List.nodup_nil, by simp⟩
      have versioned : Versioned loaded := loadEntries_versioned empty collected
      have perm := List.perm_insertionSort (fun a b : Migration => a.version ≤ b.version) loaded
      refine ⟨?_, fun m mem => versioned.2 m (perm.mem_iff.mp mem)⟩
      have ordered : (loaded.insertionSort fun a b => a.version ≤ b.version).Pairwise
          fun a b => a.version ≤ b.version := by
        have total : Std.Total fun a b : Migration => a.version ≤ b.version :=
          ⟨fun a b => Int.le_total _ _⟩
        have trans : IsTrans Migration fun a b => a.version ≤ b.version :=
          ⟨fun a b c => Int.le_trans⟩
        exact List.pairwise_insertionSort _ _
      have distinct : (loaded.insertionSort fun a b => a.version ≤ b.version).Pairwise
          fun a b => a.version ≠ b.version := by
        rw [← List.pairwise_map]
        exact (perm.map Migration.version).nodup_iff.mpr versioned.1
      exact (ordered.and distinct).imp fun ⟨le, ne⟩ => lt_of_le_of_ne le ne

end MigrationFiles
