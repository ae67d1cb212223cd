import Mathlib.Data.Finset.Card
import StumpfworksFramework.ByteStrings
import StumpfworksFramework.FiniteMaps

/-!
# Permission keys and sets

`Parse` and `New` of the `authz` package with the queries of a set. `Parse` is a loop
over the bytes with one flag; the keys it accepts are described by segments joined
with dots. A set is a map from keys, and grants what it has as a key.
-/

namespace PermissionKeys

open ByteStrings FiniteMaps

def maxKeyBytes : Nat := 100
def maxPermission : Nat := 256

/-! ## The code -/

def isKeyByte (c : UInt8) : Bool := isLower c || (48 ≤ c ∧ c ≤ 57) || c = 45 || c = 95

/-- The loop of `Parse`, with what is left of the value. -/
def checkBytes (segmentStart : Bool) : Bytes → Except String Unit
  | [] => .ok ()
  | c :: rest =>
    if c = 46 then
      if segmentStart = true ∨ rest = [] then .error "permission contains an empty segment"
      else checkBytes true rest
    else if segmentStart = true ∧ (c < 97 ∨ c > 122) then
      .error "permission segments must start with a lowercase letter"
    else if isKeyByte c = false then .error "permission contains an unsupported character"
    else checkBytes false rest

def parse (value : Bytes) : Except String Bytes :=
  if value.length = 0 ∨ value.length > maxKeyBytes then
    .error "permission length must be between 1 and 100 bytes"
  else
    match checkBytes true value with
    | .error e => .error e
    | .ok _ => .ok value

/-- `Set`; the zero value has no keys. -/
structure PermissionSet where
  values : FiniteMap Bytes Unit

def PermissionSet.empty : PermissionSet := ⟨∅⟩

/-- The loop of `New`. -/
def addAll : List Bytes → FiniteMap Bytes Unit → PermissionSet × Option String
  | [], result => (⟨result⟩, none)
  | value :: rest, result =>
    match parse value with
    | .error e => (.empty, some e)
    | .ok permission => addAll rest (result.insert permission ())

/-- `New`: a set and an error. -/
def new (values : List Bytes) : PermissionSet × Option String :=
  if values.length > maxPermission then
    (.empty, some ("permission set exceeds " ++ toString maxPermission ++ " entries"))
  else addAll values ∅

section Queries

variable (s : PermissionSet)

def PermissionSet.has (permission : Bytes) : Bool := (s.values.lookup permission).isSome

def PermissionSet.hasAll : List Bytes → Bool
  | [] => true
  | permission :: rest => if s.has permission = false then false else hasAll rest

def PermissionSet.hasAny : List Bytes → Bool
  | [] => false
  | permission :: rest => if s.has permission = true then true else hasAny rest

def PermissionSet.len : Nat := size s.values

end Queries

/-! ## Keys -/

/-- A segment starts with a letter. -/
def Segment (text : Bytes) : Prop :=
  ∃ first rest, text = first :: rest ∧ isLower first = true ∧ ∀ b ∈ rest, isKeyByte b = true

/-- Segments joined by single dots, at least one. -/
def Key (text : Bytes) : Prop :=
  ∃ segments, segments ≠ [] ∧ (∀ s ∈ segments, Segment s) ∧ text = List.intercalate [46] segments

/-- What may follow inside a segment. -/
def Continues (text : Bytes) : Prop :=
  ∃ tail, (∀ b ∈ tail, isKeyByte b = true) ∧
    (text = tail ∨ ∃ more, Key more ∧ text = tail ++ 46 :: more)

theorem isKeyByte_of_isLower {c : UInt8} (letter : isLower c = true) : isKeyByte c = true := by
  simp [isKeyByte, letter]

theorem not_isKeyByte_dot : ¬ isKeyByte 46 = true := by decide

theorem Segment.key {text : Bytes} (segment : Segment text) : Key text :=
  ⟨[text], by simp, by simpa using segment, by simp [List.intercalate]⟩

theorem Segment.append_key {text more : Bytes} (segment : Segment text) (key : Key more) :
    Key (text ++ 46 :: more) := by
  obtain ⟨segments, some, all, rfl⟩ := key
  obtain ⟨second, others, rfl⟩ := List.exists_cons_of_ne_nil some
  refine ⟨text :: second :: others, by simp, ?_, ?_⟩
  · intro s mem
    rcases List.mem_cons.mp mem with rfl | later
    · exact segment
    · exact all s later
  · simp [List.intercalate, List.intersperse]

/-- A key is a segment, or a segment, a dot and a key. -/
theorem key_iff {text : Bytes} : Key text ↔
    ∃ segment, Segment segment ∧
      (text = segment ∨ ∃ more, Key more ∧ text = segment ++ 46 :: more) := by
  constructor
  · rintro ⟨segments, some, all, rfl⟩
    obtain ⟨first, others, rfl⟩ := List.exists_cons_of_ne_nil some
    refine ⟨first, all first List.mem_cons_self, ?_⟩
    cases others with
    | nil => exact .inl (by simp [List.intercalate])
    | cons second others =>
      refine .inr ⟨List.intercalate [46] (second :: others), ?_, ?_⟩
      · exact ⟨second :: others, by simp, fun s mem => all s (List.mem_cons_of_mem _ mem), rfl⟩
      · simp [List.intercalate, List.intersperse]
  · rintro ⟨segment, ok, rfl | ⟨more, key, rfl⟩⟩
    · exact ok.key
    · exact ok.append_key key

theorem key_cons_iff {c : UInt8} {rest : Bytes} :
    Key (c :: rest) ↔ isLower c = true ∧ Continues rest := by
  rw [key_iff]
  constructor
  · rintro ⟨_, ⟨first, tail, rfl, letter, bytes⟩, same | ⟨more, key, same⟩⟩
    · cases same
      exact ⟨letter, rest, bytes, .inl rfl⟩
    · cases same
      exact ⟨letter, tail, bytes, .inr ⟨more, key, rfl⟩⟩
  · rintro ⟨letter, tail, bytes, rfl | ⟨more, key, rfl⟩⟩
    · exact ⟨_, ⟨c, rest, rfl, letter, bytes⟩, .inl rfl⟩
    · exact ⟨_, ⟨c, tail, rfl, letter, bytes⟩, .inr ⟨more, key, rfl⟩⟩

theorem not_key_nil : ¬ Key [] := by
  rw [key_iff]
  rintro ⟨_, ⟨first, tail, rfl, -, -⟩, same | ⟨more, -, same⟩⟩
  · cases same
  · cases same

theorem continues_nil : Continues [] := ⟨[], by simp, .inl rfl⟩

theorem continues_dot_iff {rest : Bytes} : Continues (46 :: rest) ↔ Key rest := by
  constructor
  · rintro ⟨tail, bytes, same⟩
    cases tail with
    | nil =>
      rcases same with same | ⟨more, key, same⟩
      · cases same
      · cases same
        exact key
    | cons b tail =>
      -- a dot is no byte of a segment
      have dot : b = 46 := by
        rcases same with same | ⟨more, -, same⟩
        · exact (List.cons.inj same).1.symm
        · exact (List.cons.inj same).1.symm
      exact absurd (dot ▸ bytes b List.mem_cons_self) not_isKeyByte_dot
  · intro key
    exact ⟨[], by simp, .inr ⟨rest, key, rfl⟩⟩

theorem continues_cons_iff {c : UInt8} {rest : Bytes} (other : c ≠ 46) :
    Continues (c :: rest) ↔ isKeyByte c = true ∧ Continues rest := by
  constructor
  · rintro ⟨tail, bytes, same⟩
    cases tail with
    | nil =>
      rcases same with same | ⟨more, -, same⟩
      · cases same
      · exact absurd (List.cons.inj same).1 other
    | cons b tail =>
      obtain ⟨first, later⟩ := List.forall_mem_cons.mp bytes
      rcases same with same | ⟨more, key, same⟩
      · cases same
        exact ⟨first, rest, later, .inl rfl⟩
      · cases same
        exact ⟨first, tail, later, .inr ⟨more, key, rfl⟩⟩
  · rintro ⟨byte, tail, bytes, rfl | ⟨more, key, rfl⟩⟩
    · exact ⟨c :: rest, List.forall_mem_cons.mpr ⟨byte, bytes⟩, .inl rfl⟩
    · exact ⟨c :: tail, List.forall_mem_cons.mpr ⟨byte, bytes⟩, .inr ⟨more, key, rfl⟩⟩

/-! ## The parser -/

/-- The flag tells the two states of the loop apart: a key is expected, or the rest of
a segment. -/
theorem checkBytes_ok_iff (text : Bytes) :
    (checkBytes true text = .ok () ↔ text = [] ∨ Key text) ∧
      (checkBytes false text = .ok () ↔ Continues text) := by
  induction text with
  | nil => exact ⟨by simp [checkBytes], by simp [checkBytes, continues_nil]⟩
  | cons c rest ih =>
    obtain ⟨atStart, inside⟩ := ih
    by_cases dot : c = 46
    · subst dot
      refine ⟨?_, ?_⟩
      · have letter : ¬ isLower 46 = true := by decide
        simp [checkBytes, key_cons_iff, letter]
      · rw [continues_dot_iff, checkBytes, if_pos rfl]
        by_cases last : rest = []
        · simp [last, not_key_nil]
        · rw [if_neg (by simp [last]), atStart, or_iff_right last]
    · refine ⟨?_, ?_⟩
      · rw [key_cons_iff, checkBytes, if_neg dot]
        by_cases letter : isLower c = true
        · have start : ¬ (true = true ∧ (c < 97 ∨ c > 122)) := by
            simpa [isLower] using letter
          rw [if_neg start, if_neg (by simp [isKeyByte_of_isLower letter]), inside]
          simp [letter]
        · have start : true = true ∧ (c < 97 ∨ c > 122) := by
            refine ⟨rfl, ?_⟩
            by_contra neither
            exact letter (by simpa [isLower] using neither)
          rw [if_pos start]
          simp [letter]
      · rw [continues_cons_iff dot, checkBytes, if_neg dot, if_neg (by simp)]
        by_cases byte : isKeyByte c = true
        · rw [if_neg (by simp [byte]), inside]
          simp [byte]
        · rw [if_pos (by simpa using byte)]
          simp [byte]

/-- A key of a length that a permission may have. -/
def Accepted (text : Bytes) : Prop := 1 ≤ text.length ∧ text.length ≤ 100 ∧ Key text

theorem parse_ok_iff (value permission : Bytes) :
    parse value = .ok permission ↔ Accepted value ∧ permission = value := by
  unfold parse
  split
  · rename_i length
    simp only [reduceCtorEq, false_iff, Accepted]
    rintro ⟨⟨low, high, -⟩, -⟩
    simp only [maxKeyBytes] at length
    omega
  · rename_i length
    simp only [maxKeyBytes] at length
    have some : value ≠ [] := fun empty => length (.inl (by simp [empty]))
    have checked := (checkBytes_ok_iff value).1
    rw [or_iff_right some] at checked
    split
    · rename_i failed
      rw [failed] at checked
      simp only [reduceCtorEq, false_iff] at checked ⊢
      exact fun both => checked both.1.2.2
    · rename_i passed
      have key := checked.mp passed
      refine ⟨fun same => ⟨⟨by omega, by omega, key⟩, (Except.ok.inj same).symm⟩, ?_⟩
      rintro ⟨-, rfl⟩
      rfl

/-! ## Sets -/

/-- The set grants what the list has, and counts what is different in it. -/
structure Grants (s : PermissionSet) (listed : List Bytes) : Prop where
  has : ∀ p, s.has p = true ↔ p ∈ listed
  hasAll : ∀ required, s.hasAll required = true ↔ ∀ p ∈ required, p ∈ listed
  hasAny : ∀ required, s.hasAny required = true ↔ ∃ p ∈ required, p ∈ listed
  len : s.len = listed.toFinset.card

section Sets

variable {s t : PermissionSet} {listed : List Bytes}

theorem hasAll_iff (required : List Bytes) :
    s.hasAll required = true ↔ ∀ p ∈ required, s.has p = true := by
  induction required with
  | nil => simp [PermissionSet.hasAll]
  | cons p rest ih =>
    rw [PermissionSet.hasAll, List.forall_mem_cons]
    cases here : s.has p with
    | false => simp
    | true => simpa using ih

theorem hasAny_iff (required : List Bytes) :
    s.hasAny required = true ↔ ∃ p ∈ required, s.has p = true := by
  induction required with
  | nil => simp [PermissionSet.hasAny]
  | cons p rest ih =>
    rw [PermissionSet.hasAny]
    cases here : s.has p with
    | false => simpa [here] using ih
    | true => simp [here]

/-- The other queries follow from which keys the map has. -/
theorem grants_of_has (has : ∀ p, s.has p = true ↔ p ∈ listed) : Grants s listed where
  has := has
  hasAll required := by
    rw [hasAll_iff]
    exact forall₂_congr fun p _ => has p
  hasAny required := by
    rw [hasAny_iff]
    exact exists_congr fun p => and_congr_right fun _ => has p
  len := by
    have keys : s.values.keys.toFinset = listed.toFinset := by
      refine Finset.ext fun p => ?_
      rw [List.mem_toFinset, List.mem_toFinset, ← has]
      exact AList.lookup_isSome.symm
    rw [← keys, List.toFinset_card_of_nodup s.values.keys_nodup]
    exact (List.length_map _).symm

/-- Two sets that grant lists with the same members answer every query alike. -/
theorem Grants.alike {listed' : List Bytes} (first : Grants s listed) (second : Grants t listed')
    (same : ∀ v, v ∈ listed ↔ v ∈ listed') :
    (∀ p, s.has p = t.has p) ∧ (∀ q, s.hasAll q = t.hasAll q) ∧
      (∀ q, s.hasAny q = t.hasAny q) ∧ s.len = t.len := by
  refine ⟨fun p => ?_, fun q => ?_, fun q => ?_, ?_⟩
  · rw [Bool.eq_iff_iff, first.has, second.has, same]
  · rw [Bool.eq_iff_iff, first.hasAll, second.hasAll]
    exact forall₂_congr fun p _ => same p
  · rw [Bool.eq_iff_iff, first.hasAny, second.hasAny]
    exact exists_congr fun p => and_congr_right fun _ => same p
  · rw [first.len, second.len]
    exact congrArg Finset.card (Finset.ext fun p => by simp [same])

end Sets

theorem parse_of_accepted {value : Bytes} (accepted : Accepted value) : parse value = .ok value :=
  (parse_ok_iff value value).mpr ⟨accepted, rfl⟩

theorem addAll_of_accepted {values : List Bytes} (accepted : ∀ v ∈ values, Accepted v)
    (result : FiniteMap Bytes Unit) :
    (addAll values result).2 = none ∧ ∀ p, (addAll values result).1.has p = true ↔
      (result.lookup p).isSome = true ∨ p ∈ values := by
  induction values generalizing result with
  | nil => simp [addAll, PermissionSet.has]
  | cons value rest ih =>
    obtain ⟨first, later⟩ := List.forall_mem_cons.mp accepted
    rw [addAll, parse_of_accepted first]
    obtain ⟨passed, has⟩ := ih later (result.insert value ())
    refine ⟨passed, fun p => ?_⟩
    rw [has, List.mem_cons]
    by_cases same : p = value
    · subst same
      simp
    · simp [same, AList.lookup_insert_ne same]

theorem addAll_of_not_accepted {values : List Bytes} (refused : ¬ ∀ v ∈ values, Accepted v)
    (result : FiniteMap Bytes Unit) : ∃ e, addAll values result = (.empty, some e) := by
  induction values generalizing result with
  | nil => simp at refused
  | cons value rest ih =>
    rw [addAll]
    cases parsed : parse value with
    | error e => exact ⟨e, rfl⟩
    | ok permission =>
      have first := ((parse_ok_iff value permission).mp parsed).1
      exact ih (fun later => refused (List.forall_mem_cons.mpr ⟨first, later⟩)) _

/-- What `New` takes. -/
def Acceptable (values : List Bytes) : Prop := values.length ≤ 256 ∧ ∀ v ∈ values, Accepted v

theorem new_of_acceptable {values : List Bytes} (ok : Acceptable values) :
    (new values).2 = none ∧ Grants (new values).1 values := by
  have short : ¬ values.length > maxPermission := Nat.not_lt.mpr ok.1
  rw [new, if_neg short]
  obtain ⟨passed, has⟩ := addAll_of_accepted ok.2 ∅
  refine ⟨passed, grants_of_has fun p => ?_⟩
  rw [has]
  simp

theorem new_of_not_acceptable {values : List Bytes} (refused : ¬ Acceptable values) :
    ∃ e, new values = (.empty, some e) := by
  unfold new
  split
  · exact ⟨_, rfl⟩
  · rename_i short
    exact addAll_of_not_accepted (fun all => refused ⟨Nat.not_lt.mp short, all⟩) ∅

theorem grants_empty : Grants .empty [] := grants_of_has fun p => by
  simp [PermissionSet.has, PermissionSet.empty]

/-- `Parse` accepts exactly the keys of one to a hundred bytes, unchanged. `New` accepts
exactly lists of at most 256 such keys; its set grants what the list has and nothing
else, whatever the order and repetitions, and grants nothing where it fails. -/
theorem permissions_exact :
    (∀ value permission, parse value = .ok permission ↔
      (1 ≤ value.length ∧ value.length ≤ 100 ∧ Key value) ∧ permission = value) ∧
    (∀ values, (new values).2 = none ↔ values.length ≤ 256 ∧
      ∀ v ∈ values, 1 ≤ v.length ∧ v.length ≤ 100 ∧ Key v) ∧
    (∀ values, (new values).2 = none → Grants (new values).1 values) ∧
    (∀ values values', (new values).2 = none → values'.length ≤ 256 →
      (∀ v, v ∈ values ↔ v ∈ values') →
      (new values').2 = none ∧
      (∀ p, (new values').1.has p = (new values).1.has p) ∧
      (∀ required, (new values').1.hasAll required = (new values).1.hasAll required) ∧
      (∀ required, (new values').1.hasAny required = (new values).1.hasAny required) ∧
      (new values').1.len = (new values).1.len) ∧
    (∀ values, (new values).2 ≠ none → Grants (new values).1 []) := by
  have succeeds : ∀ values, (new values).2 = none ↔ Acceptable values := by
    intro values
    refine ⟨fun none => ?_, fun ok => (new_of_acceptable ok).1⟩
    by_contra refused
    obtain ⟨e, failed⟩ := new_of_not_acceptable refused
    rw [failed] at none
    cases none
  refine ⟨parse_ok_iff, succeeds, ?_, ?_, ?_⟩
  · intro values ok
    exact (new_of_acceptable ((succeeds values).mp ok)).2
  · intro values values' ok short same
    have acceptable := (succeeds values).mp ok
    have acceptable' : Acceptable values' :=
      ⟨short, fun v mem => acceptable.2 v ((same v).mpr mem)⟩
    obtain ⟨ok', grants'⟩ := new_of_acceptable acceptable'
    exact ⟨ok', grants'.alike (new_of_acceptable acceptable).2 fun v => (same v).symm⟩
  · intro values failed
    obtain ⟨e, refused⟩ := new_of_not_acceptable (mt (succeeds values).mpr failed)
    rw [refused]
    exact grants_empty

/-- A list with a repeated entry, and its entries in another order. -/
theorem permissions_exact_repeated :
    (new [ascii "users.read", ascii "audit", ascii "users.read"]).1.has (ascii "users.read") =
        true ∧
      (new [ascii "audit", ascii "users.read"]).1.len =
        (new [ascii "users.read", ascii "audit", ascii "users.read"]).1.len := by
  obtain ⟨-, -, grants, alike, -⟩ := permissions_exact
  have ok : (new [ascii "users.read", ascii "audit", ascii "users.read"]).2 = none := by
    decide +kernel
  refine ⟨((grants _ ok).has _).mpr List.mem_cons_self, ?_⟩
  refine (alike _ _ ok (by decide) fun v => ?_).2.2.2.2
  simp only [List.mem_cons, List.not_mem_nil, or_false]
  tauto

end PermissionKeys
