import Mathlib.Data.List.TakeWhile
import StumpfworksFramework.ByteStrings

/-!
# URL references

How Go's `net/url` takes a reference apart: the fragment is cut off first, then the
scheme, the query and the authority. Which texts may be a host or user information
(their bytes, brackets and ports) differs between releases and is a parameter.
The parse is lossy: the scheme is put into lower case, escapes are decoded, and a bare
`?` or `#` at the end leaves the query or the fragment empty.
-/

namespace UrlReferences

open ByteStrings

/-- The components of a parsed URL; `hasUser` is `User != nil`. -/
structure Url where
  scheme : Bytes
  opaquePart : Bytes
  hasUser : Bool
  host : Bytes
  path : Bytes
  forceQuery : Bool
  rawQuery : Bytes
  fragment : Bytes
  deriving DecidableEq, Repr

structure Rules where
  userinfo : Bytes → Bool
  host : Bytes → Bool

/-! ## Cutting text -/

/-- `strings.Cut`: the text before the first separator, and the text after it. -/
def cut (separator : UInt8) : Bytes → Bytes × Option Bytes
  | [] => ([], none)
  | b :: rest =>
    if b = separator then ([], some rest)
    else (b :: (cut separator rest).1, (cut separator rest).2)

/-- The text around the last separator. -/
def cutLast (separator : UInt8) : Bytes → Option (Bytes × Bytes)
  | [] => none
  | b :: rest =>
    match cutLast separator rest with
    | some (before, after) => some (b :: before, after)
    | none => if b = separator then some ([], rest) else none

theorem notMem_cut (separator : UInt8) (text : Bytes) : separator ∉ (cut separator text).1 := by
  induction text with
  | nil => simp [cut]
  | cons b rest ih =>
    rw [cut]
    split
    · simp
    · rename_i other
      simp [Ne.symm other, ih]

theorem cut_eq (separator : UInt8) (text : Bytes) :
    text = (cut separator text).1 ++ ((cut separator text).2.map (separator :: ·)).getD [] := by
  induction text with
  | nil => rfl
  | cons b rest ih =>
    rw [cut]
    split
    · rename_i same
      simp [same]
    · simpa using ih

/-- Nothing after the separator leaves at most the separator behind. -/
theorem cut_empty {separator : UInt8} {text : Bytes}
    (empty : (cut separator text).2.getD [] = []) :
    text = (cut separator text).1 ∨ text = (cut separator text).1 ++ [separator] := by
  have whole := cut_eq separator text
  cases after : (cut separator text).2 with
  | none =>
    rw [after] at whole
    exact .inl (by simpa using whole)
  | some rest =>
    rw [after] at whole empty
    cases empty
    exact .inr (by simpa using whole)

theorem cut_append {separator : UInt8} {before : Bytes} (first : separator ∉ before)
    (after : Bytes) : cut separator (before ++ separator :: after) = (before, some after) := by
  induction before with
  | nil => simp [cut]
  | cons b rest ih =>
    rw [List.mem_cons, not_or] at first
    rw [List.cons_append, cut, if_neg (Ne.symm first.1), ih first.2]

theorem cutLast_eq_none {separator : UInt8} {text : Bytes} (none : cutLast separator text = none) :
    separator ∉ text := by
  induction text with
  | nil => simp
  | cons b rest ih =>
    rw [cutLast] at none
    split at none
    · cases none
    · rename_i last
      split at none
      · cases none
      · rename_i other
        simp [Ne.symm other, ih last]

/-! ## Escapes -/

def unhex (b : UInt8) : UInt8 :=
  if b ≤ 57 then b - 48 else if 97 ≤ b then b - 97 + 10 else b - 65 + 10

/-- `unescape`, as far as the escapes themselves go. -/
def unescape : Bytes → Option Bytes
  | [] => some []
  | b :: rest =>
    if b = 37 then
      match rest with
      | high :: low :: rest =>
        if isHex high ∧ isHex low then (unescape rest).map ((unhex high * 16 + unhex low) :: ·)
        else none
      | _ => none
    else (unescape rest).map (b :: ·)

theorem unescape_cons_ne {b : UInt8} (plain : b ≠ 37) (rest : Bytes) :
    unescape (b :: rest) = (unescape rest).map (b :: ·) := by
  rw [unescape.eq_def]
  exact if_neg plain

theorem unescape_plain {text : Bytes} (plain : 37 ∉ text) : unescape text = some text := by
  induction text with
  | nil => rfl
  | cons b rest ih =>
    rw [List.mem_cons, not_or] at plain
    rw [unescape_cons_ne (Ne.symm plain.1), ih plain.2]
    rfl

/-- Decoding never lengthens a text, and an escape in it shortens it. -/
theorem length_unescape {text decoded : Bytes} (ok : unescape text = some decoded) :
    decoded.length ≤ text.length ∧ (37 ∈ text → decoded.length < text.length) := by
  fun_induction unescape text generalizing decoded with
  | case1 =>
    cases ok
    simp
  | case2 high low rest hex ih =>
    obtain ⟨tail, decodes, rfl⟩ := Option.map_eq_some_iff.mp ok
    have short := (ih decodes).1
    simp only [List.length_cons]
    omega
  | case3 high low rest hex => cases ok
  | case4 rest short => cases ok
  | case5 b rest plain ih =>
    obtain ⟨tail, decodes, rfl⟩ := Option.map_eq_some_iff.mp ok
    obtain ⟨short, shorter⟩ := ih decodes
    refine ⟨Nat.succ_le_succ short, fun mem => ?_⟩
    exact Nat.succ_lt_succ (shorter ((List.mem_cons.mp mem).resolve_left (Ne.symm plain)))

/-- A decoded text as long as the text is the text, and has no escapes. -/
theorem unescape_of_length {text decoded : Bytes} (ok : unescape text = some decoded)
    (length : text.length ≤ decoded.length) : decoded = text ∧ 37 ∉ text := by
  have plain : 37 ∉ text := fun mem => absurd ((length_unescape ok).2 mem) (Nat.not_lt.mpr length)
  rw [unescape_plain plain] at ok
  exact ⟨(Option.some.inj ok).symm, plain⟩

theorem unescape_eq_nil {text : Bytes} (ok : unescape text = some []) : text = [] := by
  fun_induction unescape text with
  | case1 => rfl
  | case2 high low rest hex ih => simp at ok
  | case3 high low rest hex => cases ok
  | case4 rest short => cases ok
  | case5 b rest plain ih => simp at ok

/-! ## Schemes -/

def isLetter (b : UInt8) : Bool := (97 ≤ b ∧ b ≤ 122) ∨ (65 ≤ b ∧ b ≤ 90)

/-- What a scheme may have after its first letter. -/
def isSchemeMark (b : UInt8) : Bool := (48 ≤ b ∧ b ≤ 57) ∨ b = 43 ∨ b = 45 ∨ b = 46

@[simp] theorem length_asciiLower (text : Bytes) : (asciiLower text).length = text.length :=
  List.length_map _

inductive Scan where
  | missing
  | absent
  | found (scheme rest : Bytes)
  deriving DecidableEq, Repr

def Scan.extend (b : UInt8) : Scan → Scan
  | .missing => .missing
  | .absent => .absent
  | .found scheme rest => .found (b :: scheme) rest

/-- The loop of `getScheme`; `first` at the first byte. -/
def scanScheme (first : Bool) : Bytes → Scan
  | [] => .absent
  | b :: rest =>
    if isLetter b = true then (scanScheme false rest).extend b
    else if isSchemeMark b = true then
      if first = true then .absent else (scanScheme false rest).extend b
    else if b = 58 then if first = true then .missing else .found [] rest
    else .absent

def getScheme (text : Bytes) : Option (Bytes × Bytes) :=
  match scanScheme true text with
  | .missing => none
  | .absent => some ([], text)
  | .found scheme rest => some (scheme, rest)

theorem scanScheme_found {first : Bool} {text scheme rest : Bytes}
    (found : scanScheme first text = .found scheme rest) :
    text = scheme ++ 58 :: rest ∧ 58 ∉ scheme := by
  induction text generalizing first scheme with
  | nil => cases found
  | cons b tail ih =>
    have extended : b ≠ 58 → (scanScheme false tail).extend b = .found scheme rest →
        b :: tail = scheme ++ 58 :: rest ∧ 58 ∉ scheme := by
      intro other more
      cases scan : scanScheme false tail with
      | missing => simp [scan, Scan.extend] at more
      | absent => simp [scan, Scan.extend] at more
      | found inner after =>
        rw [scan] at more
        cases more
        obtain ⟨same, colon⟩ := ih scan
        exact ⟨by rw [same, List.cons_append], by simp [Ne.symm other, colon]⟩
    rw [scanScheme] at found
    split at found
    · rename_i letter
      exact extended (by rintro rfl; simp [isLetter] at letter) found
    split at found
    · rename_i mark
      split at found
      · cases found
      · exact extended (by rintro rfl; simp [isSchemeMark] at mark) found
    split at found
    · rename_i colon
      split at found
      · cases found
      · cases found
        simp [colon]
    · cases found

theorem getScheme_some {text scheme rest : Bytes} (ok : getScheme text = some (scheme, rest))
    (some : scheme ≠ []) : text = scheme ++ 58 :: rest ∧ 58 ∉ scheme := by
  unfold getScheme at ok
  split at ok
  · cases ok
  · cases ok
    exact absurd rfl some
  · rename_i found
    cases ok
    exact scanScheme_found found

/-! ## Queries, authorities and paths -/

/-- The text before the query, whether it ends in the only `?`, and the query. -/
def takeQuery (text : Bytes) : Bytes × Bool × Bytes :=
  if text.getLast? = some 63 ∧ text.count 63 = 1 then (text.dropLast, true, [])
  else ((cut 63 text).1, false, (cut 63 text).2.getD [])

def parseHost (rules : Rules) (host : Bytes) : Option Bytes :=
  if rules.host host = true then unescape host else none

def parseAuthority (rules : Rules) (authority : Bytes) : Option (Bool × Bytes) :=
  match cutLast 64 authority with
  | none => (parseHost rules authority).map (false, ·)
  | some (userinfo, text) =>
    match parseHost rules text with
    | none => none
    | some host => if rules.userinfo userinfo = true then some (true, host) else none

/-- A reference after its scheme and its query. -/
def parseRest (rules : Rules) (scheme rest : Bytes) (forceQuery : Bool) (rawQuery : Bytes) :
    Option Url :=
  if [47] <+: rest then
    if [47, 47] <+: rest ∧ (scheme ≠ [] ∨ ¬ [47, 47, 47] <+: rest) then
      match parseAuthority rules ((rest.drop 2).takeWhile (· ≠ 47)),
        unescape ((rest.drop 2).dropWhile (· ≠ 47)) with
      | some (hasUser, host), some path =>
        some ⟨scheme, [], hasUser, host, path, forceQuery, rawQuery, []⟩
      | _, _ => none
    else
      (unescape rest).map fun path => ⟨scheme, [], false, [], path, forceQuery, rawQuery, []⟩
  else if scheme ≠ [] then some ⟨scheme, rest, false, [], [], forceQuery, rawQuery, []⟩
  else if 58 ∈ (cut 47 rest).1 then none
  else (unescape rest).map fun path => ⟨[], [], false, [], path, forceQuery, rawQuery, []⟩

/-- A reference without its fragment. -/
def parseBase (rules : Rules) (text : Bytes) : Option Url :=
  if ∃ b ∈ text, b < 32 ∨ b = 127 then none
  else if text = [42] then some ⟨[], [], false, [], [42], false, [], []⟩
  else
    match getScheme text with
    | none => none
    | some (scheme, rest) =>
      parseRest rules (asciiLower scheme) (takeQuery rest).1 (takeQuery rest).2.1
        (takeQuery rest).2.2

/-- `url.Parse`. -/
def parse (rules : Rules) (text : Bytes) : Option Url :=
  match parseBase rules (cut 35 text).1 with
  | none => none
  | some reference =>
    if (cut 35 text).2.getD [] = [] then some reference
    else (unescape ((cut 35 text).2.getD [])).map fun fragment =>
      { reference with fragment := fragment }

/-! ## References that end with the authority -/

/-- An empty query leaves at most a mark behind. -/
theorem takeQuery_empty {text : Bytes} (empty : (takeQuery text).2.2 = []) :
    63 ∉ (takeQuery text).1 ∧
      (text = (takeQuery text).1 ∨ text = (takeQuery text).1 ++ [63]) := by
  unfold takeQuery at empty ⊢
  split at empty
  · rename_i only
    rw [if_pos only]
    obtain ⟨front, rfl⟩ := List.getLast?_eq_some_iff.mp only.1
    have count := only.2
    rw [List.count_append, List.count_singleton_self] at count
    have unmarked : front.count 63 = 0 := by omega
    rw [List.dropLast_concat]
    exact ⟨List.count_eq_zero.mp unmarked, .inr rfl⟩
  · rename_i several
    rw [if_neg several]
    exact ⟨notMem_cut 63 text, cut_empty empty⟩

theorem parseAuthority_host {rules : Rules} {authority host : Bytes}
    (ok : parseAuthority rules authority = some (false, host)) :
    64 ∉ authority ∧ unescape authority = some host := by
  unfold parseAuthority at ok
  split at ok
  · rename_i last
    obtain ⟨decoded, parsed, same⟩ := Option.map_eq_some_iff.mp ok
    cases same
    refine ⟨cutLast_eq_none last, ?_⟩
    unfold parseHost at parsed
    split at parsed
    · exact parsed
    · cases parsed
  · split at ok
    · cases ok
    · split at ok <;> cases ok

theorem parseRest_host {rules : Rules} {scheme rest rawQuery : Bytes} {forceQuery : Bool}
    {r : Url} (ok : parseRest rules scheme rest forceQuery rawQuery = some r)
    (host : r.host ≠ []) (path : r.path = []) :
    ∃ authority, rest = 47 :: 47 :: authority ∧ 47 ∉ authority ∧
      parseAuthority rules authority = some (r.hasUser, r.host) ∧ r.scheme = scheme ∧
      r.rawQuery = rawQuery := by
  unfold parseRest at ok
  split at ok
  · split at ok
    · rename_i slashes
      obtain ⟨tail, rfl⟩ := slashes.1
      split at ok
      · rename_i hasUser host' path' authority decoded
        cases ok
        change path' = [] at path
        rw [path] at decoded
        have ends := unescape_eq_nil decoded
        have whole : tail.takeWhile (· ≠ 47) = tail := by
          have parts := List.takeWhile_append_dropWhile (p := (· ≠ (47 : UInt8))) (l := tail)
          change tail.dropWhile (· ≠ 47) = [] at ends
          rwa [ends, List.append_nil] at parts
        refine ⟨tail, rfl, fun slash => ?_, ?_, rfl, rfl⟩
        · rw [← whole] at slash
          simpa using List.mem_takeWhile_imp slash
        · rw [← whole]
          exact authority
      · cases ok
    · obtain ⟨path', _, same⟩ := Option.map_eq_some_iff.mp ok
      subst same
      exact absurd rfl host
  · split at ok
    · cases ok
      exact absurd rfl host
    · split at ok
      · cases ok
      · obtain ⟨path', _, same⟩ := Option.map_eq_some_iff.mp ok
        subst same
        exact absurd rfl host

theorem parseBase_scheme {rules : Rules} {text : Bytes} {r : Url}
    (ok : parseBase rules text = some r) (scheme : r.scheme ≠ []) (host : r.host ≠ [])
    (path : r.path = []) (query : r.rawQuery = []) :
    ∃ written authority marks, text = written ++ [58, 47, 47] ++ authority ++ marks ∧
      asciiLower written = r.scheme ∧ 58 ∉ written ∧ 47 ∉ authority ∧ 63 ∉ authority ∧
      parseAuthority rules authority = some (r.hasUser, r.host) ∧
      (marks = [] ∨ marks = [63]) := by
  unfold parseBase at ok
  split at ok
  · cases ok
  split at ok
  · cases ok
    exact absurd rfl scheme
  split at ok
  · cases ok
  rename_i written rest found
  obtain ⟨authority, slashes, slash, parsed, same, asked⟩ := parseRest_host ok host path
  obtain ⟨mark, ends⟩ := takeQuery_empty (asked.symm.trans query)
  have some : written ≠ [] := by
    rintro rfl
    exact scheme same
  obtain ⟨whole, colon⟩ := getScheme_some found some
  rw [slashes] at mark ends
  have unmarked : 63 ∉ authority := fun mem => mark (by simp [mem])
  rcases ends with rfl | rfl
  · exact ⟨written, authority, [], by simp [whole], same.symm, colon, slash, unmarked, parsed,
      .inl rfl⟩
  · exact ⟨written, authority, [63], by simp [whole], same.symm, colon, slash, unmarked, parsed,
      .inr rfl⟩

/-- An empty fragment leaves at most a mark behind. -/
theorem parse_fragment {rules : Rules} {text : Bytes} {r : Url}
    (ok : parse rules text = some r) (fragment : r.fragment = []) :
    ∃ base, parseBase rules base = some r ∧ 35 ∉ base ∧ (text = base ∨ text = base ++ [35]) := by
  unfold parse at ok
  split at ok
  · cases ok
  rename_i reference parsed
  have empty : (cut 35 text).2.getD [] = [] := by
    by_contra some
    rw [if_neg some] at ok
    obtain ⟨decoded, decodes, rfl⟩ := Option.map_eq_some_iff.mp ok
    change decoded = [] at fragment
    rw [fragment] at decodes
    exact some (unescape_eq_nil decodes)
  rw [if_pos empty] at ok
  exact ⟨(cut 35 text).1, parsed.trans ok, notMem_cut 35 text, cut_empty empty⟩

/-- Control bytes are looked for where the fragment has been cut off, so a reference without a
fragment has none. -/
theorem parse_printable {rules : Rules} {text : Bytes} {u : Url} (ok : parse rules text = some u)
    (fragment : u.fragment = []) : ∀ b ∈ text, ¬(b < 32 ∨ b = 127) := by
  obtain ⟨base, parsed, _, ends⟩ := parse_fragment ok fragment
  have printable : ∀ b ∈ base, ¬(b < 32 ∨ b = 127) := by
    unfold parseBase at parsed
    split at parsed
    · cases parsed
    · rename_i clean
      exact fun b mem control => clean ⟨b, mem, control⟩
  intro b mem
  rcases ends with rfl | rfl
  · exact printable b mem
  · rcases List.mem_append.mp mem with front | mark
    · exact printable b front
    · rw [List.mem_singleton.mp mark]
      decide

/-- A reference with a scheme and a host and nothing else that the parse reports: its
text is the scheme in some case, the host with its escapes, and at most bare marks. -/
theorem parse_bare {rules : Rules} {text : Bytes} {r : Url} (ok : parse rules text = some r)
    (scheme : r.scheme ≠ []) (host : r.host ≠ []) (user : r.hasUser = false) (path : r.path = [])
    (query : r.rawQuery = []) (fragment : r.fragment = []) :
    ∃ written authority marks, text = written ++ [58, 47, 47] ++ authority ++ marks ∧
      asciiLower written = r.scheme ∧ 58 ∉ written ∧ unescape authority = some r.host ∧
      (∀ b ∈ authority, b ≠ 47 ∧ b ≠ 63 ∧ b ≠ 35 ∧ b ≠ 64) ∧
      ∀ b ∈ marks, b = 63 ∨ b = 35 := by
  obtain ⟨base, parsed, hash, ends⟩ := parse_fragment ok fragment
  obtain ⟨written, authority, marks, rfl, same, colon, slash, mark, decoded, queried⟩ :=
    parseBase_scheme parsed scheme host path query
  rw [user] at decoded
  obtain ⟨sign, unescaped⟩ := parseAuthority_host decoded
  have unmarked : 35 ∉ authority := fun mem => hash (by simp [mem])
  have plain : ∀ b ∈ authority, b ≠ 47 ∧ b ≠ 63 ∧ b ≠ 35 ∧ b ≠ 64 := by
    intro b mem
    refine ⟨?_, ?_, ?_, ?_⟩
    · exact fun same => slash (same ▸ mem)
    · exact fun same => mark (same ▸ mem)
    · exact fun same => unmarked (same ▸ mem)
    · exact fun same => sign (same ▸ mem)
  have query : ∀ b ∈ marks, b = 63 ∨ b = 35 := by
    rcases queried with rfl | rfl
    · simp
    · simp
  rcases ends with rfl | rfl
  · exact ⟨written, authority, marks, rfl, same, colon, unescaped, plain, query⟩
  · refine ⟨written, authority, marks ++ [35], by simp, same, colon, unescaped, plain, ?_⟩
    intro b mem
    rcases List.mem_append.mp mem with inside | last
    · exact query b inside
    · exact .inr (List.mem_singleton.mp last)

/-- Hosts of letters, digits, dots, hyphens and escapes, and no user information. -/
def plainRules : Rules where
  userinfo := fun _ => false
  host := fun text => text.all fun b => isLetter b || isSchemeMark b || b = 37

end UrlReferences
