import StumpfworksFramework.CorsDecisions

/-!
# Entries of the origin allowlist

The constructor looks at the parts that `url.Parse` reports. An entry matches an
`Origin` header by its bytes, so what the parse does not report decides whether the
entry is the origin it stands for.
-/

namespace CorsOrigins

open ByteStrings Instants CorsPolicy CorsDecisions UrlReferences

/-- The entry is the scheme and the host of its own parsed form, byte for byte, and
nothing in it starts a path, a query or a fragment or ends user information. -/
def ExactOrigin (rules : Rules) (entry : Bytes) : Prop :=
  ∃ u, parse rules entry = some u ∧ (u.scheme = ascii "http" ∨ u.scheme = ascii "https") ∧
    u.host ≠ [] ∧ entry = u.scheme ++ ascii "://" ++ u.host ∧
    ∀ b ∈ u.host, b ≠ 47 ∧ b ≠ 63 ∧ b ≠ 35 ∧ b ≠ 64

/-- The scheme is written in lower case, and the entry has no `?`, `#` or `%`. -/
def Plain (entry : Bytes) : Prop :=
  (ascii "http://" <+: entry ∨ ascii "https://" <+: entry) ∧
    ∀ b ∈ entry, b ≠ 63 ∧ b ≠ 35 ∧ b ≠ 37

instance (entry : Bytes) : Decidable (Plain entry) := inferInstanceAs (Decidable (_ ∧ _))

theorem separator_eq : ascii "://" = [58, 47, 47] := by decide +kernel

/-- Both schemes are plain text in lower case without a colon. -/
theorem scheme_plain {scheme : Bytes} (http : scheme = ascii "http" ∨ scheme = ascii "https") :
    (∀ b ∈ scheme, b ≠ 63 ∧ b ≠ 35 ∧ b ≠ 37) ∧ 58 ∉ scheme ∧ asciiLower scheme = scheme := by
  have both : ∀ scheme ∈ [ascii "http", ascii "https"],
      (∀ b ∈ scheme, b ≠ 63 ∧ b ≠ 35 ∧ b ≠ 37) ∧ 58 ∉ scheme ∧ asciiLower scheme = scheme := by
    decide +kernel
  exact both scheme (by simpa using http)

/-- A scheme in lower case at the start of a text is the text before the first colon. -/
theorem written_of_start {entry written rest : Bytes}
    (start : ascii "http://" <+: entry ∨ ascii "https://" <+: entry)
    (whole : entry = written ++ 58 :: rest) (colon : 58 ∉ written) :
    asciiLower written = written := by
  have scheme : ∃ scheme after, (scheme = ascii "http" ∨ scheme = ascii "https") ∧
      entry = scheme ++ 58 :: after := by
    rcases start with ⟨after, same⟩ | ⟨after, same⟩
    · exact ⟨_, 47 :: 47 :: after, .inl rfl, same.symm⟩
    · exact ⟨_, 47 :: 47 :: after, .inr rfl, same.symm⟩
  obtain ⟨scheme, after, http, same⟩ := scheme
  obtain ⟨-, uncolon, lowered⟩ := scheme_plain http
  have cuts := congrArg (cut 58) (whole.symm.trans same)
  rw [cut_append colon, cut_append uncolon] at cuts
  cases cuts
  exact lowered

/-- The parts of an accepted entry: what was written and what the parse reports of it. -/
structure Parts (rules : Rules) (entry : Bytes) (u : Url) (written authority marks : Bytes) :
    Prop where
  parsed : parse rules entry = some u
  http : u.scheme = ascii "http" ∨ u.scheme = ascii "https"
  host : u.host ≠ []
  whole : entry = written ++ [58, 47, 47] ++ authority ++ marks
  scheme : asciiLower written = u.scheme
  colon : 58 ∉ written
  decoded : unescape authority = some u.host
  plain : ∀ b ∈ authority, b ≠ 47 ∧ b ≠ 63 ∧ b ≠ 35 ∧ b ≠ 64
  marks : ∀ b ∈ marks, b = 63 ∨ b = 35

theorem accepted_parts {S : Strings} {rules : Rules} (parses : S.parseUrl = parse rules)
    {entry : Bytes} (accepted : acceptedOrigin S entry = true) :
    ∃ u written authority marks, Parts rules entry u written authority marks := by
  unfold acceptedOrigin at accepted
  rw [parses] at accepted
  split at accepted
  · cases accepted
  rename_i u parsed
  obtain ⟨http, host, user, path, query, fragment⟩ := of_decide_eq_true accepted
  have scheme : u.scheme ≠ [] := by
    intro empty
    rcases http with same | same
    · exact absurd (empty.symm.trans same) (by decide +kernel)
    · exact absurd (empty.symm.trans same) (by decide +kernel)
  obtain ⟨written, authority, marks, whole, lowered, colon, decoded, plain, marked⟩ :=
    parse_bare parsed scheme host user path query fragment
  exact ⟨_, written, authority, marks, parsed, http, host, whole, lowered, colon, decoded, plain,
    marked⟩

section Parts

variable {rules : Rules} {entry written authority marks : Bytes} {u : Url}

/-- An entry no longer than scheme and host has nothing decoded or left out. -/
theorem Parts.host_eq (parts : Parts rules entry u written authority marks)
    (bytes : entry = u.scheme ++ ascii "://" ++ u.host) : u.host = authority ∧ 37 ∉ authority := by
  have length : written.length = u.scheme.length := by rw [← parts.scheme, length_asciiLower]
  have lengths := congrArg List.length (parts.whole.symm.trans bytes)
  simp only [separator_eq, List.length_append] at lengths
  have short := (length_unescape parts.decoded).1
  exact unescape_of_length parts.decoded (by omega)

theorem Parts.plain_of_exact (parts : Parts rules entry u written authority marks)
    (bytes : entry = u.scheme ++ ascii "://" ++ u.host) : Plain entry := by
  obtain ⟨same, unescaped⟩ := parts.host_eq bytes
  obtain ⟨unmarked, -, -⟩ := scheme_plain parts.http
  refine ⟨?_, ?_⟩
  · rw [bytes]
    rcases parts.http with scheme | scheme
    · exact .inl ⟨u.host, by rw [scheme]; rfl⟩
    · exact .inr ⟨u.host, by rw [scheme]; rfl⟩
  · intro b mem
    rw [bytes, same, separator_eq, List.mem_append, List.mem_append] at mem
    rcases mem with (inScheme | inSeparator) | inHost
    · exact unmarked b inScheme
    · have colons : ∀ b ∈ ([58, 47, 47] : Bytes), b ≠ 63 ∧ b ≠ 35 ∧ b ≠ 37 := by decide +kernel
      exact colons b inSeparator
    · obtain ⟨-, mark, hash, -⟩ := parts.plain b inHost
      exact ⟨mark, hash, fun escape => unescaped (escape ▸ inHost)⟩

theorem Parts.exact_of_plain (parts : Parts rules entry u written authority marks)
    (plain : Plain entry) : authority = u.host ∧ entry = u.scheme ++ ascii "://" ++ u.host := by
  obtain ⟨start, bare⟩ := plain
  have noMarks : marks = [] := by
    refine List.eq_nil_iff_forall_not_mem.mpr fun b mem => ?_
    have inside := bare b (by simp [parts.whole, mem])
    exact (parts.marks b mem).elim inside.1 inside.2.1
  have noEscapes : 37 ∉ authority := fun mem => (bare 37 (by simp [parts.whole, mem])).2.2 rfl
  have sameHost : authority = u.host :=
    Option.some.inj ((unescape_plain noEscapes).symm.trans parts.decoded)
  have sameScheme : written = u.scheme := by
    have afterScheme : entry = written ++ 58 :: (47 :: 47 :: (authority ++ marks)) := by
      simp [parts.whole]
    rw [← parts.scheme, written_of_start start afterScheme parts.colon]
  refine ⟨sameHost, ?_⟩
  rw [← sameHost, ← sameScheme, separator_eq]
  simpa [noMarks] using parts.whole

end Parts

theorem exactOrigin_iff_plain {S : Strings} {rules : Rules} (parses : S.parseUrl = parse rules)
    {entry : Bytes} (accepted : acceptedOrigin S entry = true) :
    ExactOrigin rules entry ↔ Plain entry := by
  obtain ⟨u, written, authority, marks, parts⟩ := accepted_parts parses accepted
  constructor
  · rintro ⟨u', parsed, -, -, bytes, -⟩
    cases parts.parsed.symm.trans parsed
    exact parts.plain_of_exact bytes
  · intro plain
    obtain ⟨same, bytes⟩ := parts.exact_of_plain plain
    exact ⟨u, parts.parsed, parts.http, parts.host, bytes, fun b mem => parts.plain b (same ▸ mem)⟩

/-- Of the entries that the constructor accepts, exactly those are origins byte for byte
that are written with a scheme in lower case and without `?`, `#` and `%`. -/
theorem exact_origins_iff (S : Strings) (rules : Rules) (parses : S.parseUrl = parse rules)
    (options : CorsOptions) (p : Policy) (accepted : cors S options = .ok p) (entry : Bytes)
    (listed : entry ∈ options.allowedOrigins) (named : entry ≠ ascii "*") :
    ExactOrigin rules entry ↔ Plain entry :=
  exactOrigin_iff_plain parses ((cors_built accepted).accepted entry listed named)

def parsingStrings : Strings := { sampleStrings with parseUrl := parse plainRules }

/-- A policy with these origins and nothing else. -/
def listing (origins : List Bytes) : CorsOptions where
  allowedOrigins := origins
  allowedMethods := []
  allowedHeaders := []
  exposedHeaders := []
  allowCredentials := false
  maxAge := 0

theorem exact_origins_plain : ExactOrigin plainRules (ascii "https://app.example") :=
  (exact_origins_iff parsingStrings plainRules rfl (listing [ascii "https://app.example"])
    ⟨[ascii "https://app.example"], false, [], [], listing [ascii "https://app.example"]⟩
    (by decide +kernel) _ (by decide +kernel) (by decide +kernel)).mpr (by decide +kernel)

/-- A bare query mark, a bare fragment mark, a scheme in capitals and an escaped host. -/
def inexactOrigins : List Bytes :=
  [ascii "https://app.example?", ascii "https://app.example#", ascii "HTTPS://app.example",
    ascii "https://caf%C3%A9.example"]

theorem inexact_accepted :
    cors parsingStrings (listing inexactOrigins) =
      .ok ⟨inexactOrigins, false, [], [], listing inexactOrigins⟩ ∧
    ∀ entry ∈ inexactOrigins, ¬ ExactOrigin plainRules entry := by
  refine ⟨by decide +kernel, fun entry mem => ?_⟩
  have accepted : ∀ entry ∈ inexactOrigins, acceptedOrigin parsingStrings entry = true := by
    decide +kernel
  have marked : ∀ entry ∈ inexactOrigins, ¬ Plain entry := by decide +kernel
  rw [exactOrigin_iff_plain rfl (accepted entry mem)]
  exact marked entry mem

end CorsOrigins
