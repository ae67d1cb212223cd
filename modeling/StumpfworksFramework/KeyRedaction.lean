import StumpfworksFramework.AuditMetadata

/-!
# Sensitive keys in every spelling

A key is compared with the listed words after it has been put into lower case
and its separators have been exchanged for underscores. For ASCII keys this is
done byte by byte, so a match at the end of the normalised key is a match at the
end of the key itself, behind a separator. `strings.ToLower` is modelled for all
strings, with the mapping of runes as a parameter, because text before a key may
be anything. The log handler and the audit inspection both rest on the
classification.
-/

namespace KeyRedaction

open ByteStrings JsonTrees SensitiveKeys AuditMetadata Utf8Runes

/-! ## Lower case -/

theorem asciiLower_eq (text : Bytes) : asciiLower text = text.map lowerByte := rfl

/-- `strings.ToLower`; `lower` is `unicode.ToLower`. -/
def stringsToLower (lower : Nat → Nat) (text : Bytes) : Bytes :=
  if text.all (fun b => b < 0x80) = true then asciiLower text else mapRunes lower text

/-- The mapping of runes knows the letters of ASCII. -/
def LowersAscii (lower : Nat → Nat) : Prop :=
  ∀ b : UInt8, b < 0x80 → lower b.toNat = (lowerByte b).toNat

theorem lowerByte_lt (b : UInt8) : b < 0x80 → lowerByte b < 0x80 := by
  revert b
  exact forall_octet (by decide +kernel)

theorem all_iff_ascii (text : Bytes) : text.all (fun b => b < 0x80) = true ↔ Ascii text := by
  simp [Ascii]

theorem stringsToLower_ascii {text : Bytes} (ascii : Ascii text) (lower : Nat → Nat) :
    stringsToLower lower text = asciiLower text := if_pos ((all_iff_ascii text).mpr ascii)

theorem encodeRune_lower {lower : Nat → Nat} (lowers : LowersAscii lower) {b : UInt8}
    (ascii : b < 0x80) : encodeRune (lower b.toNat) = [lowerByte b] := by
  have small : (lowerByte b).toNat < 0x80 := lowerByte_lt b ascii
  rw [lowers b ascii, encodeRune, if_pos small, UInt8.ofNat_toNat]

theorem lower_runes_ascii {lower : Nat → Nat} (lowers : LowersAscii lower) {text : Bytes}
    (ascii : Ascii text) :
    (text.map UInt8.toNat).flatMap (fun rune => encodeRune (lower rune)) = asciiLower text := by
  induction text with
  | nil => rfl
  | cons b rest ih =>
    have tail := ih fun c mem => ascii c (List.mem_cons_of_mem b mem)
    rw [List.map_cons, List.flatMap_cons, encodeRune_lower lowers (ascii b List.mem_cons_self),
      tail]
    rfl

/-- ASCII text keeps its place at the end. -/
theorem stringsToLower_append {lower : Nat → Nat} (lowers : LowersAscii lower) {text : Bytes}
    (ascii : Ascii text) (before : Bytes) :
    stringsToLower lower (before ++ text) = stringsToLower lower before ++ asciiLower text := by
  by_cases plain : Ascii before
  · have whole : Ascii (before ++ text) := by
      intro b mem
      rcases List.mem_append.mp mem with mem | mem
      · exact plain b mem
      · exact ascii b mem
    rw [stringsToLower_ascii whole, stringsToLower_ascii plain]
    simp [asciiLower_eq]
  · have mixed : ¬ Ascii (before ++ text) := fun whole =>
      plain fun b mem => whole b (List.mem_append_left text mem)
    rw [stringsToLower, if_neg (mt (all_iff_ascii _).mp mixed), stringsToLower,
      if_neg (mt (all_iff_ascii _).mp plain), mapRunes, runes_append_ascii ascii,
      List.flatMap_append, lower_runes_ascii lowers ascii, mapRunes]

/-! ## The log handler -/

/-- A value of a log attribute: a text, or anything else. -/
inductive AttrValue (ν : Type) where
  | string (text : Bytes)
  | other (value : ν)
  deriving DecidableEq, Repr

structure Attr (ν : Type) where
  key : Bytes
  value : AttrValue ν
  deriving DecidableEq, Repr

def redacted : Bytes := ascii "[REDACTED]"

/-- `redactAttr`; the groups around the attribute do not matter. -/
def redactAttr {ν : Type} (toLower : Bytes → Bytes) (_groups : List Bytes) (attr : Attr ν) :
    Attr ν :=
  if isSensitiveKey toLower attr.key = true then ⟨attr.key, .string redacted⟩ else attr

/-! ## Spellings -/

def separators : List UInt8 := [45, 46, 95]

/-- What the normalisation makes of one byte. -/
def styleByte (b : UInt8) : UInt8 := lowerByte (if b ∈ separators then 95 else b)

def styled (text : Bytes) : Bytes := text.map styleByte

/-- Two bytes that differ at most in the case of a letter or in the separator. -/
def SameStyle (a b : UInt8) : Prop :=
  a = b ∨ (a ∈ separators ∧ b ∈ separators) ∨
    (97 ≤ lowerByte a ∧ lowerByte a ≤ 122 ∧ lowerByte a = lowerByte b)

/-- The suffix begins the key or stands behind one of its separators. -/
def Component (key suffix : Bytes) : Prop :=
  key = suffix ∨ ∃ front c, c ∈ separators ∧ key = front ++ c :: suffix

def replaced (key : Bytes) : Bytes := replaceByte 46 95 (replaceByte 45 95 key)

section Classification

variable {lower : Nat → Nat} {key : Bytes}

theorem lowerByte_replaced (b : UInt8) :
    lowerByte (if (if b = 45 then 95 else b) = 46 then 95 else if b = 45 then 95 else b) =
      styleByte b := by
  revert b
  exact forall_octet (by decide +kernel)

theorem styleByte_eq_underscore_iff (b : UInt8) : styleByte b = 95 ↔ b ∈ separators := by
  revert b
  exact forall_octet (by decide +kernel)

theorem replaced_lt (b : UInt8) :
    b < 0x80 →
      (if (if b = 45 then 95 else b) = 46 then 95 else if b = 45 then 95 else b) <
        (0x80 : UInt8) := by
  revert b
  exact forall_octet (by decide +kernel)

theorem asciiLower_replaced (text : Bytes) : asciiLower (replaced text) = styled text := by
  simp only [asciiLower_eq, replaced, replaceByte, styled, List.map_map]
  exact List.map_congr_left fun b _ => lowerByte_replaced b

theorem replaced_ascii {text : Bytes} (ascii : Ascii text) : Ascii (replaced text) := by
  intro b mem
  simp only [replaced, replaceByte, List.map_map, List.mem_map, Function.comp_apply] at mem
  obtain ⟨a, listed, rfl⟩ := mem
  exact replaced_lt a (ascii a listed)

theorem normalized_ascii (ascii : Ascii key) (lower : Nat → Nat) :
    normalized (stringsToLower lower) key = styled key := by
  change stringsToLower lower (replaced key) = styled key
  rw [stringsToLower_ascii (replaced_ascii ascii), asciiLower_replaced]

/-- Whatever comes before an ASCII text, its normal form stands at the end. -/
theorem normalized_append (lowers : LowersAscii lower) {text : Bytes} (ascii : Ascii text)
    (before : Bytes) :
    normalized (stringsToLower lower) (before ++ text) =
      normalized (stringsToLower lower) before ++ styled text := by
  have split : replaced (before ++ text) = replaced before ++ replaced text := by
    simp [replaced, replaceByte]
  change stringsToLower lower (replaced (before ++ text)) =
    stringsToLower lower (replaced before) ++ styled text
  rw [split, stringsToLower_append lowers (replaced_ascii ascii), asciiLower_replaced]

theorem isSensitiveKey_iff {toLower : Bytes → Bytes} :
    isSensitiveKey toLower key = true ↔
      ∃ word ∈ sensitiveKeys, normalized toLower key = word ∨
        95 :: word <:+ normalized toLower key := by
  simp [isSensitiveKey]

/-- A separator before a suffix of the normal form is a separator of the key. -/
theorem underscore_suffix_iff {word : Bytes} :
    95 :: word <:+ styled key ↔
      ∃ front c suffix, c ∈ separators ∧ key = front ++ c :: suffix ∧ styled suffix = word := by
  constructor
  · rintro ⟨front, same⟩
    obtain ⟨before, rest, rfl, _, tail⟩ := List.map_eq_append_iff.mp same.symm
    obtain ⟨c, suffix, rfl, underscore, rfl⟩ := List.map_eq_cons_iff.mp tail
    exact ⟨before, c, suffix, (styleByte_eq_underscore_iff c).mp underscore, rfl, rfl⟩
  · rintro ⟨front, c, suffix, separator, rfl, rfl⟩
    refine ⟨styled front, ?_⟩
    rw [← (styleByte_eq_underscore_iff c).mpr separator]
    simp [styled]

theorem sensitive_iff_component (ascii : Ascii key) (lower : Nat → Nat) :
    isSensitiveKey (stringsToLower lower) key = true ↔
      ∃ suffix, Component key suffix ∧ styled suffix ∈ sensitiveKeys := by
  rw [isSensitiveKey_iff, normalized_ascii ascii]
  constructor
  · rintro ⟨word, listed, rfl | behind⟩
    · exact ⟨key, Or.inl rfl, listed⟩
    · obtain ⟨front, c, suffix, separator, whole, rfl⟩ := underscore_suffix_iff.mp behind
      exact ⟨suffix, Or.inr ⟨front, c, separator, whole⟩, listed⟩
  · rintro ⟨suffix, rfl | ⟨front, c, separator, whole⟩, listed⟩
    · exact ⟨styled key, listed, Or.inl rfl⟩
    · exact ⟨styled suffix, listed,
        Or.inr (underscore_suffix_iff.mpr ⟨front, c, suffix, separator, whole, rfl⟩)⟩

theorem styleByte_of_sameStyle {a b : UInt8} (same : SameStyle a b) :
    styleByte a = styleByte b := by
  rcases same with rfl | ⟨separator, separator'⟩ | ⟨low, high, same⟩
  · rfl
  · rw [(styleByte_eq_underscore_iff a).mpr separator,
      (styleByte_eq_underscore_iff b).mpr separator']
  · have letter : ∀ b : UInt8, 97 ≤ lowerByte b ∧ lowerByte b ≤ 122 → styleByte b = lowerByte b :=
      forall_octet (by decide +kernel)
    rw [letter a ⟨low, high⟩, letter b ⟨same ▸ low, same ▸ high⟩, same]

theorem styled_of_sameStyle {key' : Bytes} (same : List.Forall₂ SameStyle key key') :
    styled key = styled key' := by
  induction same with
  | nil => rfl
  | cons here _ ih =>
    rw [styled, List.map_cons, styleByte_of_sameStyle here, ← styled, ih]
    rfl

theorem separators_ascii : Ascii separators := by
  decide +kernel

theorem SameStyle.ascii {a b : UInt8} (same : SameStyle a b) (small : a < 0x80) : b < 0x80 := by
  rcases same with rfl | ⟨_, separator⟩ | ⟨low, high, same⟩
  · exact small
  · exact separators_ascii b separator
  · have letter : ∀ b : UInt8, 97 ≤ lowerByte b ∧ lowerByte b ≤ 122 → b < 0x80 :=
      forall_octet (by decide +kernel)
    exact letter b ⟨same ▸ low, same ▸ high⟩

theorem ascii_of_sameStyle {key' : Bytes} (same : List.Forall₂ SameStyle key key')
    (ascii : Ascii key) : Ascii key' := by
  induction same with
  | nil => exact ascii
  | @cons a b rest _ here _ ih =>
    intro c mem
    rcases List.mem_cons.mp mem with rfl | mem
    · exact here.ascii (ascii a List.mem_cons_self)
    · exact ih (fun d listed => ascii d (List.mem_cons_of_mem a listed)) c mem

/-- The classification is that of the normal form. -/
theorem sensitive_congr {key' : Bytes} (ascii : Ascii key)
    (same : List.Forall₂ SameStyle key key') (lower : Nat → Nat) :
    isSensitiveKey (stringsToLower lower) key' = isSensitiveKey (stringsToLower lower) key := by
  simp only [isSensitiveKey, normalized_ascii ascii,
    normalized_ascii (ascii_of_sameStyle same ascii), styled_of_sameStyle same]

theorem sensitive_prefixed (lowers : LowersAscii lower) (ascii : Ascii key)
    (sensitive : isSensitiveKey (stringsToLower lower) key = true) (before : Bytes) {c : UInt8}
    (separator : c ∈ separators) :
    isSensitiveKey (stringsToLower lower) (before ++ c :: key) = true := by
  obtain ⟨suffix, component, listed⟩ := (sensitive_iff_component ascii lower).mp sensitive
  have plain : Ascii (c :: key) := by
    intro b mem
    rcases List.mem_cons.mp mem with rfl | mem
    · exact separators_ascii b separator
    · exact ascii b mem
  have behind : 95 :: styled suffix <:+ styled (c :: key) := by
    rcases component with rfl | ⟨front, c', separator', rfl⟩
    · exact underscore_suffix_iff.mpr ⟨[], c, key, separator, rfl, rfl⟩
    · exact underscore_suffix_iff.mpr ⟨c :: front, c', suffix, separator', rfl, rfl⟩
  rw [isSensitiveKey_iff, normalized_append lowers plain]
  exact ⟨styled suffix, listed, Or.inr (behind.trans (List.suffix_append _ _))⟩

end Classification

/-- Sensitive ASCII keys are those with a component that is a listed word; neither another case
nor another separator changes the classification, and neither does anything put in front with a
separator. A sensitive key is redacted in the log and refused in audit metadata. -/
theorem classification_exact (lower : Nat → Nat) (lowers : LowersAscii lower) (key : Bytes)
    (ascii : Ascii key) :
    let sensitive := fun key => isSensitiveKey (stringsToLower lower) key = true
    (sensitive key ↔ ∃ suffix, Component key suffix ∧ styled suffix ∈ sensitiveKeys) ∧
    (∀ key', List.Forall₂ SameStyle key key' → (sensitive key' ↔ sensitive key)) ∧
    (sensitive key → ∀ before c, c ∈ separators → sensitive (before ++ c :: key)) ∧
    ∀ name, sensitive name →
      (∀ (ν : Type) (groups : List Bytes) (value : AttrValue ν),
        redactAttr (stringsToLower lower) groups ⟨name, value⟩ = ⟨name, .string redacted⟩) ∧
      ∀ (codec : Codec) (value : Json) (depth : Nat), codec.toLower = stringsToLower lower →
        name ∈ value.names → inspectMetadata codec value depth ≠ .ok () := by
  intro sensitive
  refine ⟨sensitive_iff_component ascii lower, ?_, ?_, ?_⟩
  · intro key' same
    exact iff_of_eq (congrArg (· = true) (sensitive_congr ascii same lower))
  · intro found before c separator
    exact sensitive_prefixed lowers ascii found before separator
  · intro name found
    constructor
    · intro ν groups value
      exact if_pos found
    · intro codec value depth same mem accepted
      have harmless := inspectMetadata_names value depth accepted name mem
      rw [same, found] at harmless
      cases harmless

/-- `unicode.ToLower` as far as ASCII. -/
def sampleLower (rune : Nat) : Nat := if 65 ≤ rune ∧ rune ≤ 90 then rune + 32 else rune

/-- An API key in capitals and with a hyphen, behind text that is no UTF-8. -/
theorem classification_exact_prefixed :
    isSensitiveKey (stringsToLower sampleLower) ([0xC3, 0xFF] ++ 46 :: ascii "API-Key") = true := by
  have lowers : LowersAscii sampleLower := by
    intro b _
    revert b
    exact forall_octet (by decide +kernel)
  have plain : Ascii (ascii "API-Key") := by decide +kernel
  have exact := classification_exact sampleLower lowers (ascii "API-Key") plain
  refine exact.2.2.1 (exact.1.mpr ⟨ascii "API-Key", Or.inl rfl, ?_⟩) [0xC3, 0xFF] 46 ?_
  · decide +kernel
  · decide +kernel

end KeyRedaction
