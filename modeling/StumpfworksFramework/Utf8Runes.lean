import StumpfworksFramework.ByteStrings

/-!
# Runes of a byte string

UTF-8 as the decoder of `unicode/utf8` reads it: from the front of any byte
string it takes a well-formed sequence, or else one octet as the replacement
rune. ASCII octets belong to no longer sequence, so ASCII text at the end of a
string is read on its own whatever stands before it.
-/

namespace Utf8Runes

open ByteStrings

def runeError : Nat := 0xFFFD

def Ascii (text : Bytes) : Prop := ∀ b ∈ text, b < 0x80

instance (text : Bytes) : Decidable (Ascii text) := List.decidableBAll (fun b => b < 0x80) text

/-- What a first octet announces: how many octets follow, the range of the second, and the
leading bits of the rune. -/
structure Lead where
  more : Nat
  low : UInt8
  high : UInt8
  bits : Nat

def lead (b : UInt8) : Option Lead :=
  if 0xC2 ≤ b ∧ b ≤ 0xDF then some ⟨1, 0x80, 0xBF, b.toNat % 32⟩
  else if b = 0xE0 then some ⟨2, 0xA0, 0xBF, b.toNat % 16⟩
  else if b = 0xED then some ⟨2, 0x80, 0x9F, b.toNat % 16⟩
  else if 0xE1 ≤ b ∧ b ≤ 0xEF then some ⟨2, 0x80, 0xBF, b.toNat % 16⟩
  else if b = 0xF0 then some ⟨3, 0x90, 0xBF, b.toNat % 8⟩
  else if b = 0xF4 then some ⟨3, 0x80, 0x8F, b.toNat % 8⟩
  else if 0xF1 ≤ b ∧ b ≤ 0xF3 then some ⟨3, 0x80, 0xBF, b.toNat % 8⟩
  else none

/-- Shift `more` continuation octets into the bits read so far. -/
def continuation : Nat → Nat → Bytes → Option Nat
  | 0, bits, _ => some bits
  | _ + 1, _, [] => none
  | more + 1, bits, c :: rest =>
    if 0x80 ≤ c ∧ c ≤ 0xBF then continuation more (bits * 64 + c.toNat % 64) rest else none

/-- A well-formed sequence of several octets: its rune, and how many octets follow the first. -/
def sequence (b : UInt8) (rest : Bytes) : Option (Nat × Nat) :=
  match lead b, rest with
  | some l, c :: _ =>
    if l.low ≤ c ∧ c ≤ l.high then
      (continuation l.more l.bits rest).map fun rune => (rune, l.more)
    else none
  | _, _ => none

/-- The first rune, how many octets follow its first one, and whether they are well formed. -/
def decodeRune (b : UInt8) (rest : Bytes) : Nat × Nat × Bool :=
  if b < 0x80 then (b.toNat, 0, true)
  else
    match sequence b rest with
    | none => (runeError, 0, false)
    | some (rune, more) => (rune, more, true)

/-- The runes in the order in which a loop over the string visits them. -/
def runes : Bytes → List Nat
  | [] => []
  | b :: rest => (decodeRune b rest).1 :: runes (rest.drop (decodeRune b rest).2.1)
termination_by text => text.length
decreasing_by
  simp only [List.length_drop, List.length_cons]
  omega

def isContinuation (b : UInt8) : Bool := 0x80 ≤ b && b ≤ 0xBF

/-- `utf8.ValidString`: no overlong forms, no surrogates, nothing above U+10FFFF. -/
def validUTF8 : Bytes → Bool
  | [] => true
  | a :: rest =>
    if a < 0x80 then validUTF8 rest
    else match rest with
      | [] => false
      | b :: rest =>
        if 0xC2 ≤ a && a ≤ 0xDF then isContinuation b && validUTF8 rest
        else match rest with
          | [] => false
          | d :: rest =>
            if 0xE0 ≤ a && a ≤ 0xEF then
              isContinuation b && (a != 0xE0 || 0xA0 ≤ b) && (a != 0xED || b ≤ 0x9F) &&
                isContinuation d && validUTF8 rest
            else match rest with
              | [] => false
              | e :: rest =>
                0xF0 ≤ a && a ≤ 0xF4 && isContinuation b && (a != 0xF0 || 0x90 ≤ b) &&
                  (a != 0xF4 || b ≤ 0x8F) && isContinuation d && isContinuation e && validUTF8 rest

/-- The octets of a rune; what is no scalar value is written as the replacement rune. -/
def encodeRune (rune : Nat) : Bytes :=
  if rune < 0x80 then [UInt8.ofNat rune]
  else if rune < 0x800 then [UInt8.ofNat (0xC0 + rune / 64), UInt8.ofNat (0x80 + rune % 64)]
  else
    let scalar := if rune > 0x10FFFF ∨ (0xD800 ≤ rune ∧ rune ≤ 0xDFFF) then runeError else rune
    if scalar < 0x10000 then
      [UInt8.ofNat (0xE0 + scalar / 4096), UInt8.ofNat (0x80 + scalar / 64 % 64),
        UInt8.ofNat (0x80 + scalar % 64)]
    else
      [UInt8.ofNat (0xF0 + scalar / 262144), UInt8.ofNat (0x80 + scalar / 4096 % 64),
        UInt8.ofNat (0x80 + scalar / 64 % 64), UInt8.ofNat (0x80 + scalar % 64)]

/-- `strings.Map`, for a mapping that drops no rune. -/
def mapRunes (f : Nat → Nat) (text : Bytes) : Bytes :=
  (runes text).flatMap fun rune => encodeRune (f rune)

/-! ## ASCII text behind other text -/

theorem lead_low {b : UInt8} {l : Lead} (announced : lead b = some l) : 0x80 ≤ l.low := by
  simp only [lead] at announced
  split_ifs at announced <;> cases announced <;> dsimp only <;> decide

theorem continuation_append {text : Bytes} (ascii : Ascii text) (more bits : Nat)
    (before : Bytes) : continuation more bits (before ++ text) = continuation more bits before := by
  induction more generalizing bits before with
  | zero => simp only [continuation]
  | succ more ih =>
    cases before with
    | nil =>
      cases text with
      | nil => rfl
      | cons c text =>
        have small : c < 0x80 := ascii c List.mem_cons_self
        have other : ¬ (0x80 ≤ c ∧ c ≤ 0xBF) := fun range =>
          UInt8.not_lt.mpr range.1 small
        simp only [List.nil_append, continuation, if_neg other]
    | cons c before =>
      rw [List.cons_append, continuation, continuation, ih]

theorem sequence_append {text : Bytes} (ascii : Ascii text) (b : UInt8) (before : Bytes) :
    sequence b (before ++ text) = sequence b before := by
  cases before with
  | nil =>
    cases text with
    | nil => rfl
    | cons c text =>
      cases announced : lead b with
      | none => simp only [sequence, announced]
      | some l =>
        have small : c < 0x80 := ascii c List.mem_cons_self
        have other : ¬ (l.low ≤ c ∧ c ≤ l.high) := fun range =>
          UInt8.not_lt.mpr (UInt8.le_trans (lead_low announced) range.1) small
        simp only [sequence, announced, List.nil_append, if_neg other]
  | cons c before =>
    cases announced : lead b with
    | none => simp only [sequence, announced]
    | some l =>
      have tail := continuation_append ascii l.more l.bits (c :: before)
      rw [List.cons_append] at tail ⊢
      simp only [sequence, announced, tail]

theorem decodeRune_append {text : Bytes} (ascii : Ascii text) (b : UInt8) (before : Bytes) :
    decodeRune b (before ++ text) = decodeRune b before := by
  rw [decodeRune, decodeRune, sequence_append ascii]

theorem continuation_length {more bits rune : Nat} {rest : Bytes}
    (read : continuation more bits rest = some rune) : more ≤ rest.length := by
  induction more generalizing bits rest with
  | zero => omega
  | succ more ih =>
    cases rest with
    | nil => cases read
    | cons c rest =>
      rw [continuation] at read
      split at read
      · have shorter := ih read
        rw [List.length_cons]
        omega
      · cases read

/-- A rune lies within the string. -/
theorem decodeRune_length (b : UInt8) (rest : Bytes) : (decodeRune b rest).2.1 ≤ rest.length := by
  rw [decodeRune]
  split
  · exact Nat.zero_le _
  · cases read : sequence b rest with
    | none => exact Nat.zero_le _
    | some found =>
      unfold sequence at read
      split at read
      · split at read
        · obtain ⟨rune, decoded, rfl⟩ := Option.map_eq_some_iff.mp read
          exact continuation_length decoded
        · cases read
      · cases read

theorem runes_ascii {text : Bytes} (ascii : Ascii text) : runes text = text.map UInt8.toNat := by
  induction text with
  | nil => rw [runes, List.map_nil]
  | cons b rest ih =>
    have small : b < 0x80 := ascii b List.mem_cons_self
    have tail := ih fun c mem => ascii c (List.mem_cons_of_mem b mem)
    rw [runes, decodeRune, if_pos small, List.drop_zero, tail, List.map_cons]

/-- The octets of ASCII text at the end are runes of their own. -/
theorem runes_append_ascii {text : Bytes} (ascii : Ascii text) (before : Bytes) :
    runes (before ++ text) = runes before ++ text.map UInt8.toNat := by
  induction hn : before.length using Nat.strongRecOn generalizing before with
  | ind n ih =>
    cases before with
    | nil =>
      rw [List.nil_append, runes_ascii ascii, runes, List.nil_append]
    | cons b rest =>
      have within := decodeRune_length b rest
      rw [List.length_cons] at hn
      rw [List.cons_append, runes, runes, decodeRune_append ascii,
        List.drop_append_of_le_length within,
        ih (rest.drop (decodeRune b rest).2.1).length (by rw [List.length_drop]; omega) _ rfl,
        List.cons_append]

end Utf8Runes
