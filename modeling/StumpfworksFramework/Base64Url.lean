import StumpfworksFramework.ByteStrings

/-!
# Unpadded base64url

The encoder works on groups of three bytes. The decoder is the lenient one: it
skips carriage returns and line feeds, and it ignores the unused low bits of
the last character. Several strings can therefore decode to the same bytes, but
the encoding of the decoded bytes is one of them only if nothing was skipped.
-/

namespace Base64Url

open ByteStrings

/-- The character of a six-bit value. -/
def encodeChar (n : Nat) : UInt8 :=
  if n < 26 then UInt8.ofNat (0x41 + n)
  else if n < 52 then UInt8.ofNat (0x61 + (n - 26))
  else if n < 62 then UInt8.ofNat (0x30 + (n - 52))
  else if n = 62 then 0x2d
  else 0x5f

def decodeChar (c : UInt8) : Option Nat :=
  if 0x41 ≤ c ∧ c ≤ 0x5a then some (c.toNat - 0x41)
  else if 0x61 ≤ c ∧ c ≤ 0x7a then some (c.toNat - 0x61 + 26)
  else if 0x30 ≤ c ∧ c ≤ 0x39 then some (c.toNat - 0x30 + 52)
  else if c = 0x2d then some 62
  else if c = 0x5f then some 63
  else none

/-- Six-bit values of a byte string, three bytes to four values. -/
def toSextets : Bytes → List Nat
  | [] => []
  | [a] => [a.toNat / 4, a.toNat % 4 * 16]
  | [a, b] => [a.toNat / 4, a.toNat % 4 * 16 + b.toNat / 16, b.toNat % 16 * 4]
  | a :: b :: c :: rest =>
    a.toNat / 4 :: (a.toNat % 4 * 16 + b.toNat / 16) ::
      (b.toNat % 16 * 4 + c.toNat / 64) :: c.toNat % 64 :: toSextets rest

def ofSextets : List Nat → Option Bytes
  | [] => some []
  | [_] => none
  | [a, b] => some [UInt8.ofNat (a * 4 + b / 16)]
  | [a, b, c] => some [UInt8.ofNat (a * 4 + b / 16), UInt8.ofNat (b % 16 * 16 + c / 4)]
  | a :: b :: c :: d :: rest =>
    (ofSextets rest).map fun bytes =>
      UInt8.ofNat (a * 4 + b / 16) :: UInt8.ofNat (b % 16 * 16 + c / 4) ::
        UInt8.ofNat (c % 4 * 64 + d) :: bytes

def encodeToString (bytes : Bytes) : Bytes := (toSextets bytes).map encodeChar

/-- The six-bit values of a string; carriage returns and line feeds are skipped. -/
def readSextets : Bytes → Option (List Nat)
  | [] => some []
  | c :: rest =>
    match decodeChar c with
    | some n => (readSextets rest).map (n :: ·)
    | none => if c = 0x0a ∨ c = 0x0d then readSextets rest else none

def decodeString (s : Bytes) : Option Bytes := (readSextets s).bind ofSextets

theorem decodeChar_encodeChar {n : Nat} (small : n < 64) : decodeChar (encodeChar n) = some n := by
  have all : ∀ n, n < 64 → decodeChar (encodeChar n) = some n := by decide +kernel
  exact all n small

theorem toSextets_lt (bytes : Bytes) : ∀ n ∈ toSextets bytes, n < 64 := by
  induction bytes using toSextets.induct with
  | case1 => simp [toSextets]
  | case2 a =>
    have ha := a.toNat_lt
    simp only [toSextets, List.mem_cons, List.not_mem_nil, or_false, forall_eq_or_imp, forall_eq]
    omega
  | case3 a b =>
    have ha := a.toNat_lt
    have hb := b.toNat_lt
    simp only [toSextets, List.mem_cons, List.not_mem_nil, or_false, forall_eq_or_imp, forall_eq]
    omega
  | case4 a b c rest ih =>
    have ha := a.toNat_lt
    have hb := b.toNat_lt
    have hc := c.toNat_lt
    simp only [toSextets, List.mem_cons, forall_eq_or_imp]
    exact ⟨by omega, by omega, by omega, by omega, ih⟩

theorem readSextets_map {values : List Nat} (small : ∀ n ∈ values, n < 64) :
    readSextets (values.map encodeChar) = some values := by
  induction values with
  | nil => rfl
  | cons n rest ih =>
    have tail := ih (fun m hm => small m (List.mem_cons_of_mem n hm))
    simp only [List.map_cons, readSextets, decodeChar_encodeChar (small n List.mem_cons_self),
      tail, Option.map_some]

theorem octet_eq {n : Nat} {b : UInt8} (same : n = b.toNat) : UInt8.ofNat n = b := by
  rw [same, UInt8.ofNat_toNat]

theorem ofSextets_toSextets (bytes : Bytes) : ofSextets (toSextets bytes) = some bytes := by
  induction bytes using toSextets.induct with
  | case1 => rfl
  | case2 a =>
    have ha := a.toNat_lt
    simp only [toSextets, ofSextets]
    rw [octet_eq (b := a) (by omega)]
  | case3 a b =>
    have ha := a.toNat_lt
    have hb := b.toNat_lt
    simp only [toSextets, ofSextets]
    rw [octet_eq (b := a) (by omega), octet_eq (b := b) (by omega)]
  | case4 a b c rest ih =>
    have ha := a.toNat_lt
    have hb := b.toNat_lt
    have hc := c.toNat_lt
    simp only [toSextets, ofSextets, ih, Option.map_some]
    rw [octet_eq (b := a) (by omega), octet_eq (b := b) (by omega), octet_eq (b := c) (by omega)]

/-- Decoding undoes encoding, for byte strings of any length. -/
theorem decodeString_encodeToString (bytes : Bytes) :
    decodeString (encodeToString bytes) = some bytes := by
  simp only [decodeString, encodeToString, readSextets_map (toSextets_lt bytes),
    Option.bind_some, ofSextets_toSextets]

theorem encodeToString_injective {bytes bytes' : Bytes}
    (same : encodeToString bytes = encodeToString bytes') : bytes = bytes' := by
  have decoded := congrArg decodeString same
  rw [decodeString_encodeToString, decodeString_encodeToString] at decoded
  exact Option.some.inj decoded

theorem length_encodeToString (bytes : Bytes) :
    (encodeToString bytes).length = (bytes.length * 4 + 2) / 3 := by
  rw [encodeToString, List.length_map]
  induction bytes using toSextets.induct with
  | case1 => rfl
  | case2 a => simp [toSextets]
  | case3 a b => simp [toSextets]
  | case4 a b c rest ih =>
    simp only [toSextets, List.length_cons, ih]
    omega

end Base64Url
