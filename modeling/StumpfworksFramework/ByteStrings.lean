import Mathlib.Data.List.Induction
import Mathlib.Tactic.Ring
import Mathlib.Tactic.NormNum

/-!
# Byte strings and big-endian fields

A byte string is a list of octets. The octets of ASCII text have names for the
classes that grammars ask about. A big-endian field of width `w` holds a natural
number modulo `256 ^ w`; reading back a field that was not truncated returns the
number. Nothing here refers to a particular wire format.
-/

namespace ByteStrings

abbrev Bytes := List UInt8

instance : LawfulBEq Bytes := inferInstance

/-- A property of an octet is decided by its 256 values. -/
theorem forall_octet {P : UInt8 → Prop} (h : ∀ n, n < 256 → P (UInt8.ofNat n)) (b : UInt8) :
    P b := by
  simpa using h b.toNat b.toNat_lt

/-! ## ASCII text -/

/-- The octets of an ASCII literal. -/
def ascii (s : String) : Bytes := s.toList.map fun c => UInt8.ofNat c.toNat

/-- Literals by their characters, which spares the decoding of the text. -/
theorem ascii_ofList (cs : List Char) :
    ascii (String.ofList cs) = cs.map fun c => UInt8.ofNat c.toNat := by
  rw [ascii, String.toList_ofList]

def isDigit (b : UInt8) : Bool := 48 ≤ b ∧ b ≤ 57

def isLower (b : UInt8) : Bool := 97 ≤ b ∧ b ≤ 122

def isHex (b : UInt8) : Bool := isDigit b ∨ (97 ≤ b ∧ b ≤ 102) ∨ (65 ≤ b ∧ b ≤ 70)

/-- Blank, tabulator and the ends of a line. -/
def isSpace (b : UInt8) : Bool := b = 32 ∨ b = 9 ∨ b = 13 ∨ b = 10

/-- The octets of a token of HTTP. -/
def isTokenByte (b : UInt8) : Bool :=
  (97 ≤ b ∧ b ≤ 122) ∨ (65 ≤ b ∧ b ≤ 90) ∨ (48 ≤ b ∧ b ≤ 57) ∨ b ∈ ascii "!#$%&'*+-.^_\x60|~"

def lowerByte (b : UInt8) : UInt8 := if 65 ≤ b ∧ b ≤ 90 then b + 32 else b

/-- Lower casing of ASCII text. -/
def asciiLower (text : Bytes) : Bytes := text.map lowerByte

/-! ## Big-endian fields -/

/-- Append octets, most significant first, to the number read so far. -/
def extendBigEndian (n : Nat) (octets : Bytes) : Nat :=
  octets.foldl (fun n b => n * 256 + b.toNat) n

/-- The number denoted by octets, most significant first. -/
def ofBigEndian (octets : Bytes) : Nat := extendBigEndian 0 octets

/-- The `w` low-order octets of `n`, most significant first. -/
def bigEndian : Nat → Nat → Bytes
  | 0, _ => []
  | w + 1, n => bigEndian w (n / 256) ++ [UInt8.ofNat (n % 256)]

@[simp] theorem ofBigEndian_nil : ofBigEndian [] = 0 := rfl

@[simp] theorem ofBigEndian_concat (octets : Bytes) (b : UInt8) :
    ofBigEndian (octets ++ [b]) = ofBigEndian octets * 256 + b.toNat := by
  simp [ofBigEndian, extendBigEndian]

theorem extendBigEndian_cons (n : Nat) (b : UInt8) (rest : Bytes) :
    extendBigEndian n (b :: rest) = extendBigEndian (n * 256 + b.toNat) rest := rfl

theorem le_extendBigEndian (n : Nat) (octets : Bytes) : n ≤ extendBigEndian n octets := by
  induction octets generalizing n with
  | nil => exact Nat.le_refl n
  | cons b rest ih =>
    have step := ih (n * 256 + b.toNat)
    change n ≤ extendBigEndian (n * 256 + b.toNat) rest
    omega

@[simp] theorem length_bigEndian (w n : Nat) : (bigEndian w n).length = w := by
  induction w generalizing n with
  | zero => rfl
  | succ w ih => simp [bigEndian, ih]

theorem ofBigEndian_bigEndian (w n : Nat) :
    ofBigEndian (bigEndian w n) = n % 256 ^ w := by
  induction w generalizing n with
  | zero => simp [bigEndian, Nat.mod_one]
  | succ w ih =>
    have small : n % 256 % 2 ^ 8 = n % 256 := by omega
    rw [bigEndian, ofBigEndian_concat, ih, UInt8.toNat_ofNat', small, Nat.pow_succ',
      Nat.mod_mul]
    omega

theorem ofBigEndian_bigEndian_of_lt {w n : Nat} (fits : n < 256 ^ w) :
    ofBigEndian (bigEndian w n) = n := by
  rw [ofBigEndian_bigEndian, Nat.mod_eq_of_lt fits]

theorem bigEndian_injective {w n m : Nat} (hn : n < 256 ^ w) (hm : m < 256 ^ w)
    (same : bigEndian w n = bigEndian w m) : n = m := by
  have values := congrArg ofBigEndian same
  rwa [ofBigEndian_bigEndian_of_lt hn, ofBigEndian_bigEndian_of_lt hm] at values

/-- Parts in a row, each after a big-endian field of width `w` with its length. -/
def delimited (w : Nat) (parts : List Bytes) : Bytes :=
  parts.flatMap fun part => bigEndian w part.length ++ part

@[simp] theorem delimited_cons (w : Nat) (part : Bytes) (parts : List Bytes) :
    delimited w (part :: parts) = bigEndian w part.length ++ (part ++ delimited w parts) := by
  simp [delimited]

/-- Equal delimited strings with first parts of the same length agree part by part. -/
theorem delimited_cons_inj {w : Nat} {p q : Bytes} {ps qs : List Bytes}
    (lengths : p.length = q.length) (same : delimited w (p :: ps) = delimited w (q :: qs)) :
    p = q ∧ delimited w ps = delimited w qs := by
  rw [delimited_cons, delimited_cons] at same
  have tails := (List.append_inj same (by simp)).2
  exact List.append_inj tails lengths

theorem delimited_head {w : Nat} {p q : Bytes} {ps qs : List Bytes}
    (same : delimited w (p :: ps) = delimited w (q :: qs)) :
    bigEndian w p.length = bigEndian w q.length := by
  rw [delimited_cons, delimited_cons] at same
  exact (List.append_inj same (by simp)).1

/-- No bytes can move between parts whose lengths fit their fields. -/
theorem delimited_injective {w : Nat} {ps qs : List Bytes} (count : ps.length = qs.length)
    (fits : ∀ p ∈ ps, p.length < 256 ^ w) (fits' : ∀ q ∈ qs, q.length < 256 ^ w)
    (same : delimited w ps = delimited w qs) : ps = qs := by
  induction ps generalizing qs with
  | nil =>
    cases qs with
    | nil => rfl
    | cons q qs => cases count
  | cons p ps ih =>
    cases qs with
    | nil => cases count
    | cons q qs =>
      have lengths : p.length = q.length :=
        bigEndian_injective (fits p List.mem_cons_self) (fits' q List.mem_cons_self)
          (delimited_head same)
      obtain ⟨rfl, rest⟩ := delimited_cons_inj lengths same
      rw [ih (Nat.succ.inj count) (fun p hp => fits p (List.mem_cons_of_mem _ hp))
        (fun q hq => fits' q (List.mem_cons_of_mem _ hq)) rest]

/-- A digest with known values at some inputs; every other input gets a longer value of its own. -/
def pinnedDigest (known : List (Bytes × Bytes)) (size : Nat) (x : Bytes) : Bytes :=
  (known.lookup x).getD (x ++ List.replicate (size + 1) 0)

theorem pinnedDigest_injective {known : List (Bytes × Bytes)} {size : Nat}
    (sizes : ∀ e ∈ known, e.2.length ≤ size)
    (distinct : ∀ e ∈ known, ∀ e' ∈ known, e.2 = e'.2 → e.1 = e'.1) :
    Function.Injective (pinnedDigest known size) := by
  have member : ∀ x d, known.lookup x = some d → (x, d) ∈ known := by
    intro x d found
    obtain ⟨l₁, l₂, rfl, _⟩ := List.lookup_eq_some_iff.mp found
    simp
  intro x y same
  unfold pinnedDigest at same
  cases hx : known.lookup x with
  | none =>
    cases hy : known.lookup y with
    | none => simpa [hx, hy] using same
    | some d =>
      have short : d.length ≤ size := sizes _ (member y d hy)
      have lengths := congrArg List.length same
      simp [hx, hy] at lengths
      omega
  | some d =>
    cases hy : known.lookup y with
    | none =>
      have short : d.length ≤ size := sizes _ (member x d hx)
      have lengths := congrArg List.length same
      simp [hx, hy] at lengths
      omega
    | some d' =>
      rw [hx, hy] at same
      exact distinct _ (member x d hx) _ (member y d' hy) same

/-- Indexing at `i` reads the head of the octets from `i` on. -/
theorem getElem?_eq_some_iff_drop {data : Bytes} {i : Nat} {b : UInt8} :
    data[i]? = some b ↔ data.drop i = b :: data.drop (i + 1) := by
  constructor
  · intro h
    obtain ⟨hi, rfl⟩ := List.getElem?_eq_some_iff.mp h
    exact List.drop_eq_getElem_cons hi
  · intro h
    rw [← List.head?_drop, h, List.head?_cons]

end ByteStrings
