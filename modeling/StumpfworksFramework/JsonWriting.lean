import StumpfworksFramework.Decimals
import StumpfworksFramework.HexText
import StumpfworksFramework.Utf8Runes

/-!
# Writing JSON and reading it back

Compact JSON texts as Go's `encoding/json` writes them: strings between quotes,
with escapes for control characters, quotes, backslashes, the two line separators
of Unicode and, if asked for, the characters that mean something in HTML. A reader
of such texts gives back the octets of every string, whatever the strings contain.
It refuses escapes for surrogates, which are never written.
-/

namespace JsonWriting

open ByteStrings Decimals HexText UrlReferences Utf8Runes

/-! ## Strings -/

/-- The octets of a text. -/
def utf8 (text : String) : Bytes := text.toList.flatMap fun c => encodeRune c.toNat

/-- The escape with four digits. -/
def unicodeEscape (n : Nat) : Bytes :=
  [92, 117, lowerDigit (UInt8.ofNat (n / 4096 % 16)), lowerDigit (UInt8.ofNat (n / 256 % 16)),
    lowerDigit (UInt8.ofNat (n / 16 % 16)), lowerDigit (UInt8.ofNat (n % 16))]

/-- The letters of the short escapes with what they stand for. -/
def shortEscapes : List (Nat × UInt8) :=
  [(34, 34), (92, 92), (8, 98), (12, 102), (10, 110), (13, 114), (9, 116)]

/-- `<`, `>` and `&`. -/
def htmlRunes : List Nat := [60, 62, 38]

def quoteRune (escapeHTML : Bool) (n : Nat) : Bytes :=
  match shortEscapes.lookup n with
  | some letter => [92, letter]
  | none =>
    if n < 32 ∨ (escapeHTML = true ∧ n ∈ htmlRunes) ∨ n = 0x2028 ∨ n = 0x2029 then unicodeEscape n
    else encodeRune n

/-- The inside of the quotes. -/
def quoteChars (escapeHTML : Bool) (text : String) : Bytes :=
  text.toList.flatMap fun c => quoteRune escapeHTML c.toNat

/-- What a short escape stands for; a slash may be escaped. -/
def shortEscape (letter : UInt8) : Option UInt8 :=
  [(34, 34), (92, 92), (47, 47), (98, 8), (102, 12), (110, 10), (114, 13), (116, 9)].lookup letter

/-- The rune of four digits, unless it is a surrogate. -/
def readUnicode (a b c d : UInt8) : Option Nat :=
  let n := (((unhex a).toNat * 16 + (unhex b).toNat) * 16 + (unhex c).toNat) * 16 + (unhex d).toNat
  if isHex a = true ∧ isHex b = true ∧ isHex c = true ∧ isHex d = true ∧
      ¬(0xD800 ≤ n ∧ n ≤ 0xDFFF) then some n
  else none

def prepend (octets : Bytes) (read : Option (Bytes × Bytes)) : Option (Bytes × Bytes) :=
  read.map fun r => (octets ++ r.1, r.2)

/-- Reads up to the closing quote: the octets of the string, and what follows the quote. -/
def readChars : Bytes → Option (Bytes × Bytes)
  | [] => none
  | c :: rest =>
    if c = 34 then some ([], rest)
    else if c = 92 then
      match rest with
      | [] => none
      | letter :: rest =>
        if letter = 117 then
          match rest with
          | a :: b :: c :: d :: rest =>
            match readUnicode a b c d with
            | none => none
            | some n => prepend (encodeRune n) (readChars rest)
          | _ => none
        else
          match shortEscape letter with
          | none => none
          | some octet => prepend [octet] (readChars rest)
    else if c < 32 then none
    else prepend [c] (readChars rest)

/-! ## Values -/

mutual

/-- Trees whose strings are texts, or octets. -/
inductive Value (α : Type) where
  | string (text : α)
  | number (i : Int)
  | array (items : Items α)
  | object (members : Members α)

inductive Items (α : Type) where
  | nil
  | cons (first : Value α) (rest : Items α)

inductive Members (α : Type) where
  | nil
  | cons (name : α) (value : Value α) (rest : Members α)

end

def Items.ofList {α : Type} : List (Value α) → Items α
  | [] => .nil
  | first :: rest => .cons first (Items.ofList rest)

def Members.ofList {α : Type} : List (α × Value α) → Members α
  | [] => .nil
  | (name, value) :: rest => .cons name value (Members.ofList rest)

def Items.toList {α : Type} : Items α → List (Value α)
  | .nil => []
  | .cons first rest => first :: rest.toList

def Members.toList {α : Type} : Members α → List (α × Value α)
  | .nil => []
  | .cons name value rest => (name, value) :: rest.toList

section Map

variable {α β : Type} (f : α → β)

mutual

def Value.map : Value α → Value β
  | .string text => .string (f text)
  | .number i => .number i
  | .array items => .array items.map
  | .object members => .object members.map

def Items.map : Items α → Items β
  | .nil => .nil
  | .cons first rest => .cons first.map rest.map

def Members.map : Members α → Members β
  | .nil => .nil
  | .cons name value rest => .cons (f name) value.map rest.map

end

end Map

section Write

variable (escapeHTML : Bool)

def quoted (text : String) (rest : Bytes) : Bytes :=
  34 :: (quoteChars escapeHTML text ++ 34 :: rest)

mutual

/-- The text of a value, in front of what follows. -/
def Value.write : Value String → Bytes → Bytes
  | .string text, rest => quoted escapeHTML text rest
  | .number i, rest => decimal i ++ rest
  | .array items, rest => 91 :: items.write rest
  | .object members, rest => 123 :: members.write rest

/-- From behind the opening bracket. -/
def Items.write : Items String → Bytes → Bytes
  | .nil, rest => 93 :: rest
  | .cons first more, rest => first.write (more.writeMore rest)

def Items.writeMore : Items String → Bytes → Bytes
  | .nil, rest => 93 :: rest
  | .cons first more, rest => 44 :: first.write (more.writeMore rest)

def Members.write : Members String → Bytes → Bytes
  | .nil, rest => 125 :: rest
  | .cons name value more, rest =>
    quoted escapeHTML name (58 :: value.write (more.writeMore rest))

def Members.writeMore : Members String → Bytes → Bytes
  | .nil, rest => 125 :: rest
  | .cons name value more, rest =>
    44 :: quoted escapeHTML name (58 :: value.write (more.writeMore rest))

end

end Write

def inNumber (b : UInt8) : Bool := b = 45 ∨ isDigit b = true

def readNumber (text : Bytes) : Option (Value Bytes × Bytes) :=
  (readDecimal (text.takeWhile inNumber)).map fun i => (.number i, text.dropWhile inNumber)

mutual

/-- Reads one value of a compact text; `fuel` bounds the values that are read. -/
def readValue : Nat → Bytes → Option (Value Bytes × Bytes)
  | 0, _ => none
  | _ + 1, [] => none
  | fuel + 1, c :: rest =>
    if c = 34 then (readChars rest).map fun r => (.string r.1, r.2)
    else if c = 91 then
      if rest.head? = some 93 then some (.array .nil, rest.tail)
      else (readItems fuel rest).map fun r => (.array r.1, r.2)
    else if c = 123 then
      if rest.head? = some 125 then some (.object .nil, rest.tail)
      else (readMembers fuel rest).map fun r => (.object r.1, r.2)
    else readNumber (c :: rest)

def readItems : Nat → Bytes → Option (Items Bytes × Bytes)
  | 0, _ => none
  | fuel + 1, text =>
    match readValue fuel text with
    | some (value, c :: rest) =>
      if c = 93 then some (.cons value .nil, rest)
      else if c = 44 then (readItems fuel rest).map fun r => (.cons value r.1, r.2)
      else none
    | _ => none

def readMembers : Nat → Bytes → Option (Members Bytes × Bytes)
  | 0, _ => none
  | fuel + 1, text =>
    if text.head? ≠ some 34 then none
    else
      match readChars text.tail with
      | some (name, c :: rest) =>
        if c ≠ 58 then none
        else
          match readValue fuel rest with
          | some (value, c :: rest) =>
            if c = 125 then some (.cons name value .nil, rest)
            else if c = 44 then (readMembers fuel rest).map fun r => (.cons name value r.1, r.2)
            else none
          | _ => none
      | _ => none

end

/-- Reads a text that holds one value and a line feed, as an encoder ends it. -/
def readLine (text : Bytes) : Option (Value Bytes) :=
  match readValue text.length text with
  | some (value, rest) => if rest = [10] then some value else none
  | none => none

/-! ## Strings are read back -/

section Chars

variable {escapeHTML : Bool}

/-- Octets that stand for themselves. -/
def PlainOctet (b : UInt8) : Prop := ¬b < 32 ∧ b ≠ 34 ∧ b ≠ 92

theorem readChars_end (rest : Bytes) : readChars (34 :: rest) = some ([], rest) := by
  rw [readChars.eq_def]
  exact if_pos rfl

theorem readChars_octet {b : UInt8} (plain : PlainOctet b) (rest : Bytes) :
    readChars (b :: rest) = prepend [b] (readChars rest) := by
  obtain ⟨printable, quote, slash⟩ := plain
  rw [readChars.eq_def]
  dsimp only
  rw [if_neg quote, if_neg slash, if_neg printable]

theorem readChars_short {letter octet : UInt8} (other : letter ≠ 117)
    (known : shortEscape letter = some octet) (rest : Bytes) :
    readChars (92 :: letter :: rest) = prepend [octet] (readChars rest) := by
  rw [readChars.eq_def]
  dsimp only
  rw [if_neg (by decide), if_pos rfl, if_neg other, known]

theorem readChars_unicode {a b c d : UInt8} {n : Nat} (known : readUnicode a b c d = some n)
    (rest : Bytes) :
    readChars (92 :: 117 :: a :: b :: c :: d :: rest) =
      prepend (encodeRune n) (readChars rest) := by
  rw [readChars.eq_def]
  dsimp only
  rw [if_neg (by decide), if_pos rfl, if_pos rfl, known]

theorem readChars_plain {octets : Bytes} (plain : ∀ b ∈ octets, PlainOctet b) (rest : Bytes) :
    readChars (octets ++ rest) = prepend octets (readChars rest) := by
  induction octets with
  | nil =>
    rw [List.nil_append, prepend]
    simp
  | cons b octets ih =>
    have tail := ih fun c mem => plain c (List.mem_cons_of_mem b mem)
    rw [List.cons_append, readChars_octet (plain b List.mem_cons_self), tail, prepend, prepend,
      prepend, Option.map_map]
    rfl

theorem ofNat_large {n : Nat} (large : 128 ≤ n) (octet : n < 256) : PlainOctet (UInt8.ofNat n) := by
  have value : (UInt8.ofNat n).toNat = n := by
    rw [UInt8.toNat_ofNat']
    omega
  refine ⟨?_, ?_, ?_⟩
  · rw [UInt8.lt_iff_toNat_lt, value]
    exact Nat.not_lt.mpr (Nat.le_trans (by decide) large)
  · rintro same
    rw [same] at value
    exact absurd (value ▸ large) (by decide)
  · rintro same
    rw [same] at value
    exact absurd (value ▸ large) (by decide)

/-- Every octet of a rune beyond ASCII has its upper bit set. -/
theorem plain_encodeRune {n : Nat} (large : 128 ≤ n) : ∀ b ∈ encodeRune n, PlainOctet b := by
  intro b mem
  rw [encodeRune, if_neg (by omega)] at mem
  split at mem
  · rename_i short
    simp only [List.mem_cons, List.not_mem_nil, or_false] at mem
    rcases mem with rfl | rfl
    · exact ofNat_large (by omega) (by omega)
    · exact ofNat_large (by omega) (by omega)
  · dsimp only at mem
    have scalar :
        (if n > 0x10FFFF ∨ (0xD800 ≤ n ∧ n ≤ 0xDFFF) then runeError else n) ≤ 0x10FFFF := by
      split
      · decide
      · omega
    generalize (if n > 0x10FFFF ∨ (0xD800 ≤ n ∧ n ≤ 0xDFFF) then runeError else n) = s at mem scalar
    split at mem
    · simp only [List.mem_cons, List.not_mem_nil, or_false] at mem
      rcases mem with rfl | rfl | rfl
      · exact ofNat_large (by omega) (by omega)
      · exact ofNat_large (by omega) (by omega)
      · exact ofNat_large (by omega) (by omega)
    · simp only [List.mem_cons, List.not_mem_nil, or_false] at mem
      rcases mem with rfl | rfl | rfl | rfl
      · exact ofNat_large (by omega) (by omega)
      · exact ofNat_large (by omega) (by omega)
      · exact ofNat_large (by omega) (by omega)
      · exact ofNat_large (by omega) (by omega)

/-- ASCII runes that are written as they are. -/
theorem plain_ascii {n : Nat} (small : n < 128) (unknown : shortEscapes.lookup n = none)
    (printable : ¬n < 32) : ∀ b ∈ encodeRune n, PlainOctet b := by
  have all : ∀ m, m < 128 → (shortEscapes.lookup m = none ∧ ¬m < 32) →
      PlainOctet (UInt8.ofNat m) := by
    unfold PlainOctet
    decide +kernel
  intro b mem
  rw [encodeRune, if_pos small, List.mem_singleton] at mem
  rw [mem]
  exact all n small ⟨unknown, printable⟩

theorem shortEscape_lookup : ∀ n letter, shortEscapes.lookup n = some letter →
    letter ≠ 117 ∧ (shortEscape letter).map (fun b => [b]) = some (encodeRune n) := by
  intro n letter found
  have mem : (n, letter) ∈ shortEscapes := by
    obtain ⟨before, after, split, _⟩ := List.lookup_eq_some_iff.mp found
    rw [split]
    simp
  have all : ∀ e ∈ shortEscapes, e.2 ≠ 117 ∧
      (shortEscape e.2).map (fun b => [b]) = some (encodeRune e.1) := by
    decide +kernel
  exact all _ mem

theorem readUnicode_escape : ∀ n, n < 128 ∨ n = 0x2028 ∨ n = 0x2029 →
    readUnicode (lowerDigit (UInt8.ofNat (n / 4096 % 16))) (lowerDigit (UInt8.ofNat (n / 256 % 16)))
      (lowerDigit (UInt8.ofNat (n / 16 % 16))) (lowerDigit (UInt8.ofNat (n % 16))) = some n := by
  have low : ∀ n, n < 128 → readUnicode (lowerDigit (UInt8.ofNat (n / 4096 % 16)))
      (lowerDigit (UInt8.ofNat (n / 256 % 16))) (lowerDigit (UInt8.ofNat (n / 16 % 16)))
      (lowerDigit (UInt8.ofNat (n % 16))) = some n := by
    decide +kernel
  rintro n (small | rfl | rfl)
  · exact low n small
  · decide +kernel
  · decide +kernel

theorem readChars_unicodeEscape {n : Nat} (written : n < 128 ∨ n = 0x2028 ∨ n = 0x2029)
    (rest : Bytes) :
    readChars (unicodeEscape n ++ rest) = prepend (encodeRune n) (readChars rest) :=
  readChars_unicode (readUnicode_escape n written) rest

/-- A rune is read back from how it is written. -/
theorem readChars_quoteRune (n : Nat) (rest : Bytes) :
    readChars (quoteRune escapeHTML n ++ rest) = prepend (encodeRune n) (readChars rest) := by
  unfold quoteRune
  split
  · rename_i letter found
    obtain ⟨other, octet⟩ := shortEscape_lookup n letter found
    obtain ⟨b, known, same⟩ := Option.map_eq_some_iff.mp octet
    rw [← same]
    exact readChars_short other known rest
  · rename_i unknown
    split
    · rename_i escaped
      refine readChars_unicodeEscape ?_ rest
      rcases escaped with control | ⟨_, html⟩ | separator
      · exact .inl (Nat.lt_trans control (by decide))
      · have small : ∀ m ∈ htmlRunes, m < 128 := by decide
        exact .inl (small n html)
      · exact .inr separator
    · rename_i plain
      rw [not_or] at plain
      by_cases small : n < 128
      · exact readChars_plain (plain_ascii small unknown plain.1) rest
      · exact readChars_plain (plain_encodeRune (Nat.le_of_not_lt small)) rest

/-- A string is read back up to its closing quote. -/
theorem readChars_quoteChars (text : String) (rest : Bytes) :
    readChars (quoteChars escapeHTML text ++ 34 :: rest) = some (utf8 text, rest) := by
  unfold quoteChars utf8
  induction text.toList with
  | nil =>
    rw [List.flatMap_nil, List.nil_append, readChars_end, List.flatMap_nil]
  | cons c cs ih =>
    rw [List.flatMap_cons, List.append_assoc, readChars_quoteRune, ih, List.flatMap_cons]
    rfl

end Chars

/-! ## Values are read back -/

mutual

/-- How many values and members have to be read. -/
def Value.size {α : Type} : Value α → Nat
  | .string _ => 1
  | .number _ => 1
  | .array items => items.size + 1
  | .object members => members.size + 1

def Items.size {α : Type} : Items α → Nat
  | .nil => 0
  | .cons first rest => first.size + rest.size + 1

def Members.size {α : Type} : Members α → Nat
  | .nil => 0
  | .cons _ value rest => value.size + rest.size + 1

end

/-- What follows does not go on with a number. -/
def Stops (rest : Bytes) : Prop := ∀ b ∈ rest.head?, inNumber b = false

section Read

variable (escapeHTML : Bool)

theorem inNumber_of_mem {i : Int} {b : UInt8} (mem : b ∈ decimal i) : inNumber b = true :=
  decide_eq_true (mem_decimal mem)

theorem readNumber_decimal (i : Int) {rest : Bytes} (stops : Stops rest) :
    readNumber (decimal i ++ rest) = some (.number i, rest) := by
  have taken : rest.takeWhile inNumber = [] ∧ rest.dropWhile inNumber = rest := by
    cases rest with
    | nil => exact ⟨rfl, rfl⟩
    | cons b rest =>
      have other : ¬inNumber b = true := by
        rw [stops b rfl]
        decide
      exact ⟨List.takeWhile_cons_of_neg other, List.dropWhile_cons_of_neg other⟩
  have all : ∀ b ∈ decimal i, inNumber b = true := fun b mem => inNumber_of_mem mem
  rw [readNumber, List.takeWhile_append_of_pos all, List.dropWhile_append_of_pos all, taken.1,
    taken.2, List.append_nil, readDecimal_decimal]
  rfl

theorem inNumber_plain : ∀ b : UInt8, inNumber b = true →
    b ≠ 34 ∧ b ≠ 91 ∧ b ≠ 123 ∧ b ≠ 93 := by
  exact forall_octet (by decide +kernel)

/-- The first octet of a value. -/
theorem Value.write_head (v : Value String) (rest : Bytes) :
    (v.write escapeHTML rest).head? ≠ some 93 := by
  cases v with
  | string text =>
    rw [Value.write, quoted, List.head?_cons]
    decide
  | number i =>
    obtain ⟨b, more, text⟩ := List.exists_cons_of_ne_nil (decimal_ne_nil i)
    have digit : inNumber b = true := by
      apply inNumber_of_mem (i := i)
      rw [text]
      exact List.mem_cons_self
    rw [Value.write, text, List.cons_append, List.head?_cons]
    intro same
    exact (inNumber_plain b digit).2.2.2 (Option.some.inj same)
  | array items =>
    rw [Value.write, List.head?_cons]
    decide
  | object members =>
    rw [Value.write, List.head?_cons]
    decide

theorem stops_items (items : Items String) (rest : Bytes) :
    Stops (items.writeMore escapeHTML rest) := by
  cases items with
  | nil =>
    rintro b same
    cases same
    decide
  | cons first more =>
    rintro b same
    cases same
    decide

theorem stops_members (members : Members String) (rest : Bytes) :
    Stops (members.writeMore escapeHTML rest) := by
  cases members with
  | nil =>
    rintro b same
    cases same
    decide
  | cons name value more =>
    rintro b same
    cases same
    decide

mutual

theorem readValue_write : ∀ (v : Value String) (fuel : Nat) (rest : Bytes), v.size ≤ fuel →
    Stops rest → readValue fuel (v.write escapeHTML rest) = some (v.map utf8, rest)
  | v, 0, _, enough, _ => by
    cases v <;> simp [Value.size] at enough
  | .string text, fuel + 1, rest, _, _ => by
    rw [Value.write, quoted, readValue, if_pos rfl, readChars_quoteChars]
    rfl
  | .number i, fuel + 1, rest, _, stops => by
    have read := readNumber_decimal i stops
    obtain ⟨b, more, text⟩ := List.exists_cons_of_ne_nil (decimal_ne_nil i)
    have digit : inNumber b = true := by
      apply inNumber_of_mem (i := i)
      rw [text]
      exact List.mem_cons_self
    obtain ⟨quote, bracket, brace, _⟩ := inNumber_plain b digit
    rw [text, List.cons_append] at read
    rw [Value.write, text, List.cons_append, readValue, if_neg quote, if_neg bracket, if_neg brace,
      read]
    rfl
  | .array .nil, fuel + 1, rest, _, _ => by
    rw [Value.write, Items.write, readValue, if_neg (by decide), if_pos rfl]
    rfl
  | .array (.cons first more), fuel + 1, rest, enough, _ => by
    have read := readItems_write first more fuel rest
      (by simp only [Value.size] at enough; omega)
    have head := first.write_head escapeHTML (more.writeMore escapeHTML rest)
    rw [Value.write, Items.write, readValue, if_neg (by decide), if_pos rfl, if_neg head, read]
    rfl
  | .object .nil, fuel + 1, rest, _, _ => by
    rw [Value.write, Members.write, readValue, if_neg (by decide), if_neg (by decide), if_pos rfl]
    rfl
  | .object (.cons name value more), fuel + 1, rest, enough, _ => by
    have read := readMembers_write name value more fuel rest
      (by simp only [Value.size] at enough; omega)
    rw [Value.write, Members.write, readValue, if_neg (by decide), if_neg (by decide), if_pos rfl,
      if_neg (by rw [quoted, List.head?_cons]; decide), read]
    rfl

theorem readItems_write : ∀ (first : Value String) (more : Items String) (fuel : Nat)
    (rest : Bytes),
    (Items.cons first more).size ≤ fuel →
    readItems fuel (first.write escapeHTML (more.writeMore escapeHTML rest)) =
      some ((Items.cons first more).map utf8, rest)
  | _, _, 0, _, enough => by simp [Items.size] at enough
  | first, .nil, fuel + 1, rest, enough => by
    have read := readValue_write first fuel (93 :: rest)
      (by simp only [Items.size] at enough; omega) (stops_items escapeHTML .nil rest)
    rw [Items.writeMore, readItems, read]
    rfl
  | first, .cons second more, fuel + 1, rest, enough => by
    have read := readValue_write first fuel
      (44 :: second.write escapeHTML (more.writeMore escapeHTML rest))
      (by simp only [Items.size] at enough; omega)
      (stops_items escapeHTML (.cons second more) rest)
    have later := readItems_write second more fuel rest
      (by simp only [Items.size] at enough ⊢; omega)
    rw [Items.writeMore, readItems, read]
    dsimp only
    rw [if_neg (by decide), if_pos rfl, later]
    rfl

theorem readMembers_write : ∀ (name : String) (value : Value String) (more : Members String)
    (fuel : Nat) (rest : Bytes), (Members.cons name value more).size ≤ fuel →
    readMembers fuel (quoted escapeHTML name
      (58 :: value.write escapeHTML (more.writeMore escapeHTML rest))) =
      some ((Members.cons name value more).map utf8, rest)
  | _, _, _, 0, _, enough => by simp [Members.size] at enough
  | name, value, .nil, fuel + 1, rest, enough => by
    have read := readValue_write value fuel (125 :: rest)
      (by simp only [Members.size] at enough; omega) (stops_members escapeHTML .nil rest)
    rw [Members.writeMore, quoted, readMembers, if_neg (by simp), List.tail_cons,
      readChars_quoteChars]
    dsimp only
    rw [if_neg (by simp), read]
    rfl
  | name, value, .cons name' value' more, fuel + 1, rest, enough => by
    have read := readValue_write value fuel
      (44 :: quoted escapeHTML name'
        (58 :: value'.write escapeHTML (more.writeMore escapeHTML rest)))
      (by simp only [Members.size] at enough; omega)
      (stops_members escapeHTML (.cons name' value' more) rest)
    have later := readMembers_write name' value' more fuel rest
      (by simp only [Members.size] at enough ⊢; omega)
    rw [Members.writeMore, quoted, readMembers, if_neg (by simp), List.tail_cons,
      readChars_quoteChars]
    dsimp only
    rw [if_neg (by simp), read]
    dsimp only
    rw [if_neg (by decide), if_pos rfl, later]
    rfl

end

mutual

theorem Value.size_le : ∀ (v : Value String) (rest : Bytes),
    v.size + rest.length ≤ (v.write escapeHTML rest).length
  | .string text, rest => by
    simp only [Value.size, Value.write, quoted, List.length_cons, List.length_append]
    omega
  | .number i, rest => by
    have some := List.length_pos_of_ne_nil (decimal_ne_nil i)
    simp only [Value.size, Value.write, List.length_append]
    omega
  | .array .nil, rest => by
    simp only [Value.size, Items.size, Value.write, Items.write, List.length_cons]
    omega
  | .array (.cons first more), rest => by
    have head := first.size_le (more.writeMore escapeHTML rest)
    have tail := more.size_le rest
    simp only [Value.size, Items.size, Value.write, Items.write, List.length_cons]
    omega
  | .object .nil, rest => by
    simp only [Value.size, Members.size, Value.write, Members.write, List.length_cons]
    omega
  | .object (.cons name value more), rest => by
    have head := value.size_le (more.writeMore escapeHTML rest)
    have tail := more.size_le rest
    simp only [Value.size, Members.size, Value.write, Members.write, quoted, List.length_cons,
      List.length_append]
    omega

theorem Items.size_le : ∀ (items : Items String) (rest : Bytes),
    items.size + rest.length + 1 ≤ (items.writeMore escapeHTML rest).length
  | .nil, rest => by
    simp only [Items.size, Items.writeMore, List.length_cons]
    omega
  | .cons first more, rest => by
    have head := first.size_le (more.writeMore escapeHTML rest)
    have tail := more.size_le rest
    simp only [Items.size, Items.writeMore, List.length_cons]
    omega

theorem Members.size_le : ∀ (members : Members String) (rest : Bytes),
    members.size + rest.length + 1 ≤ (members.writeMore escapeHTML rest).length
  | .nil, rest => by
    simp only [Members.size, Members.writeMore, List.length_cons]
    omega
  | .cons name value more, rest => by
    have head := value.size_le (more.writeMore escapeHTML rest)
    have tail := more.size_le rest
    simp only [Members.size, Members.writeMore, quoted, List.length_cons, List.length_append]
    omega

end

/-- A value is read back from the line that was written for it, with the octets of its strings. -/
theorem readLine_write (v : Value String) :
    readLine (v.write escapeHTML [10]) = some (v.map utf8) := by
  have stops : Stops [10] := by
    rintro b same
    cases same
    decide
  have enough := v.size_le escapeHTML [10]
  rw [readLine, readValue_write escapeHTML v _ _ (Nat.le_trans (Nat.le_add_right _ _) enough) stops]
  exact if_pos rfl

end Read

end JsonWriting
