import StumpfworksFramework.UrlReferences

/-!
# Octets in hexadecimal

An octet is written with two digits, in lower or in upper case, and read back by
`unhex` from either.
-/

namespace HexText

open ByteStrings UrlReferences

def lowerDigit (n : UInt8) : UInt8 := if n < 10 then 48 + n else 87 + n

def upperDigit (n : UInt8) : UInt8 := if n < 10 then 48 + n else 55 + n

/-- The two digits of an octet, in front of further text. -/
def lowerOctet (b : UInt8) (rest : Bytes) : Bytes :=
  lowerDigit (b >>> 4) :: lowerDigit (b &&& 15) :: rest

def upperOctet (b : UInt8) (rest : Bytes) : Bytes :=
  upperDigit (b >>> 4) :: upperDigit (b &&& 15) :: rest

/-- `hex.EncodeToString`. -/
def hexEncode (bytes : Bytes) : Bytes := bytes.foldr lowerOctet []

theorem isHex_lowerOctet (b : UInt8) :
    isHex (lowerDigit (b >>> 4)) = true ∧ isHex (lowerDigit (b &&& 15)) = true := by
  revert b
  exact forall_octet (by decide +kernel)

theorem unhex_lowerOctet (b : UInt8) :
    unhex (lowerDigit (b >>> 4)) * 16 + unhex (lowerDigit (b &&& 15)) = b := by
  revert b
  exact forall_octet (by decide +kernel)

theorem hexEncode_cons (b : UInt8) (rest : Bytes) :
    hexEncode (b :: rest) = lowerDigit (b >>> 4) :: lowerDigit (b &&& 15) :: hexEncode rest := rfl

theorem length_hexEncode (bytes : Bytes) : (hexEncode bytes).length = 2 * bytes.length := by
  induction bytes with
  | nil => rfl
  | cons b rest ih =>
    rw [hexEncode_cons, List.length_cons, List.length_cons, ih, List.length_cons]
    omega

/-- Two digits determine their octet. -/
theorem hexEncode_injective : Function.Injective hexEncode := by
  intro bytes
  induction bytes with
  | nil =>
    intro bytes' same
    cases bytes' with
    | nil => rfl
    | cons b' rest' => cases same
  | cons b rest ih =>
    intro bytes' same
    cases bytes' with
    | nil => cases same
    | cons b' rest' =>
      rw [hexEncode_cons, hexEncode_cons, List.cons.injEq, List.cons.injEq] at same
      obtain ⟨high, low, more⟩ := same
      have octet : b = b' := by
        rw [← unhex_lowerOctet b, ← unhex_lowerOctet b', high, low]
      rw [octet, ih more]

theorem forall_mem_hexEncode {p : UInt8 → Prop}
    (digits : ∀ b : UInt8, p (lowerDigit (b >>> 4)) ∧ p (lowerDigit (b &&& 15))) (bytes : Bytes) :
    ∀ c ∈ hexEncode bytes, p c := by
  induction bytes with
  | nil => nofun
  | cons b rest ih =>
    intro c mem
    rw [hexEncode_cons, List.mem_cons, List.mem_cons] at mem
    rcases mem with rfl | rfl | later
    · exact (digits b).1
    · exact (digits b).2
    · exact ih c later

end HexText
