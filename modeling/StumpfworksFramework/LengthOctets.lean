import StumpfworksFramework.BerResources
import StumpfworksFramework.ReadGuard

/-!
# Length octets in 32-bit integers

The bound is tested on a partial value before each shift. A partial value is the
final value without its last octets, so the test refuses exactly the values from
4097 * 256 on: all values that could be the length of a frame pass, and what
passes has not come near the end of the range.
-/

namespace LengthOctets

open ByteStrings ByteReaders MachineInts BerFraming BerAcceptance BerExecution BerResources
open ReadGuard

theorem mul_le_extendBigEndian (length : Nat) (value : UInt8) (rest : Bytes) :
    length * 256 ≤ extendBigEndian length (value :: rest) := by
  have grows := le_extendBigEndian (length * 256 + value.toNat) rest
  rw [extendBigEndian_cons]
  exact (Nat.le_add_right _ _).trans grows

/-- The loop refuses by the final value, although it only looks at partial ones. -/
theorem decodeLength_eq_none_iff (length : Nat) (octets : Bytes) :
    decodeLength length octets = none ↔
      octets ≠ [] ∧ 4097 * 256 ≤ extendBigEndian length octets := by
  have bound : (1 <<< 20) >>> 8 = 4096 := by decide
  induction octets generalizing length with
  | nil => simp [decodeLength]
  | cons value rest ih =>
    have octet := value.toNat_lt
    have grows := mul_le_extendBigEndian length value rest
    rw [decodeLength, bound]
    by_cases large : length > 4096
    · have refused : 4097 * 256 ≤ extendBigEndian length (value :: rest) :=
        (Nat.mul_le_mul_right 256 large).trans grows
      simp [large, refused]
    · rw [if_neg large, shift_or, extendBigEndian_cons]
      refine (ih (length * 256 + value.toNat)).trans ?_
      cases rest with
      | nil =>
        have small : ¬ 4097 * 256 ≤ extendBigEndian (length * 256 + value.toNat) [] := by
          rw [extendBigEndian, List.foldl_nil]
          omega
        simp [small]
      | cons value' rest => simp

theorem decodeLength_eq_some {octets : Bytes} (small : ofBigEndian octets < 4097 * 256) :
    decodeLength 0 octets = some (ofBigEndian octets) := by
  cases decoded : decodeLength 0 octets with
  | none =>
    have large := ((decodeLength_eq_none_iff 0 octets).mp decoded).2
    rw [← ofBigEndian] at large
    omega
  | some n => rw [decodeLength_sound decoded, ofBigEndian]

theorem decodeLength_of_octets {octets : Bytes} (some_octets : octets ≠ []) :
    decodeLength 0 octets =
      if ofBigEndian octets < 4097 * 256 then some (ofBigEndian octets) else none := by
  split
  · exact decodeLength_eq_some ‹_›
  · rename_i large
    exact (decodeLength_eq_none_iff 0 octets).mpr ⟨some_octets, Nat.le_of_not_lt large⟩

/-- No value on the way is negative or exceeds a mebibyte by more than an octet. -/
theorem lengthLoop_values (w : Width) (length : Nat) (octets : Bytes) :
    ∀ v ∈ (lengthLoop w length octets).1, 0 ≤ v ∧ v ≤ 2 ^ 20 + 255 := by
  have bound : (1 <<< 20) >>> 8 = 4096 := by decide
  induction octets generalizing length with
  | nil => simp [lengthLoop]
  | cons value rest ih =>
    rw [lengthLoop]
    split
    · simp
    · rename_i passed
      have small := mt (preshift_iff length).mpr passed
      have octet := value.toNat_lt
      have next : shiftIn w length value = (length * 256 + value.toNat : Nat) := by
        rw [shiftIn_of_small value (by omega) (by omega)]
        omega
      intro v mem
      rw [next, List.mem_cons] at mem
      rcases mem with rfl | mem
      · omega
      · exact ih _ v mem

/-- The framer's reading of a length in the long form. -/
theorem readExtra_long {τ : Type} {r : Reader τ} {s s' : τ} {octets : Bytes}
    (some_octets : 1 ≤ octets.length) (few : octets.length ≤ 4)
    (read : readFull r s octets.length = (.ok octets, s')) :
    readExtra r s (UInt8.ofNat (0x80 + octets.length)) =
      if ofBigEndian octets < 4097 * 256 then (.ok (octets, ofBigEndian octets), s')
      else (.error errInvalidFrame, s') := by
  obtain ⟨long, width⟩ := long_form_octet octets.length few
  have nonempty : octets ≠ [] := List.ne_nil_of_length_pos some_octets
  have within : ¬ (octets.length < 1 ∨ octets.length > 4) := by omega
  simp only [readExtra, if_pos long, width, if_neg within, read, decodeLength_of_octets nonempty]
  by_cases small : ofBigEndian octets < 4097 * 256
  · simp only [if_pos small]
  · simp only [if_neg small]

/-- The validator's reading of a length in the long form. -/
theorem readLength_long {data octets rest : Bytes} {index : Nat}
    (some_octets : 1 ≤ octets.length) (few : octets.length ≤ 4)
    (split : data.drop index = UInt8.ofNat (0x80 + octets.length) :: (octets ++ rest)) :
    readLength data index =
      if ofBigEndian octets < 4097 * 256 then
        some (index + 1 + octets.length, ofBigEndian octets)
      else none := by
  obtain ⟨long, width⟩ := long_form_octet octets.length few
  have nonempty : octets ≠ [] := List.ne_nil_of_length_pos some_octets
  have first : data[index]? = some (UInt8.ofNat (0x80 + octets.length)) := by
    rw [← List.head?_drop, split]
    rfl
  have tail : data.drop (index + 1) = octets ++ rest := by
    rw [← List.tail_drop, split]
    rfl
  have room : octets.length ≤ data.length - (index + 1) := by
    rw [← List.length_drop, tail, List.length_append]
    omega
  have bounds : ¬ (octets.length < 1 ∨ octets.length > 4 ∨
      index + 1 + octets.length > data.length) := by omega
  simp only [readLength, first, if_pos long, width, if_neg bounds, tail, List.take_left,
    decodeLength_of_octets nonempty]
  by_cases small : ofBigEndian octets < 4097 * 256
  · simp [small]
  · simp [small]

/-- Length octets in 32-bit integers: nothing overflows, exactly the values from 4097 * 256 on
are refused, and every other value reaches both readers as it is. -/
theorem lengths_exact (octets : Bytes) (some_octets : 1 ≤ octets.length)
    (few : octets.length ≤ 4) :
    (∀ v ∈ (lengthLoop width32 0 octets).1, 0 ≤ v ∧ v ≤ 2 ^ 20 + 255) ∧
    ((lengthLoop width32 0 octets).2 = .failed ↔ 4097 * 256 ≤ ofBigEndian octets) ∧
    (ofBigEndian octets < 4097 * 256 →
      (lengthLoop width32 0 octets).2 = .returned (ofBigEndian octets)) ∧
    (∀ (τ : Type) (r : Reader τ) (s s' : τ), readFull r s octets.length = (.ok octets, s') →
      readExtra r s (UInt8.ofNat (0x80 + octets.length)) =
        if ofBigEndian octets < 4097 * 256 then (.ok (octets, ofBigEndian octets), s')
        else (.error errInvalidFrame, s')) ∧
    ∀ (data rest : Bytes) (index : Nat),
      data.drop index = UInt8.ofNat (0x80 + octets.length) :: (octets ++ rest) →
      readLength data index =
        if ofBigEndian octets < 4097 * 256 then
          some (index + 1 + octets.length, ofBigEndian octets)
        else none := by
  have nonempty : octets ≠ [] := List.ne_nil_of_length_pos some_octets
  have loop := lengthLoop_eq width32 0 octets
  rw [Int.natCast_zero, decodeLength_of_octets nonempty] at loop
  refine ⟨lengthLoop_values width32 0 octets, ?_, ?_, ?_, ?_⟩
  · rw [loop]
    by_cases small : ofBigEndian octets < 4097 * 256
    · simp [small]
    · simp [small, Nat.le_of_not_lt small]
  · intro small
    rw [loop, if_pos small]
    rfl
  · intro τ r s s' read
    exact readExtra_long some_octets few read
  · intro data rest index split
    exact readLength_long some_octets few split

/-- The largest value that passes and the least that does not. -/
theorem lengths_exact_edge :
    (lengthLoop width32 0 [0x00, 0x10, 0x00, 0xff]).2 = .returned (2 ^ 20 + 255) ∧
    (lengthLoop width32 0 [0x00, 0x10, 0x01, 0x00]).2 = .failed := by
  have largest := (lengths_exact [0x00, 0x10, 0x00, 0xff] (by decide) (by decide)).2.2.1
  have least := (lengths_exact [0x00, 0x10, 0x01, 0x00] (by decide) (by decide)).2.1
  exact ⟨largest (by decide), least.mpr (by decide)⟩

end LengthOctets
