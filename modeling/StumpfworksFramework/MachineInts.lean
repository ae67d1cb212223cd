import StumpfworksFramework.ByteStrings

/-!
# Machine integers and checked reads

Signed integers of a width of at least 32 bits are kept as integers and wrapped
after each operation. Reads of a byte string fail out of range. How a
computation on them ends is an `Ending`: besides a value or an error it can be
a run-time panic, or the fuel that bounds its recursion can run out.
-/

namespace MachineInts

open ByteStrings

/-- The width of a platform's integers. -/
structure Width where
  bits : Nat
  wide : 32 ≤ bits

def width32 : Width := ⟨32, Nat.le_refl 32⟩

/-- The least positive number that is not representable. -/
def Width.limit (w : Width) : Int := 2 ^ (w.bits - 1)

theorem Width.two_pow (w : Width) : ((2 ^ w.bits : Nat) : Int) = 2 * w.limit := by
  have wide := w.wide
  obtain ⟨n, bits⟩ : ∃ n, w.bits = n + 1 := ⟨w.bits - 1, by omega⟩
  rw [Width.limit, bits, Nat.add_sub_cancel]
  push_cast
  ring

theorem Width.le_limit (w : Width) : 2 ^ 31 ≤ w.limit := by
  have wide := w.wide
  have powers : 2 ^ 31 ≤ 2 ^ (w.bits - 1) := Nat.pow_le_pow_right (by decide) (by omega)
  rw [Width.limit]
  exact_mod_cast powers

/-- Two's complement wrapping. -/
def wrap (w : Width) (x : Int) : Int := (BitVec.ofInt w.bits x).toInt

theorem wrap_of_fits {w : Width} {x : Int} (low : -w.limit ≤ x) (high : x < w.limit) :
    wrap w x = x := by
  have power := w.two_pow
  rw [wrap, BitVec.toInt_ofInt]
  apply Int.bmod_eq_of_le <;> omega

/-- `x << 8 | int(b)`. -/
def shiftIn (w : Width) (x : Int) (b : UInt8) : Int :=
  (BitVec.ofInt w.bits x <<< 8 ||| BitVec.ofNat w.bits b.toNat).toInt

theorem shiftIn_of_small {w : Width} {x : Int} (b : UInt8) (low : 0 ≤ x) (high : x < 2 ^ 23) :
    shiftIn w x b = x * 256 + b.toNat := by
  obtain ⟨n, rfl⟩ := Int.eq_ofNat_of_zero_le low
  have small : n < 2 ^ 23 := by exact_mod_cast high
  have octet := b.toNat_lt
  have power : 2 ^ 32 ≤ 2 ^ w.bits := Nat.pow_le_pow_right (by decide) w.wide
  have value : (BitVec.ofInt w.bits (n : Int) <<< 8 ||| BitVec.ofNat w.bits b.toNat).toNat =
      n * 256 + b.toNat := by
    rw [BitVec.toNat_or, BitVec.toNat_shiftLeft, BitVec.ofInt_natCast, BitVec.toNat_ofNat,
      BitVec.toNat_ofNat, Nat.mod_eq_of_lt (by omega : n < 2 ^ w.bits),
      Nat.mod_eq_of_lt (by omega : b.toNat < 2 ^ w.bits), Nat.shiftLeft_eq,
      Nat.mod_eq_of_lt (by omega), ← Nat.shiftLeft_eq,
      ← Nat.shiftLeft_add_eq_or_of_lt octet, Nat.shiftLeft_eq]
  rw [shiftIn, BitVec.toInt_eq_toNat_of_lt (by omega), value]
  push_cast
  ring

/-- `data[i]`, which panics out of range. -/
def load (data : Bytes) (i : Int) : Option UInt8 :=
  if 0 ≤ i then data[i.toNat]? else none

/-- `data[i:j]`, not reaching beyond the length. -/
def slice (data : Bytes) (i j : Int) : Option Bytes :=
  if 0 ≤ i ∧ i ≤ j ∧ j ≤ data.length then some ((data.drop i.toNat).take (j - i).toNat) else none

@[simp] theorem load_natCast (data : Bytes) (i : Nat) : load data i = data[i]? := by
  simp [load]

@[simp] theorem load_cons_zero (b : UInt8) (rest : Bytes) : load (b :: rest) 0 = some b := rfl

theorem slice_natCast {data : Bytes} {i n : Nat} (within : i + n ≤ data.length) :
    slice data i (i + n : Nat) = some ((data.drop i).take n) := by
  rw [slice, if_pos (by omega), Int.toNat_natCast]
  congr 2
  omega

/-- How a computation ends. -/
inductive Ending (α : Type) where
  | returned (value : α)
  | failed
  | panicked
  | exhausted
  deriving DecidableEq, Repr

namespace Ending

variable {α β : Type}

def andThen : Ending α → (α → Ending β) → Ending β
  | returned value, next => next value
  | failed, _ => failed
  | panicked, _ => panicked
  | exhausted, _ => exhausted

instance : Monad Ending where
  pure := returned
  bind := andThen

@[simp] theorem returned_bind (value : α) (next : α → Ending β) :
    (returned value >>= next) = next value := rfl

/-- A read out of range panics. -/
def ofRead : Option α → Ending α
  | some value => returned value
  | none => panicked

/-- A refused input is an error. -/
def ofOption : Option α → Ending α
  | some value => returned value
  | none => failed

@[simp] theorem ofRead_some (value : α) : ofRead (some value) = returned value := rfl
@[simp] theorem ofOption_some (value : α) : ofOption (some value) = returned value := rfl
@[simp] theorem ofOption_none : ofOption (none : Option α) = failed := rfl

end Ending

end MachineInts
