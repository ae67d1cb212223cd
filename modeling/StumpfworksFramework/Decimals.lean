import Mathlib.Data.Nat.Digits.Lemmas
import StumpfworksFramework.ByteStrings

/-!
# Decimal numbers as text

Integers are written in decimal, with a minus sign before the digits of a
negative one, and read back. Reading also accepts a plus sign and leading zeros,
and knows no bound; a caller with a fixed width checks the range of the result.
-/

namespace Decimals

open ByteStrings

def digit (d : Nat) : UInt8 := UInt8.ofNat (48 + d)

def natural (n : Nat) : Bytes := if n = 0 then [48] else (Nat.digits 10 n).reverse.map digit

def decimal : Int → Bytes
  | .ofNat n => natural n
  | .negSucc n => 45 :: natural (n + 1)

def readNatural (text : Bytes) : Option Nat :=
  if text ≠ [] ∧ text.all isDigit = true then
    some (text.foldl (fun n b => n * 10 + (b.toNat - 48)) 0)
  else none

def readDecimal (text : Bytes) : Option Int :=
  match text with
  | [] => none
  | b :: rest =>
    if b = 45 then (readNatural rest).map fun n : Nat => -(n : Int)
    else if b = 43 then (readNatural rest).map fun n : Nat => (n : Int)
    else (readNatural text).map fun n : Nat => (n : Int)

theorem digit_toNat {d : Nat} (small : d < 10) : (digit d).toNat = 48 + d := by
  rw [digit, UInt8.toNat_ofNat']
  omega

theorem isDigit_digit {d : Nat} (small : d < 10) : isDigit (digit d) = true := by
  have value := digit_toNat small
  simp only [isDigit, UInt8.le_iff_toNat_le, value, decide_eq_true_eq]
  constructor
  · exact Nat.le_add_right 48 d
  · exact Nat.add_le_add_left (Nat.le_of_lt_succ small) 48

theorem natural_ne_nil (n : Nat) : natural n ≠ [] := by
  unfold natural
  split
  · exact List.cons_ne_nil _ _
  · simpa [Nat.digits_eq_nil_iff_eq_zero] using ‹¬ n = 0›

theorem isDigit_of_mem_natural {n : Nat} {b : UInt8} (mem : b ∈ natural n) : isDigit b = true := by
  unfold natural at mem
  split at mem
  · rw [List.mem_singleton.mp mem]
    decide
  · obtain ⟨d, listed, rfl⟩ := List.mem_map.mp mem
    exact isDigit_digit (Nat.digits_lt_base (by decide) (List.mem_reverse.mp listed))

/-- The value of digits with the least significant one first. -/
theorem foldl_digits {ds : List Nat} (small : ∀ d ∈ ds, d < 10) :
    (ds.reverse.map digit).foldl (fun n b => n * 10 + (b.toNat - 48)) 0 = Nat.ofDigits 10 ds := by
  induction ds with
  | nil => rfl
  | cons d rest ih =>
    have tail := ih fun x mem => small x (List.mem_cons_of_mem _ mem)
    have value := digit_toNat (small d List.mem_cons_self)
    rw [List.reverse_cons, List.map_append, List.foldl_append, tail, Nat.ofDigits_cons]
    simp only [List.map_cons, List.map_nil, List.foldl_cons, List.foldl_nil, value]
    omega

theorem readNatural_natural (n : Nat) : readNatural (natural n) = some n := by
  have digits : (natural n).all isDigit = true :=
    List.all_eq_true.mpr fun _ mem => isDigit_of_mem_natural mem
  rw [readNatural, if_pos ⟨natural_ne_nil n, digits⟩]
  unfold natural
  split
  · subst_vars
    rfl
  · rw [foldl_digits fun _ mem => Nat.digits_lt_base (by decide) mem, Nat.ofDigits_digits]

/-- A number is read back from its decimal text. -/
theorem readDecimal_decimal (i : Int) : readDecimal (decimal i) = some i := by
  cases i with
  | ofNat n =>
    obtain ⟨b, rest, text⟩ := List.exists_cons_of_ne_nil (natural_ne_nil n)
    have first : isDigit b = true := isDigit_of_mem_natural (text ▸ List.mem_cons_self)
    have plain : b ≠ 45 ∧ b ≠ 43 := by
      constructor <;> rintro rfl <;> exact absurd first (by decide)
    have number := readNatural_natural n
    rw [text] at number
    simp only [decimal, text, readDecimal, if_neg plain.1, if_neg plain.2, number]
    rfl
  | negSucc n =>
    simp only [decimal, readDecimal, if_true, readNatural_natural]
    rfl

theorem decimal_ne_nil (i : Int) : decimal i ≠ [] := by
  cases i with
  | ofNat n => exact natural_ne_nil n
  | negSucc n => exact List.cons_ne_nil _ _

theorem mem_decimal {i : Int} {b : UInt8} (mem : b ∈ decimal i) : b = 45 ∨ isDigit b = true := by
  cases i with
  | ofNat n => exact Or.inr (isDigit_of_mem_natural mem)
  | negSucc n =>
    rcases List.mem_cons.mp mem with rfl | mem
    · exact Or.inl rfl
    · exact Or.inr (isDigit_of_mem_natural mem)

end Decimals
