import Mathlib.Algebra.BigOperators.Group.List.Basic
import Mathlib.Algebra.Order.Ring.Rat
import Mathlib.Order.Monotone.Basic
import StumpfworksFramework.FiniteMaps

/-!
# Histograms with cumulative buckets

A histogram counts values, adds them up, and counts in bucket `i` those that are
at most the bound `i`. Counters have 64 bits; values are exact rationals. A map
of histograms is updated by writing back the changed copy of one entry. What a
map holds after some values depends on the values of each key alone, and not on
their order.
-/

namespace Histograms

open FiniteMaps

universe u
variable {κ : Type u} {n : Nat}

structure Histogram (n : Nat) where
  count : Nat
  sum : Rat
  buckets : Fin n → Nat
  deriving DecidableEq

/-- The first number that a counter cannot hold. -/
def counterLimit : Nat := 2 ^ 64

def Histogram.zero : Histogram n := ⟨0, 0, fun _ => 0⟩

def Histogram.add (bounds : Fin n → Rat) (item : Histogram n) (x : Rat) : Histogram n where
  count := (item.count + 1) % counterLimit
  sum := item.sum + x
  buckets := fun i =>
    if x ≤ bounds i then (item.buckets i + 1) % counterLimit else item.buckets i

/-- Change a copy of the entry, or of the zero histogram, and write it back. -/
def record [DecidableEq κ] (bounds : Fin n → Rat) (m : FiniteMap κ (Histogram n)) (k : κ)
    (x : Rat) : FiniteMap κ (Histogram n) :=
  m.insert k (((m.lookup k).getD Histogram.zero).add bounds x)

/-! ## The histogram of a list of values -/

variable (bounds : Fin n → Rat)

def summary (xs : List Rat) : Histogram n where
  count := xs.length % counterLimit
  sum := xs.sum
  buckets := fun i => xs.countP (· ≤ bounds i) % counterLimit

/-- An entry exists from the first value on. -/
def tally (xs : List Rat) : Option (Histogram n) :=
  if xs = [] then none else some (summary bounds xs)

theorem add_summary (xs : List Rat) (x : Rat) :
    (summary bounds xs).add bounds x = summary bounds (xs ++ [x]) := by
  unfold Histogram.add summary
  congr 1
  · rw [List.length_append, List.length_singleton, Nat.mod_add_mod]
  · rw [List.sum_append, List.sum_singleton]
  · funext i
    rw [List.countP_append, List.countP_singleton]
    by_cases within : x ≤ bounds i
    · simp only [within, decide_true, if_true, Nat.mod_add_mod]
    · simp only [within, decide_false, if_false, Bool.false_eq_true, Nat.add_zero]

theorem summary_nil : summary bounds [] = Histogram.zero := by
  simp [summary, Histogram.zero, counterLimit]

theorem getD_tally (xs : List Rat) :
    (tally bounds xs).getD Histogram.zero = summary bounds xs := by
  by_cases empty : xs = []
  · rw [tally, if_pos empty, empty, summary_nil, Option.getD_none]
  · rw [tally, if_neg empty, Option.getD_some]

theorem tally_concat (xs : List Rat) (x : Rat) :
    tally bounds (xs ++ [x]) = some (((tally bounds xs).getD Histogram.zero).add bounds x) := by
  rw [getD_tally, add_summary, tally, if_neg (by simp)]

/-- The order of the values is forgotten. -/
theorem tally_perm {xs ys : List Rat} (perm : xs.Perm ys) :
    tally bounds xs = tally bounds ys := by
  have empty : xs = [] ↔ ys = [] := by
    rw [← List.length_eq_zero_iff, ← List.length_eq_zero_iff, perm.length_eq]
  unfold tally summary
  simp only [empty, perm.length_eq, perm.sum_eq, perm.countP_eq]

/-! ## Maps of histograms -/

section Maps

variable [DecidableEq κ] {m : FiniteMap κ (Histogram n)}

theorem lookup_record_self (k : κ) (x : Rat) : (record bounds m k x).lookup k =
    some (((m.lookup k).getD Histogram.zero).add bounds x) :=
  AList.lookup_insert m

theorem lookup_record_of_ne {k k' : κ} (other : k' ≠ k) (x : Rat) :
    (record bounds m k x).lookup k' = m.lookup k' :=
  AList.lookup_insert_ne other

/-- A map that holds the tallies of some values holds them after one more value. -/
theorem lookup_record {values : κ → List Rat} (holds : ∀ k, m.lookup k = tally bounds (values k))
    (k k' : κ) (x : Rat) : (record bounds m k x).lookup k' =
      tally bounds (values k' ++ if k = k' then [x] else []) := by
  by_cases here : k = k'
  · subst here
    rw [if_pos rfl, tally_concat, lookup_record_self, holds]
  · rw [if_neg here, List.append_nil, lookup_record_of_ne _ (Ne.symm here), holds]

end Maps

/-! ## Counters below the limit -/

section Small

variable {bounds} {xs : List Rat} (small : xs.length < counterLimit)
include small

theorem count_summary : (summary bounds xs).count = xs.length := Nat.mod_eq_of_lt small

theorem buckets_summary (i : Fin n) :
    (summary bounds xs).buckets i = xs.countP (· ≤ bounds i) :=
  Nat.mod_eq_of_lt (Nat.lt_of_le_of_lt List.countP_le_length small)

theorem buckets_monotone (increasing : Monotone bounds) :
    Monotone (summary bounds xs).buckets := by
  intro i j le
  rw [buckets_summary small, buckets_summary small]
  apply List.countP_mono_left
  intro x _ within
  simp only [decide_eq_true_eq] at within ⊢
  exact within.trans (increasing le)

theorem buckets_le_count (i : Fin n) :
    (summary bounds xs).buckets i ≤ (summary bounds xs).count := by
  rw [buckets_summary small, count_summary small]
  exact List.countP_le_length

end Small

end Histograms
