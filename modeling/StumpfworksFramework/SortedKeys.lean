import Mathlib.Data.List.Sort
import StumpfworksFramework.FiniteMaps

/-!
# The keys of a map in the order of a comparator

A comparator that looks at one trait of a key after the other is a strict order, and
total as soon as the traits together determine the key. The keys of a map
sorted by it then form the same list in whatever order the map is visited, and
whatever sorting method is used.
-/

namespace SortedKeys

open FiniteMaps

universe u v w
variable {κ : Type u} {α : Type v} {β : Type w}

/-- A strict order in which keys that are not comparable agree on a trait. -/
structure Orders (trait : κ → β) (less : κ → κ → Prop) : Prop where
  irrefl : ∀ a, ¬ less a a
  trans : ∀ {a b c}, less a b → less b c → less a c
  total : ∀ {a b}, ¬ less a b → ¬ less b a → trait a = trait b

theorem Orders.asymm {trait : κ → β} {less : κ → κ → Prop} (orders : Orders trait less)
    {a b : κ} (before : less a b) : ¬ less b a :=
  fun after => orders.irrefl a (orders.trans before after)

/-- Compare by a trait, and by the next comparator where it is the same. -/
def firstBy [DecidableEq α] (trait : κ → α) (below : α → α → Prop) (next : κ → κ → Prop)
    (a b : κ) : Prop :=
  if trait a ≠ trait b then below (trait a) (trait b) else next a b

section Lexicographic

variable [DecidableEq α] {trait : κ → α} {below : α → α → Prop} {next : κ → κ → Prop}

instance [DecidableRel below] [DecidableRel next] : DecidableRel (firstBy trait below next) :=
  fun a b => inferInstanceAs (Decidable (if trait a ≠ trait b then _ else _))

theorem firstBy_of_ne {a b : κ} (differ : trait a ≠ trait b) :
    firstBy trait below next a b ↔ below (trait a) (trait b) := by
  rw [firstBy, if_pos differ]

theorem firstBy_of_eq {a b : κ} (same : trait a = trait b) :
    firstBy trait below next a b ↔ next a b := by
  rw [firstBy, if_neg (not_not_intro same)]

theorem firstBy_orders {rest : κ → β} (first : Orders id below) (second : Orders rest next) :
    Orders (fun k => (trait k, rest k)) (firstBy trait below next) where
  irrefl := fun a => by
    rw [firstBy_of_eq rfl]
    exact second.irrefl a
  trans := fun {a b c} ab bc => by
    by_cases hab : trait a = trait b
    · rw [firstBy_of_eq hab] at ab
      by_cases hbc : trait b = trait c
      · rw [firstBy_of_eq hbc] at bc
        exact (firstBy_of_eq (hab.trans hbc)).mpr (second.trans ab bc)
      · rw [firstBy_of_ne hbc] at bc
        rw [← hab] at hbc bc
        exact (firstBy_of_ne hbc).mpr bc
    · rw [firstBy_of_ne hab] at ab
      by_cases hbc : trait b = trait c
      · rw [hbc] at hab ab
        exact (firstBy_of_ne hab).mpr ab
      · rw [firstBy_of_ne hbc] at bc
        have below_ac := first.trans ab bc
        have hac : trait a ≠ trait c := fun same =>
          first.irrefl _ (same ▸ below_ac)
        exact (firstBy_of_ne hac).mpr below_ac
  total := fun {a b} hab hba => by
    by_cases same : trait a = trait b
    · rw [firstBy_of_eq same] at hab
      rw [firstBy_of_eq same.symm] at hba
      exact Prod.ext same (second.total hab hba)
    · rw [firstBy_of_ne same] at hab
      rw [firstBy_of_ne (Ne.symm same)] at hba
      exact absurd (first.total hab hba) same

end Lexicographic

/-! ## Sorted keys -/

/-- The keys of a map so that none is less than one before it. -/
def sortedKeys {ν : Type w} (less : κ → κ → Prop) [DecidableRel less] (m : FiniteMap κ ν) :
    List κ :=
  m.keys.insertionSort fun a b => ¬ less b a

section Sorted

variable {ν : Type w} {less : κ → κ → Prop} [DecidableRel less] {m m' : FiniteMap κ ν}

theorem sortedKeys_perm (m : FiniteMap κ ν) : (sortedKeys less m).Perm m.keys :=
  List.perm_insertionSort _ _

theorem sortedKeys_nodup (m : FiniteMap κ ν) : (sortedKeys less m).Nodup :=
  (sortedKeys_perm m).nodup_iff.mpr m.keys_nodup

theorem mem_sortedKeys [DecidableEq κ] {k : κ} : k ∈ sortedKeys less m ↔ m.lookup k ≠ none := by
  rw [(sortedKeys_perm m).mem_iff, ← AList.mem_keys, Ne, AList.lookup_eq_none, not_not]

variable {trait : κ → α} (orders : Orders trait less)
  (determines : Function.Injective trait)
include orders determines

theorem sortedKeys_pairwise (m : FiniteMap κ ν) :
    (sortedKeys less m).Pairwise fun a b => ¬ less b a := by
  have comparable : Std.Total fun a b => ¬ less b a :=
    ⟨fun a b => (em (less b a)).elim (fun before => Or.inr (orders.asymm before)) Or.inl⟩
  have chained : IsTrans κ fun a b => ¬ less b a := by
    refine ⟨fun a b c hab hbc hca => ?_⟩
    -- Either `b` comes before `a` after all, or it equals `a` and so comes after `c`.
    by_cases before : less a b
    · exact hbc (orders.trans hca before)
    · have same : a = b := determines (orders.total before hab)
      exact hbc (same ▸ hca)
  exact List.pairwise_insertionSort _ _

/-- Every way of sorting the keys gives this list. -/
theorem eq_sortedKeys {l : List κ} (perm : l.Perm m.keys)
    (sorted : l.Pairwise fun a b => ¬ less b a) : l = sortedKeys less m := by
  refine List.Perm.eq_of_pairwise ?_ sorted (sortedKeys_pairwise orders determines m)
    (perm.trans (sortedKeys_perm m).symm)
  intro a b _ _ hab hba
  exact determines (orders.total hba hab)

/-- The order in which the entries are visited does not matter. -/
theorem sortedKeys_eq_of_perm (perm : m.entries.Perm m'.entries) :
    sortedKeys less m = sortedKeys less m' :=
  eq_sortedKeys orders determines ((sortedKeys_perm m).trans (perm.map _))
    (sortedKeys_pairwise orders determines m)

end Sorted

end SortedKeys
