import Mathlib.Data.List.AList
import Mathlib.Data.Set.Card

/-!
# Finite maps with deletion by predicate

Association lists without duplicate keys stand for mutable maps. Added here are
their size, the deletion of all entries that fail a test (the effect of a loop
that deletes while ranging over a map, in whatever order), and the relation of
the size to the set of keys.
-/

namespace FiniteMaps

universe u v
variable {κ : Type u} {ν : Type v}

abbrev FiniteMap (κ : Type u) (ν : Type v) := AList (fun _ : κ => ν)

def size (m : FiniteMap κ ν) : Nat := m.entries.length

/-- Delete every entry whose value fails the test. -/
def keepIf (p : ν → Bool) (m : FiniteMap κ ν) : FiniteMap κ ν :=
  ⟨m.entries.filter (fun e => p e.2), m.nodupKeys.sublist List.filter_sublist⟩

theorem size_keepIf_le (p : ν → Bool) (m : FiniteMap κ ν) : size (keepIf p m) ≤ size m :=
  List.length_filter_le _ _

variable [DecidableEq κ]

theorem lookup_eq_some_iff {m : FiniteMap κ ν} {k : κ} {x : ν} :
    m.lookup k = some x ↔ (⟨k, x⟩ : Sigma fun _ : κ => ν) ∈ m.entries :=
  AList.mem_lookup_iff

theorem lookup_keepIf_eq_some_iff {p : ν → Bool} {m : FiniteMap κ ν} {k : κ} {x : ν} :
    (keepIf p m).lookup k = some x ↔ m.lookup k = some x ∧ p x = true := by
  rw [lookup_eq_some_iff, lookup_eq_some_iff]
  exact List.mem_filter

/-- The entries under some keys, with their values transformed. -/
def restrict {ν' : Type v} (p : κ → Bool) (f : ν → ν') (m : FiniteMap κ ν) : FiniteMap κ ν' where
  entries := (m.entries.filter fun e => p e.1).map fun e => ⟨e.1, f e.2⟩
  nodupKeys := by
    have kept : (m.entries.filter fun e => p e.1).NodupKeys :=
      m.nodupKeys.sublist List.filter_sublist
    rw [List.NodupKeys, List.keys, List.map_map]
    exact kept

theorem size_erase_le (m : FiniteMap κ ν) (k : κ) : size (m.erase k) ≤ size m :=
  (List.kerase_sublist k m.entries).length_le

theorem size_insert {m : FiniteMap κ ν} {k : κ} (absent : m.lookup k = none) (x : ν) :
    size (m.insert k x) = size m + 1 := by
  have fresh : k ∉ m := AList.lookup_eq_none.mp absent
  rw [size, AList.entries_insert_of_notMem fresh, List.length_cons, size]

theorem lookup_erase_eq_some_iff {m : FiniteMap κ ν} {k k' : κ} {x : ν} :
    (m.erase k).lookup k' = some x ↔ k' ≠ k ∧ m.lookup k' = some x := by
  by_cases same : k' = k
  · subst same
    simp
  · simp [AList.lookup_erase_ne same, same]

theorem lookup_insert_eq_some_iff {m : FiniteMap κ ν} {k k' : κ} {x y : ν} :
    (m.insert k x).lookup k' = some y ↔ (k' = k ∧ x = y) ∨ (k' ≠ k ∧ m.lookup k' = some y) := by
  by_cases same : k' = k
  · subst same
    simp
  · simp [AList.lookup_insert_ne same, same]

/-- Insert the entries of one map into an empty one, in the order in which they are visited. -/
def copy (m : FiniteMap κ ν) : FiniteMap κ ν :=
  m.entries.foldl (fun target e => target.insert e.1 e.2) ∅

theorem lookup_foldl_insert {entries : List (Sigma fun _ : κ => ν)} (distinct : entries.NodupKeys)
    (target : FiniteMap κ ν) (k : κ) :
    (entries.foldl (fun target e => target.insert e.1 e.2) target).lookup k =
      (entries.dlookup k).or (target.lookup k) := by
  induction entries generalizing target with
  | nil => rfl
  | cons e rest ih =>
    obtain ⟨absent, distinct'⟩ := List.nodupKeys_cons.mp distinct
    rw [List.foldl_cons, ih distinct']
    by_cases here : k = e.1
    · subst here
      rw [List.dlookup_eq_none.mpr absent, AList.lookup_insert, List.dlookup_cons_eq]
      rfl
    · rw [AList.lookup_insert_ne here, List.dlookup_cons_ne _ _ here]

theorem lookup_copy (m : FiniteMap κ ν) (k : κ) : (copy m).lookup k = m.lookup k := by
  rw [copy, lookup_foldl_insert m.nodupKeys, AList.lookup_empty, Option.or_none]
  rfl

/-- Maps that agree at every key differ in the order of their entries only. -/
theorem entries_perm_of_lookup {m m' : FiniteMap κ ν} (same : ∀ k, m.lookup k = m'.lookup k) :
    m.entries.Perm m'.entries := by
  refine List.lookup_ext m.nodupKeys m'.nodupKeys fun k x => ?_
  exact iff_of_eq (congrArg (x ∈ ·) (same k))

/-- A map whose keys come from a list is no larger than the list. -/
theorem size_le_of_keys {m : FiniteMap κ ν} {ks : List κ}
    (within : ∀ k, m.lookup k ≠ none → k ∈ ks) : size m ≤ ks.length := by
  have listed : m.keys ⊆ ks := fun k mem =>
    within k fun absent => AList.lookup_eq_none.mp absent (AList.mem_keys.mpr mem)
  have shorter := (List.subperm_of_subset m.keys_nodup listed).length_le
  simpa [size, AList.keys, List.keys] using shorter

omit [DecidableEq κ] in
theorem length_le_size {m : FiniteMap κ ν} {ks : List κ} (distinct : ks.Nodup)
    (listed : ks ⊆ m.keys) : ks.length ≤ size m := by
  have shorter := (List.subperm_of_subset distinct listed).length_le
  rwa [AList.keys, List.keys, List.length_map] at shorter

/-- The size is the number of keys. -/
theorem encard_keys (m : FiniteMap κ ν) : {k | m.lookup k ≠ none}.encard = size m := by
  have keys : {k | m.lookup k ≠ none} = (m.keys.toFinset : Set κ) := by
    ext k
    simp only [Set.mem_ofPred_eq, List.coe_toFinset, ne_eq, AList.lookup_eq_none, not_not]
    exact AList.mem_keys
  rw [keys, Set.encard_coe_eq_coe_finsetCard, List.toFinset_card_of_nodup m.keys_nodup]
  simp [AList.keys, List.keys, size]

end FiniteMaps
