import Mathlib.Data.List.Nodup

/-!
# Gathering one answer from each of several parties

A collector asks a number of parties, each known by a key, and keeps two lists:
the keys it still waits for, and those it will report as failed. An answer takes
its key out of the first, and puts it into the second if it is an error. When the
collector gives up, whatever is pending goes to the failed ones. At every moment
a key is pending, or failed, or has answered without an error.
-/

namespace Gathering

universe u v
variable {κ : Type u} {ε : Type v}

/-- The two lists against the answers received so far. -/
structure Gathered (keys : List κ) (received : List (κ × Option ε)) (pending failed : List κ) :
    Prop where
  pending_nodup : pending.Nodup
  failed_nodup : failed.Nodup
  answers : ∀ k e, (k, e) ∈ received → k ∈ keys
  waiting : ∀ k ∈ pending, k ∈ keys ∧ k ∉ received.map Prod.fst
  /-- as long as anything is pending, everything without an answer is -/
  whole : pending ≠ [] → ∀ k ∈ keys, k ∉ received.map Prod.fst → k ∈ pending
  failed_iff : ∀ k, k ∈ failed ↔
    (∃ e, (k, some e) ∈ received) ∨ (k ∈ keys ∧ k ∉ received.map Prod.fst ∧ k ∉ pending)

variable {keys pending failed : List κ} {received : List (κ × Option ε)} {k : κ}

theorem Gathered.start (distinct : keys.Nodup) :
    Gathered keys ([] : List (κ × Option ε)) keys [] where
  pending_nodup := distinct
  failed_nodup := List.nodup_nil
  answers := fun k e mem => absurd mem List.not_mem_nil
  waiting := fun k mem => ⟨mem, List.not_mem_nil⟩
  whole := fun _ k mem _ => mem
  failed_iff := fun k => by simp

/-- The failed list after an answer. -/
def noted (failed : List κ) (k : κ) : Option ε → List κ
  | none => failed
  | some _ => failed ++ [k]

theorem mem_noted {e : Option ε} {j : κ} :
    j ∈ noted failed k e ↔ j ∈ failed ∨ j = k ∧ e ≠ none := by
  cases e <;> simp [noted]

theorem noted_nodup (distinct : failed.Nodup) (unreported : k ∉ failed) (e : Option ε) :
    (noted failed k e).Nodup := by
  cases e with
  | none => exact distinct
  | some error =>
    refine List.nodup_append.mpr ⟨distinct, List.nodup_singleton _, ?_⟩
    intro j mem j' last same
    rw [List.mem_singleton.mp last] at same
    exact unreported (same ▸ mem)

theorem mem_names_concat {e : Option ε} {j : κ} :
    j ∈ (received ++ [(k, e)]).map Prod.fst ↔ j ∈ received.map Prod.fst ∨ j = k := by
  rw [List.map_append, List.mem_append, List.map_singleton, List.mem_singleton]

/-- What is pending has not failed. -/
theorem Gathered.notMem_failed (gathered : Gathered keys received pending failed)
    (there : k ∈ pending) : k ∉ failed := by
  intro mem
  rcases (gathered.failed_iff k).mp mem with ⟨e, answered⟩ | ⟨_, _, absent⟩
  · exact (gathered.waiting k there).2 (List.mem_map.mpr ⟨_, answered, rfl⟩)
  · exact absent there

theorem Gathered.receive [DecidableEq κ] (gathered : Gathered keys received pending failed)
    (some : pending ≠ []) (known : k ∈ keys) (fresh : k ∉ received.map Prod.fst) (e : Option ε) :
    Gathered keys (received ++ [(k, e)]) (pending.filter (· ≠ k)) (noted failed k e) := by
  have there : k ∈ pending := gathered.whole some k known fresh
  constructor
  · exact gathered.pending_nodup.filter _
  · exact noted_nodup gathered.failed_nodup (gathered.notMem_failed there) e
  · intro j e' mem
    rcases List.mem_append.mp mem with old | new
    · exact gathered.answers j e' old
    · cases List.mem_singleton.mp new
      exact known
  · intro j mem
    obtain ⟨old, other⟩ := List.mem_filter.mp mem
    have differs : j ≠ k := of_decide_eq_true other
    obtain ⟨listed, silent⟩ := gathered.waiting j old
    refine ⟨listed, ?_⟩
    rw [mem_names_concat]
    rintro (answered | same)
    · exact silent answered
    · exact differs same
  · intro _ j listed silent
    rw [mem_names_concat, not_or] at silent
    exact List.mem_filter.mpr ⟨gathered.whole some j listed silent.1, decide_eq_true silent.2⟩
  · intro j
    rw [mem_noted, mem_names_concat]
    by_cases same : j = k
    · -- the answer alone decides whether its key has failed
      subst same
      have unreported := gathered.notMem_failed there
      have answered : ∀ x, (j, x) ∉ received := fun x mem => fresh (List.mem_map.mpr ⟨_, mem, rfl⟩)
      simp [unreported, answered, Option.ne_none_iff_exists, eq_comm]
    · rw [gathered.failed_iff]
      simp [same]

/-- Giving up: what is pending fails, in whatever order it is visited. -/
theorem Gathered.giveUp (gathered : Gathered keys received pending failed) {order : List κ}
    (perm : order.Perm pending) : Gathered keys received [] (failed ++ order) := by
  constructor
  · exact List.nodup_nil
  · refine List.nodup_append.mpr
      ⟨gathered.failed_nodup, perm.nodup_iff.mpr gathered.pending_nodup, ?_⟩
    intro j mem j' visited same
    subst same
    have there := perm.mem_iff.mp visited
    rcases (gathered.failed_iff j).mp mem with ⟨e, answered⟩ | ⟨_, _, absent⟩
    · exact (gathered.waiting j there).2 (List.mem_map.mpr ⟨_, answered, rfl⟩)
    · exact absent there
  · exact gathered.answers
  · intro j mem
    exact absurd mem List.not_mem_nil
  · intro none
    exact absurd rfl none
  · intro j
    rw [List.mem_append, gathered.failed_iff, perm.mem_iff]
    by_cases there : j ∈ pending
    · obtain ⟨listed, silent⟩ := gathered.waiting j there
      simp [there, listed, silent]
    · simp [there]

/-- Once nothing is pending, the failed keys are those with an error and those without an answer. -/
theorem Gathered.finished (gathered : Gathered keys received [] failed) (k : κ) :
    k ∈ failed ↔ (∃ e, (k, some e) ∈ received) ∨ (k ∈ keys ∧ k ∉ received.map Prod.fst) := by
  rw [gathered.failed_iff]
  simp

/-- Nothing has failed if and only if every key has answered without an error. -/
theorem Gathered.failed_eq_nil_iff (gathered : Gathered keys received [] failed)
    (once : (received.map Prod.fst).Nodup) :
    failed = [] ↔ ∀ k ∈ keys, (k, none) ∈ received := by
  constructor
  · intro empty k listed
    have spared : k ∉ failed := by
      rw [empty]
      exact List.not_mem_nil
    rw [gathered.finished, not_or, not_and, not_not] at spared
    obtain ⟨⟨j, e⟩, mem, rfl⟩ := List.mem_map.mp (spared.2 listed)
    cases e with
    | none => exact mem
    | some error => exact absurd ⟨error, mem⟩ spared.1
  · intro answered
    refine List.eq_nil_iff_forall_not_mem.mpr fun k mem => ?_
    rcases (gathered.finished k).mp mem with ⟨e, error⟩ | ⟨listed, silent⟩
    · have right := answered k (gathered.answers k _ error)
      have same := List.inj_on_of_nodup_map once error right rfl
      cases same
    · exact silent (List.mem_map.mpr ⟨_, answered k listed, rfl⟩)

end Gathering
