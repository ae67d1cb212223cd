import Mathlib.Data.Set.Card

/-!
# Bounded one-shot maps

The abstract purpose of a store of pending secrets. A ledger assigns to some
keys a value and the secret it was deposited with. A value is handed out for
its exact key and secret, and only once; room is made by forgetting values that
are dead at the time, never live ones. Keys, values and secrets are arbitrary.
-/

namespace OneShotMaps

universe u v w
variable {κ : Type u} {ν : Type v} {σ : Type w}

abbrev Ledger (κ : Type u) (ν : Type v) (σ : Type w) := κ → Option (ν × σ)

def Ledger.empty : Ledger κ ν σ := fun _ => none

/-- The visible effect of an operation. -/
inductive Label (κ : Type u) (ν : Type v) (σ : Type w) where
  | deposit (key : κ) (value : ν) (secret : σ)
  | redeem (key : κ) (value : ν) (secret : σ)

/-- Entries may disappear if their value is dead; the others stay as they are. -/
def Forgets (dead : ν → Prop) (before after : Ledger κ ν σ) : Prop :=
  ∀ k, after k = before k ∨ (after k = none ∧ ∃ v b, before k = some (v, b) ∧ dead v)

theorem Forgets.refl (dead : ν → Prop) (l : Ledger κ ν σ) : Forgets dead l l :=
  fun _ => Or.inl rfl

theorem Forgets.mono {dead dead' : ν → Prop} {before after : Ledger κ ν σ}
    (forgets : Forgets dead before after) (wider : ∀ v, dead v → dead' v) :
    Forgets dead' before after := by
  intro k
  rcases forgets k with same | ⟨gone, v, b, held, h⟩
  · exact Or.inl same
  · exact Or.inr ⟨gone, v, b, held, wider v h⟩

theorem Forgets.of_some {dead : ν → Prop} {before after : Ledger κ ν σ}
    (forgets : Forgets dead before after) {k : κ} {p : ν × σ} (held : after k = some p) :
    before k = some p := by
  rcases forgets k with same | ⟨gone, _⟩
  · rw [← same]
    exact held
  · rw [gone] at held
    cases held

theorem Forgets.encard_le {dead : ν → Prop} {before after : Ledger κ ν σ}
    (forgets : Forgets dead before after) :
    {k | after k ≠ none}.encard ≤ {k | before k ≠ none}.encard := by
  apply Set.encard_le_encard
  intro k held
  obtain ⟨p, hp⟩ := Option.ne_none_iff_exists'.mp held
  rw [Set.mem_ofPred_eq, forgets.of_some hp]
  exact Option.some_ne_none p

/-- A deposit that has not been redeemed since. -/
def Outstanding (h : List ((ν → Prop) × Option (Label κ ν σ))) (k : κ) (v : ν) (b : σ) : Prop :=
  ∃ h₁ h₂ dead, h = h₁ ++ (dead, some (.deposit k v b)) :: h₂ ∧
    ∀ e ∈ h₂, ∀ v' b', e.2 ≠ some (.redeem k v' b')

theorem Outstanding.snoc {h : List ((ν → Prop) × Option (Label κ ν σ))} {k : κ} {v : ν} {b : σ}
    (outstanding : Outstanding h k v b) {e : (ν → Prop) × Option (Label κ ν σ)}
    (other : ∀ v' b', e.2 ≠ some (.redeem k v' b')) : Outstanding (h ++ [e]) k v b := by
  obtain ⟨h₁, h₂, dead, rfl, quiet⟩ := outstanding
  refine ⟨h₁, h₂ ++ [e], dead, by simp, ?_⟩
  intro e' he'
  rcases List.mem_append.mp he' with old | new
  · exact quiet e' old
  · rw [List.mem_singleton.mp new]
    exact other

variable [DecidableEq κ]

/-- At most one deposit into a free key with room, or one redemption. -/
inductive Does (capacity : Nat) : Ledger κ ν σ → Option (Label κ ν σ) → Ledger κ ν σ → Prop where
  | nothing (l : Ledger κ ν σ) : Does capacity l none l
  | deposit {l : Ledger κ ν σ} {k : κ} (v : ν) (b : σ) (free : l k = none)
      (room : {k | l k ≠ none}.encard < capacity) :
      Does capacity l (some (.deposit k v b)) (Function.update l k (some (v, b)))
  | redeem {l : Ledger κ ν σ} {k : κ} {v : ν} {b : σ} (held : l k = some (v, b)) :
      Does capacity l (some (.redeem k v b)) (Function.update l k none)

/-- One operation: forgetting dead values, then at most one visible effect. -/
def Step (capacity : Nat) (dead : ν → Prop) (before : Ledger κ ν σ)
    (label : Option (Label κ ν σ)) (after : Ledger κ ν σ) : Prop :=
  ∃ middle, Forgets dead before middle ∧ Does capacity middle label after

/-- Runs from the empty ledger, with the visible effects and what was dead at each operation. -/
inductive Trace (capacity : Nat) :
    List ((ν → Prop) × Option (Label κ ν σ)) → Ledger κ ν σ → Prop where
  | nil : Trace capacity [] Ledger.empty
  | snoc {h : List ((ν → Prop) × Option (Label κ ν σ))} {l l' : Ledger κ ν σ}
      {dead : ν → Prop} {label : Option (Label κ ν σ)} (before : Trace capacity h l)
      (step : Step capacity dead l label l') : Trace capacity (h ++ [(dead, label)]) l'

theorem Forgets.erase {dead : ν → Prop} {l : Ledger κ ν σ} {k : κ} {v : ν} {b : σ}
    (held : l k = some (v, b)) (gone : dead v) : Forgets dead l (Function.update l k none) := by
  intro j
  by_cases same : j = k
  · subst same
    exact Or.inr ⟨Function.update_self .., v, b, held, gone⟩
  · exact Or.inl (Function.update_of_ne same ..)

/-- The number of keys in use never exceeds the capacity. -/
theorem Trace.bounded {capacity : Nat} {h : List ((ν → Prop) × Option (Label κ ν σ))}
    {l : Ledger κ ν σ} (trace : Trace capacity h l) : {k | l k ≠ none}.encard ≤ capacity := by
  induction trace with
  | nil => simp [Ledger.empty]
  | snoc _ step ih =>
    obtain ⟨middle, forgets, does⟩ := step
    have bound := forgets.encard_le.trans ih
    cases does with
    | nothing => exact bound
    | @deposit k v b free room =>
      have grown : {j | Function.update middle k (some (v, b)) j ≠ none} ⊆
          insert k {j | middle j ≠ none} := by
        intro j held
        by_cases same : j = k
        · exact Or.inl same
        · right
          simpa [Function.update_of_ne same] using held
      refine (Set.encard_le_encard grown).trans ((Set.encard_insert_le _ _).trans ?_)
      exact Order.add_one_le_of_lt room
    | @redeem k v b held =>
      refine le_trans (Set.encard_le_encard ?_) bound
      intro j still
      by_cases same : j = k
      · subst same
        simp at still
      · simpa [Function.update_of_ne same] using still

/-- What a ledger holds was deposited and not redeemed since. -/
theorem Trace.outstanding {capacity : Nat} {h : List ((ν → Prop) × Option (Label κ ν σ))}
    {l : Ledger κ ν σ} (trace : Trace capacity h l) {k : κ} {v : ν} {b : σ}
    (held : l k = some (v, b)) : Outstanding h k v b := by
  induction trace with
  | nil => cases held
  | @snoc h _ _ dead _ _ step ih =>
    obtain ⟨middle, forgets, does⟩ := step
    cases does with
    | nothing =>
      exact (ih (forgets.of_some held)).snoc (by intro v' b' h; cases h)
    | @deposit k' v' b' free room =>
      by_cases same : k = k'
      · subst same
        rw [Function.update_self] at held
        cases held
        exact ⟨h, [], dead, rfl, by intro e he; cases he⟩
      · rw [Function.update_of_ne same] at held
        exact (ih (forgets.of_some held)).snoc (by intro v' b' h; cases h)
    | @redeem k' v' b' held' =>
      by_cases same : k = k'
      · subst same
        rw [Function.update_self] at held
        cases held
      · rw [Function.update_of_ne same] at held
        refine (ih (forgets.of_some held)).snoc ?_
        intro v'' b'' h
        cases h
        exact same rfl

/-- A live entry survives every operation but its own redemption. -/
theorem Step.keeps {capacity : Nat} {dead : ν → Prop} {before after : Ledger κ ν σ}
    {label : Option (Label κ ν σ)} (step : Step capacity dead before label after) {k : κ}
    {v : ν} {b : σ} (held : before k = some (v, b)) (alive : ¬ dead v)
    (other : label ≠ some (.redeem k v b)) : after k = some (v, b) := by
  obtain ⟨middle, forgets, does⟩ := step
  have stays : middle k = some (v, b) := by
    rcases forgets k with same | ⟨_, v', b', held', gone⟩
    · rw [same, held]
    · rw [held] at held'
      cases held'
      exact absurd gone alive
  cases does with
  | nothing => exact stays
  | @deposit k' v' b' free room =>
    have different : k ≠ k' := by
      rintro rfl
      rw [stays] at free
      cases free
    rw [Function.update_of_ne different]
    exact stays
  | @redeem k' v' b' held' =>
    have different : k ≠ k' := by
      rintro rfl
      rw [stays] at held'
      cases held'
      exact other rfl
    rw [Function.update_of_ne different]
    exact stays

end OneShotMaps
