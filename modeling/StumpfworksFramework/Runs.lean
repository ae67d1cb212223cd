import Mathlib.Algebra.GroupWithZero.Nat
import Mathlib.Data.List.Induction

/-!
# Runs of a transition system with observable results

A system takes actions one at a time; every action changes the state and has a
result. A run is recorded by its history of actions and results. Assumptions
on the environment restrict which actions a state may meet and are a parameter
of the run, so that a system without any takes `fun _ _ => True`.
-/

namespace Runs

universe u v w
variable {S : Type u} {A : Type v} {O : Type w}

/-- `Run step legal start h s`: legal actions with results `h` lead from `start` to `s`. -/
inductive Run (step : S → A → S × O) (legal : S → A → Prop) (start : S) :
    List (A × O) → S → Prop where
  | nil : Run step legal start [] start
  | snoc {h : List (A × O)} {s : S} (before : Run step legal start h s) (a : A)
      (allowed : legal s a) :
      Run step legal start (h ++ [(a, (step s a).2)]) (step s a).1

variable {step : S → A → S × O} {legal : S → A → Prop} {start : S}

/-- A property of history and state that holds at the start and is kept by
every legal step holds throughout. -/
theorem Run.invariant {P : List (A × O) → S → Prop} (init : P [] start)
    (keeps : ∀ h s a, Run step legal start h s → P h s → legal s a →
      P (h ++ [(a, (step s a).2)]) (step s a).1)
    {h : List (A × O)} {s : S} (run : Run step legal start h s) : P h s := by
  induction run with
  | nil => exact init
  | snoc before a allowed ih => exact keeps _ _ a before ih allowed

/-- Weaker assumptions allow more runs. -/
theorem Run.mono {legal' : S → A → Prop} (weaker : ∀ s a, legal s a → legal' s a)
    {h : List (A × O)} {s : S} (run : Run step legal start h s) : Run step legal' start h s := by
  induction run with
  | nil => exact Run.nil
  | snoc _ a allowed ih => exact Run.snoc ih a (weaker _ a allowed)

/-- A run may be extended at its beginning. -/
theorem Run.cons {a : A} (allowed : legal start a) {h : List (A × O)} {s : S}
    (run : Run step legal (step start a).1 h s) :
    Run step legal start ((a, (step start a).2) :: h) s := by
  induction run with
  | nil => exact Run.snoc Run.nil a allowed
  | snoc _ b allowed' ih => exact Run.snoc ih b allowed'

/-- A run may be continued by another. -/
theorem Run.trans {h h' : List (A × O)} {s s' : S} (first : Run step legal start h s)
    (second : Run step legal s h' s') : Run step legal start (h ++ h') s' := by
  induction second with
  | nil =>
    rw [List.append_nil]
    exact first
  | snoc _ a allowed ih =>
    rw [← List.append_assoc]
    exact Run.snoc ih a allowed

/-- The history and the last state of a list of actions. -/
def play (step : S → A → S × O) (s : S) : List A → List (A × O) × S
  | [] => ([], s)
  | a :: rest =>
    let r := play step (step s a).1 rest
    ((a, (step s a).2) :: r.1, r.2)

/-- Every action of a list is legal where it is taken. -/
def LegalPlay (step : S → A → S × O) (legal : S → A → Prop) (s : S) : List A → Prop
  | [] => True
  | a :: rest => legal s a ∧ LegalPlay step legal (step s a).1 rest

/-- Actions that are legal in every state. -/
theorem legalPlay_of_forall {actions : List A} (always : ∀ a ∈ actions, ∀ s, legal s a) (s : S) :
    LegalPlay step legal s actions := by
  induction actions generalizing s with
  | nil => trivial
  | cons a rest ih =>
    refine ⟨always a List.mem_cons_self s, ih ?_ _⟩
    exact fun b mem => always b (List.mem_cons_of_mem _ mem)

theorem Run.of_play {s : S} {actions : List A} (allowed : LegalPlay step legal s actions) :
    Run step legal s (play step s actions).1 (play step s actions).2 := by
  induction actions generalizing s with
  | nil => exact Run.nil
  | cons a rest ih => exact Run.cons allowed.1 (ih allowed.2)

/-- Every entry of a history is the result of a legal step after what stands before it. -/
theorem Run.entry {before after : List (A × O)} {a : A} {o : O} {s : S}
    (run : Run step legal start (before ++ (a, o) :: after) s) :
    ∃ s', Run step legal start before s' ∧ legal s' a ∧ (step s' a).2 = o := by
  generalize whole : before ++ (a, o) :: after = h at run
  induction run generalizing after with
  | nil => simp at whole
  | snoc earlier last allowed ih =>
    obtain rfl | ⟨rest, final, rfl⟩ := List.eq_nil_or_concat after
    · obtain ⟨rfl, entry⟩ := List.append_inj' whole rfl
      obtain ⟨rfl, rfl⟩ := Prod.mk.inj (List.cons.inj entry).1
      exact ⟨_, earlier, allowed, rfl⟩
    · rw [List.concat_eq_append, ← List.cons_append, ← List.append_assoc] at whole
      exact ih (List.append_inj' whole rfl).1

/-! ## Parties

The parties of a system are kept in a list that grows at its end, each under its index. -/

section Parties

universe x
variable {α : Type x} {parties : List α} {party party' : α} {i j : Nat}

theorem forall_mem_concat {p : α → Prop} (old : ∀ x ∈ parties, p x) (new : p party) :
    ∀ x ∈ parties ++ [party], p x :=
  List.forall_mem_append.mpr ⟨old, List.forall_mem_singleton.mpr new⟩

theorem getElem?_concat_cases (found : (parties ++ [party])[i]? = some party') :
    parties[i]? = some party' ∨ (i = parties.length ∧ party' = party) := by
  by_cases old : i < parties.length
  · rw [List.getElem?_append_left old] at found
    exact Or.inl found
  · rw [List.getElem?_append_right (Nat.le_of_not_lt old)] at found
    obtain ⟨inside, rfl⟩ := List.getElem?_eq_some_iff.mp found
    simp only [List.length_singleton] at inside
    exact Or.inr ⟨by omega, by simp⟩

theorem getElem?_set_cases (found : (parties.set i party)[j]? = some party') :
    (j = i ∧ party' = party) ∨ (j ≠ i ∧ parties[j]? = some party') := by
  by_cases here : i = j
  · subst here
    by_cases inside : i < parties.length
    · rw [List.getElem?_set_self inside] at found
      cases found
      exact Or.inl ⟨rfl, rfl⟩
    · rw [List.getElem?_eq_none (by simpa using inside)] at found
      cases found
  · rw [List.getElem?_set_ne here] at found
    exact Or.inr ⟨Ne.symm here, found⟩

/-- A sum over the parties changes by what the replaced party changes. -/
theorem sum_map_set (f : α → Nat) (party' : α) (found : parties[i]? = some party) :
    ((parties.set i party').map f).sum + f party = (parties.map f).sum + f party' := by
  induction parties generalizing i with
  | nil => cases found
  | cons first rest ih =>
    cases i with
    | zero =>
      cases found
      simp only [List.set_cons_zero, List.map_cons, List.sum_cons]
      omega
    | succ i =>
      have tail := ih found
      simp only [List.set_cons_succ, List.map_cons, List.sum_cons]
      omega

theorem le_sum_map {f : α → Nat} (found : parties[i]? = some party) :
    f party ≤ (parties.map f).sum := by
  induction parties generalizing i with
  | nil => cases found
  | cons first rest ih =>
    cases i with
    | zero =>
      cases found
      simp
    | succ i =>
      have tail := ih found
      simp only [List.map_cons, List.sum_cons]
      omega

/-- Parties that count for at least one each are no more than the whole. -/
theorem countP_le_sum_map {p : α → Bool} {f : α → Nat}
    (each : ∀ x ∈ parties, p x = true → 1 ≤ f x) :
    parties.countP p ≤ (parties.map f).sum := by
  induction parties with
  | nil => exact Nat.le_refl _
  | cons first rest ih =>
    have tail := ih fun x mem => each x (List.mem_cons_of_mem _ mem)
    have head := each first List.mem_cons_self
    rw [List.countP_cons, List.map_cons, List.sum_cons]
    split
    · have counted := head ‹_›
      omega
    · omega

theorem sum_map_le_countP {p : α → Bool} {f : α → Nat}
    (each : ∀ x ∈ parties, f x ≤ if p x = true then 1 else 0) :
    (parties.map f).sum ≤ parties.countP p := by
  induction parties with
  | nil => exact Nat.le_refl _
  | cons first rest ih =>
    have tail := ih fun x mem => each x (List.mem_cons_of_mem _ mem)
    have head := each first List.mem_cons_self
    rw [List.countP_cons, List.map_cons, List.sum_cons]
    omega

end Parties

end Runs
