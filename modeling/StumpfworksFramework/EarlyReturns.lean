import Mathlib.Logic.Basic

/-!
# Function bodies with early returns and deferred calls

A piece of a body works on the local variables and either falls through with a
value or leaves the function with its results. Triples say what holds in both
cases, from an assertion on the variables before; a deferred call runs on either
way out.
-/

namespace EarlyReturns

universe u
variable {σ ρ α β : Type u}

/-- Variables `σ`, results of the function `ρ`, value of the piece `α`. -/
def Body (σ ρ α : Type u) : Type u := σ → Except ρ α × σ

namespace Body

/-- `return` from the function. -/
def exit (r : ρ) : Body σ ρ α := fun s => (.error r, s)

def assign (f : σ → σ) : Body σ ρ PUnit := fun s => (.ok ⟨⟩, f s)

def andThen (m : Body σ ρ α) (next : α → Body σ ρ β) : Body σ ρ β := fun s =>
  match m s with
  | (.ok a, s') => next a s'
  | (.error r, s') => (.error r, s')

instance : Monad (Body σ ρ) where
  pure a := fun s => (.ok a, s)
  bind := andThen

/-- An `if` without `else`. -/
def onlyIf (c : Prop) [Decidable c] (m : Body σ ρ PUnit) : Body σ ρ PUnit :=
  if c then m else pure ⟨⟩

/-- A call deferred to the end of the function, whichever way it is left. -/
def deferring (last : σ → σ) (m : Body σ ρ α) : Body σ ρ α := fun s => ((m s).1, last (m s).2)

/-- Both ways out give the results of the function. -/
def finish (m : Body σ ρ ρ) (s : σ) : ρ × σ :=
  match m s with
  | (.ok r, s') => (r, s')
  | (.error r, s') => (r, s')

/-- A body goes on where its first piece fell through. -/
theorem bind_fell {m : Body σ ρ α} {next : α → Body σ ρ β} {s s' : σ} {a : α}
    (fell : m s = (.ok a, s')) : (m >>= next) s = next a s' := by
  have step : (m >>= next) s = andThen m next s := rfl
  rw [step, andThen, fell]

theorem finish_bind {m : Body σ ρ α} {next : α → Body σ ρ ρ} {s s' : σ} {a : α}
    (fell : m s = (.ok a, s')) : finish (m >>= next) s = finish (next a) s' := by
  unfold finish
  rw [bind_fell fell]

theorem onlyIf_skipped {c : Prop} [Decidable c] (fails : ¬c) (m : Body σ ρ PUnit) (s : σ) :
    onlyIf c m s = (.ok ⟨⟩, s) := by
  rw [onlyIf, if_neg fails]
  rfl

/-- Deferred calls do not change the results. -/
theorem finish_deferring (last : σ → σ) (m : Body σ ρ ρ) (s : σ) :
    (finish (deferring last m) s).1 = (finish m s).1 := by
  unfold finish deferring
  rcases m s with ⟨_ | _, _⟩
  · rfl
  · rfl

end Body

open Body

/-- From `pre` a piece falls through into `through` or leaves into `out`. -/
def Triple (pre : σ → Prop) (m : Body σ ρ α) (through : α → σ → Prop) (out : ρ → σ → Prop) :
    Prop :=
  ∀ s, pre s →
    (∀ a s', m s = (.ok a, s') → through a s') ∧ ∀ r s', m s = (.error r, s') → out r s'

namespace Triple

variable {pre : σ → Prop} {out : ρ → σ → Prop}

theorem pure {through : α → σ → Prop} {a : α} (holds : ∀ s, pre s → through a s) :
    Triple pre (Pure.pure a) through out := by
  intro s start
  refine ⟨?_, ?_⟩
  · rintro _ _ ⟨⟩
    exact holds s start
  · rintro _ _ ⟨⟩

theorem exit {through : α → σ → Prop} {r : ρ} (holds : ∀ s, pre s → out r s) :
    Triple pre (Body.exit r) through out := by
  intro s start
  refine ⟨?_, ?_⟩
  · rintro _ _ ⟨⟩
  · rintro _ _ ⟨⟩
    exact holds s start

theorem assign {through : PUnit → σ → Prop} {f : σ → σ} (holds : ∀ s, pre s → through ⟨⟩ (f s)) :
    Triple pre (Body.assign f) through out := by
  intro s start
  refine ⟨?_, ?_⟩
  · rintro _ _ ⟨⟩
    exact holds s start
  · rintro _ _ ⟨⟩

theorem bind {middle : α → σ → Prop} {through : β → σ → Prop} {m : Body σ ρ α}
    {next : α → Body σ ρ β} (first : Triple pre m middle out)
    (second : ∀ a, Triple (middle a) (next a) through out) :
    Triple pre (m >>= next) through out := by
  intro s start
  have step : (m >>= next) s = Body.andThen m next s := rfl
  obtain ⟨fell, left⟩ := first s start
  rw [step]
  unfold andThen
  rcases ran : m s with ⟨r | a, s'⟩
  · refine ⟨?_, ?_⟩
    · rintro _ _ ⟨⟩
    · rintro _ _ ⟨⟩
      exact left r s' ran
  · exact second a s' (fell a s' ran)

theorem onlyIf {c : Prop} [Decidable c] {m : Body σ ρ PUnit} {through : PUnit → σ → Prop}
    (taken : c → Triple pre m through out) (skipped : ¬c → ∀ s, pre s → through ⟨⟩ s) :
    Triple pre (Body.onlyIf c m) through out := by
  unfold Body.onlyIf
  split
  · rename_i holds
    exact taken holds
  · rename_i fails
    exact Triple.pure (skipped fails)

/-- A guard clause: where its condition holds the function is left, so the rest may assume
that it does not. -/
theorem guarded {c : Prop} [Decidable c] {m : Body σ ρ PUnit} {next : PUnit → Body σ ρ α}
    {through : α → σ → Prop} (leaves : c → Triple pre m (fun _ _ => False) out)
    (goes : ¬c → Triple pre (next ⟨⟩) through out) :
    Triple pre (Body.onlyIf c m >>= next) through out := by
  by_cases holds : c
  · refine bind (onlyIf leaves fun fails => absurd holds fails) fun _ s impossible => ?_
    exact impossible.elim
  · have skipped : Triple pre (Body.onlyIf c m) (fun _ => pre) out :=
      onlyIf (fun taken => absurd taken holds) fun _ _ start => start
    exact skipped.bind fun _ => goes holds

theorem deferring {last : σ → σ} {m : Body σ ρ α} {through through' : α → σ → Prop}
    {out' : ρ → σ → Prop} (body : Triple pre m through out)
    (fell : ∀ a s, through a s → through' a (last s)) (left : ∀ r s, out r s → out' r (last s)) :
    Triple pre (Body.deferring last m) through' out' := by
  intro s start
  obtain ⟨through_of, out_of⟩ := body s start
  refine ⟨?_, ?_⟩
  · rintro a s' ran
    obtain ⟨result, rfl⟩ := Prod.mk.injEq .. ▸ ran
    exact fell a _ (through_of a _ (Prod.ext result rfl))
  · rintro r s' ran
    obtain ⟨result, rfl⟩ := Prod.mk.injEq .. ▸ ran
    exact left r _ (out_of r _ (Prod.ext result rfl))

/-- A fact that does not depend on the variables is taken out of the assertion. -/
theorem assuming {fact : Prop} {m : Body σ ρ α} {through : α → σ → Prop}
    (body : fact → Triple pre m through out) :
    Triple (fun s => fact ∧ pre s) m through out := by
  rintro s ⟨holds, start⟩
  exact body holds s start

/-- A fact about the value of the first piece is available in the second. -/
theorem bind_assuming {fact : α → Prop} {middle : α → σ → Prop} {through : β → σ → Prop}
    {m : Body σ ρ α} {next : α → Body σ ρ β}
    (first : Triple pre m (fun a s => fact a ∧ middle a s) out)
    (second : ∀ a, fact a → Triple (middle a) (next a) through out) :
    Triple pre (m >>= next) through out :=
  first.bind fun a => assuming (second a)

theorem weaken {pre' : σ → Prop} {through through' : α → σ → Prop} {out' : ρ → σ → Prop}
    {m : Body σ ρ α} (body : Triple pre m through out) (before : ∀ s, pre' s → pre s)
    (fell : ∀ a s, through a s → through' a s) (left : ∀ r s, out r s → out' r s) :
    Triple pre' m through' out' := by
  intro s start
  obtain ⟨through_of, out_of⟩ := body s (before s start)
  exact ⟨fun a s' ran => fell a s' (through_of a s' ran),
    fun r s' ran => left r s' (out_of r s' ran)⟩

/-- A function whose two ways out meet one assertion meets it. -/
theorem finish {m : Body σ ρ ρ} (body : Triple pre m out out) {s : σ} (start : pre s) :
    out (Body.finish m s).1 (Body.finish m s).2 := by
  obtain ⟨fell, left⟩ := body s start
  unfold Body.finish
  rcases ran : m s with ⟨r | r, s'⟩
  · exact left r s' ran
  · exact fell r s' ran

end Triple

end EarlyReturns
