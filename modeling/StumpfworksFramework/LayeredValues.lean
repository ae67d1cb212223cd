import Mathlib.Logic.Function.Basic

/-!
# Values from layers

A value may be given by several layers, each of which may be silent, may give a
value, or may give something that does not parse. The first layer that speaks
decides, and a default stands in if none does. Layers may be applied one by one,
the lowest first, as long as the lower ones parse.
-/

namespace LayeredValues

universe u v w
variable {ε : Type u} {α : Type v} {β : Type w}

abbrev Layer (ε : Type u) (α : Type v) := Option (Except ε α)

def choose : List (Layer ε α) → α → Except ε α
  | [], default => .ok default
  | none :: rest, default => choose rest default
  | some given :: _, _ => given

/-- What the layer gives, if anything, parses. -/
def Layer.Parses (layer : Layer ε α) : Prop := ∀ e, layer ≠ some (.error e)

/-- Deciding between a layer and what the layers below it gave. -/
theorem choose_cons {layer : Layer ε α} {lower : List (Layer ε α)} {default value : α}
    (below : choose lower default = .ok value) :
    choose (layer :: lower) default = choose [layer] value := by
  cases layer with
  | none => exact below
  | some given => rfl

theorem choose_of_parses {layer : Layer ε α} (parses : layer.Parses) (default : α) :
    ∃ value, choose [layer] default = .ok value := by
  cases layer with
  | none => exact ⟨default, rfl⟩
  | some given =>
    cases given with
    | error e => exact absurd rfl (parses e)
    | ok value => exact ⟨value, rfl⟩

theorem parses_of_choose {layer : Layer ε α} {default value : α}
    (chosen : choose [layer] default = .ok value) : layer.Parses := by
  rintro e rfl
  cases chosen

/-- The same layer with its values seen as values of another type. -/
def Layer.map (f : α → β) (layer : Layer ε α) : Layer ε β :=
  Option.map (fun given => given.map f) layer

theorem choose_map (f : α → β) (layers : List (Layer ε α)) (default : α) :
    choose (layers.map (Layer.map f)) (f default) = (choose layers default).map f := by
  induction layers with
  | nil => rfl
  | cons layer rest ih =>
    cases layer with
    | none => exact ih
    | some given => rfl

theorem choose_map_ok {f : α → β} (injective : Function.Injective f) {layer : Layer ε α}
    {default value : α} : choose [layer.map f] (f default) = .ok (f value) ↔
      choose [layer] default = .ok value := by
  have mapped := choose_map f [layer] default
  rw [List.map_singleton] at mapped
  rw [mapped]
  cases choose [layer] default with
  | error e => simp [Except.map]
  | ok chosen => simp [Except.map, injective.eq_iff]

theorem Layer.parses_map {f : α → β} {layer : Layer ε α} :
    (layer.map f).Parses ↔ layer.Parses := by
  rcases layer with _ | (e | value)
  · simp [Layer.Parses, Layer.map]
  · simp [Layer.Parses, Layer.map, Except.map]
  · simp [Layer.Parses, Layer.map, Except.map]

/-! ## Steps that may fail -/

theorem bind_eq_ok {β : Type v} {x : Except ε α} {f : α → Except ε β} {value : β} :
    (x >>= f) = .ok value ↔ ∃ a, x = .ok a ∧ f a = .ok value := by
  cases x with
  | error e => simp [bind, Except.bind]
  | ok a => simp [bind, Except.bind]

theorem ite_error_eq_ok {p : Prop} [Decidable p] {e : ε} {rest : Except ε α} {value : α} :
    (if p then .error e else rest) = .ok value ↔ ¬ p ∧ rest = .ok value := by
  by_cases fails : p <;> simp [fails]

theorem mapError_eq_ok {ε' : Type u} {x : Except ε α} {f : ε → ε'} {value : α} :
    x.mapError f = .ok value ↔ x = .ok value := by
  cases x with
  | error e => constructor <;> intro same <;> cases same
  | ok a => constructor <;> intro same <;> cases same <;> rfl

end LayeredValues
