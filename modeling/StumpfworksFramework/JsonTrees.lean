import StumpfworksFramework.ByteStrings

/-!
# JSON texts as trees

A JSON text is given by its syntax tree. The members of an object keep their
order and may repeat a name, as the text may. Most decoders read an object into
a map, in which the last of the members with one name remains; whatever stands
below the others is then in the text and not in the value.
-/

namespace JsonTrees

open ByteStrings

mutual

inductive Json where
  | scalar (literal : Bytes)
  | array (items : Items)
  | object (members : Members)

inductive Items where
  | nil
  | cons (first : Json) (rest : Items)

inductive Members where
  | nil
  | cons (name : Bytes) (value : Json) (rest : Members)

end

def Items.ofList : List Json → Items
  | [] => .nil
  | first :: rest => .cons first (Items.ofList rest)

def Members.ofList : List (Bytes × Json) → Members
  | [] => .nil
  | (name, value) :: rest => .cons name value (Members.ofList rest)

/-! ## The text -/

mutual

/-- The compact text; names stand as they are between their quotes. -/
def Json.render : Json → Bytes
  | .scalar literal => literal
  | .array items => 91 :: items.render ++ [93]
  | .object members => 123 :: members.render ++ [125]

def Items.render : Items → Bytes
  | .nil => []
  | .cons first .nil => first.render
  | .cons first (.cons second rest) => first.render ++ 44 :: Items.render (.cons second rest)

def Members.render : Members → Bytes
  | .nil => []
  | .cons name value .nil => 34 :: name ++ [34, 58] ++ value.render
  | .cons name value (.cons name' value' rest) =>
    34 :: name ++ [34, 58] ++ value.render ++ 44 :: Members.render (.cons name' value' rest)

end

mutual

/-- The tree with every name replaced by what it denotes. -/
def Json.denote (unquote : Bytes → Bytes) : Json → Json
  | .scalar literal => .scalar literal
  | .array items => .array (items.denote unquote)
  | .object members => .object (members.denote unquote)

def Items.denote (unquote : Bytes → Bytes) : Items → Items
  | .nil => .nil
  | .cons first rest => .cons (first.denote unquote) (rest.denote unquote)

def Members.denote (unquote : Bytes → Bytes) : Members → Members
  | .nil => .nil
  | .cons name value rest => .cons (unquote name) (value.denote unquote) (rest.denote unquote)

end

mutual

/-- Every scalar of the text passes the test. -/
def Json.scalars (test : Bytes → Bool) : Json → Bool
  | .scalar literal => test literal
  | .array items => items.scalars test
  | .object members => members.scalars test

def Items.scalars (test : Bytes → Bool) : Items → Bool
  | .nil => true
  | .cons first rest => first.scalars test && rest.scalars test

def Members.scalars (test : Bytes → Bool) : Members → Bool
  | .nil => true
  | .cons _ value rest => value.scalars test && rest.scalars test

end

/-! ## Names and repeated members -/

mutual

/-- Every member name, at any depth and counting each occurrence. -/
def Json.names : Json → List Bytes
  | .scalar _ => []
  | .array items => items.names
  | .object members => members.names

def Items.names : Items → List Bytes
  | .nil => []
  | .cons first rest => first.names ++ rest.names

def Members.names : Members → List Bytes
  | .nil => []
  | .cons name value rest => name :: (value.names ++ rest.names)

end

/-- The names of the members themselves. -/
def Members.own : Members → List Bytes
  | .nil => []
  | .cons name _ rest => name :: rest.own

mutual

/-- What a decoder into maps makes of the text. -/
def Json.lastWins : Json → Json
  | .scalar literal => .scalar literal
  | .array items => .array items.lastWins
  | .object members => .object members.lastWins

def Items.lastWins : Items → Items
  | .nil => .nil
  | .cons first rest => .cons first.lastWins rest.lastWins

def Members.lastWins : Members → Members
  | .nil => .nil
  | .cons name value rest =>
    if name ∈ rest.own then rest.lastWins else .cons name value.lastWins rest.lastWins

end

mutual

/-- The names below members that a later one of the same name replaces. -/
def Json.hidden : Json → List Bytes
  | .scalar _ => []
  | .array items => items.hidden
  | .object members => members.hidden

def Items.hidden : Items → List Bytes
  | .nil => []
  | .cons first rest => first.hidden ++ rest.hidden

def Members.hidden : Members → List Bytes
  | .nil => []
  | .cons name value rest =>
    (if name ∈ rest.own then value.names else value.hidden) ++ rest.hidden

end

section Names

variable {n : Bytes}

theorem Members.own_subset_names {members : Members} (mem : n ∈ members.own) :
    n ∈ members.names := by
  match members with
  | .nil => exact mem
  | .cons name value rest =>
    rcases List.mem_cons.mp mem with rfl | below
    · exact List.mem_cons_self
    · exact List.mem_cons_of_mem _ (List.mem_append_right _ (Members.own_subset_names below))

/-- Every name of an object survives, though not every member. -/
theorem Members.own_lastWins {members : Members} (mem : n ∈ members.own) :
    n ∈ members.lastWins.own := by
  match members with
  | .nil => exact mem
  | .cons name value rest =>
    rw [Members.lastWins]
    split
    · rename_i again
      rcases List.mem_cons.mp mem with rfl | below
      · exact Members.own_lastWins again
      · exact Members.own_lastWins below
    · rcases List.mem_cons.mp mem with rfl | below
      · exact List.mem_cons_self
      · exact List.mem_cons_of_mem _ (Members.own_lastWins below)

mutual

/-- The text has the names of its value and those that are hidden, and no others. -/
theorem Json.mem_names_iff : (t : Json) → (n ∈ t.names ↔ n ∈ t.lastWins.names ∨ n ∈ t.hidden)
  | .scalar literal => by simp [Json.names, Json.lastWins, Json.hidden]
  | .array items => by
    simp only [Json.names, Json.lastWins, Json.hidden]
    exact items.mem_names_iff
  | .object members => by
    simp only [Json.names, Json.lastWins, Json.hidden]
    exact members.mem_names_iff

theorem Items.mem_names_iff :
    (items : Items) → (n ∈ items.names ↔ n ∈ items.lastWins.names ∨ n ∈ items.hidden)
  | .nil => by simp [Items.names, Items.lastWins, Items.hidden]
  | .cons first rest => by
    simp only [Items.names, Items.lastWins, Items.hidden, List.mem_append, first.mem_names_iff,
      rest.mem_names_iff]
    tauto

theorem Members.mem_names_iff :
    (members : Members) → (n ∈ members.names ↔ n ∈ members.lastWins.names ∨ n ∈ members.hidden)
  | .nil => by simp [Members.names, Members.lastWins, Members.hidden]
  | .cons name value rest => by
    rw [Members.lastWins, Members.hidden]
    split
    · rename_i again
      have kept : name ∈ rest.lastWins.names :=
        Members.own_subset_names (Members.own_lastWins again)
      simp only [Members.names, List.mem_cons, List.mem_append, rest.mem_names_iff]
      constructor
      · rintro (rfl | below | after | after)
        · exact Or.inl kept
        · exact Or.inr (Or.inl below)
        · exact Or.inl after
        · exact Or.inr (Or.inr after)
      · rintro (after | below | after)
        · exact Or.inr (Or.inr (Or.inl after))
        · exact Or.inr (Or.inl below)
        · exact Or.inr (Or.inr (Or.inr after))
    · simp only [Members.names, List.mem_cons, List.mem_append, value.mem_names_iff,
        rest.mem_names_iff]
      tauto

end

end Names

/-! ## Values inside a value -/

def Items.toList : Items → List Json
  | .nil => []
  | .cons first rest => first :: rest.toList

def Members.toList : Members → List (Bytes × Json)
  | .nil => []
  | .cons name value rest => (name, value) :: rest.toList

/-- `Inside v k w`: the value `w` stands `k` containers below `v`. -/
inductive Inside : Json → Nat → Json → Prop where
  | here (v : Json) : Inside v 0 v
  | item {items : Items} {child w : Json} {k : Nat} (mem : child ∈ items.toList)
      (below : Inside child k w) : Inside (.array items) (k + 1) w
  | member {members : Members} {name : Bytes} {child w : Json} {k : Nat}
      (mem : (name, child) ∈ members.toList) (below : Inside child k w) :
      Inside (.object members) (k + 1) w

/-- A property of every value at its distance is one of the value itself and of what is inside
its children. -/
theorem forall_inside_scalar {P : Nat → Json → Prop} {literal : Bytes} :
    (∀ k w, Inside (.scalar literal) k w → P k w) ↔ P 0 (.scalar literal) := by
  constructor
  · intro all
    exact all 0 _ (.here _)
  · intro own k w inside
    cases inside with
    | here => exact own

theorem forall_inside_array {P : Nat → Json → Prop} {items : Items} :
    (∀ k w, Inside (.array items) k w → P k w) ↔
      P 0 (.array items) ∧ ∀ child ∈ items.toList, ∀ k w, Inside child k w → P (k + 1) w := by
  constructor
  · intro all
    exact ⟨all 0 _ (.here _), fun child mem k w below => all _ w (.item mem below)⟩
  · rintro ⟨own, children⟩ k w inside
    cases inside with
    | here => exact own
    | item mem below => exact children _ mem _ w below

theorem forall_inside_object {P : Nat → Json → Prop} {members : Members} :
    (∀ k w, Inside (.object members) k w → P k w) ↔
      P 0 (.object members) ∧
        ∀ e ∈ members.toList, ∀ k w, Inside e.2 k w → P (k + 1) w := by
  constructor
  · intro all
    exact ⟨all 0 _ (.here _), fun e mem k w below => all _ w (.member mem below)⟩
  · rintro ⟨own, children⟩ k w inside
    cases inside with
    | here => exact own
    | member mem below => exact children _ mem _ w below

end JsonTrees
