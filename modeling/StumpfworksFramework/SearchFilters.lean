import StumpfworksFramework.HexText

/-!
# Search filters of a directory

A search filter is a tree of conjunctions, disjunctions and negations over items;
an item compares an attribute with a value or names a matching rule. Its text is
written with parentheses, the operator in front. In a value the octets that have
a meaning there are escaped as a backslash and two hexadecimal digits.

An item is true, false or undefined for an entry, and the connectives follow
Kleene's tables. A search returns the entries for which the filter is true.
-/

namespace SearchFilters

open ByteStrings HexText UrlReferences

/-! ## Filters and their meaning -/

inductive Item where
  | equality (attr value : Bytes)
  | present (attr : Bytes)
  /-- what stands around the asterisks, in order -/
  | substrings (attr : Bytes) (pieces : List Bytes)
  | approximate (attr value : Bytes)
  | greaterOrEqual (attr value : Bytes)
  | lessOrEqual (attr value : Bytes)
  | extensible (attr rule : Bytes) (withDN : Bool) (value : Bytes)
  deriving DecidableEq, Repr

mutual

inductive Filter where
  | item (i : Item)
  | all (set : Filters)
  | any (set : Filters)
  | negation (f : Filter)

inductive Filters where
  | nil
  | cons (first : Filter) (rest : Filters)

end

/-- Conjunction of truth values, of which `none` is undefined. -/
def both : Option Bool → Option Bool → Option Bool
  | some true, b => b
  | some false, _ => some false
  | none, some false => some false
  | none, _ => none

/-- Disjunction of truth values. -/
def either : Option Bool → Option Bool → Option Bool
  | some false, b => b
  | some true, _ => some true
  | none, some true => some true
  | none, _ => none

mutual

/-- The truth of a filter, from the truth of its items. -/
def Filter.evaluate (item : Item → Option Bool) : Filter → Option Bool
  | .item i => item i
  | .all set => set.every item
  | .any set => set.some item
  | .negation f => (f.evaluate item).map (!·)

def Filters.every (item : Item → Option Bool) : Filters → Option Bool
  | .nil => some true
  | .cons first rest => both (first.evaluate item) (rest.every item)

def Filters.some (item : Item → Option Bool) : Filters → Option Bool
  | .nil => some false
  | .cons first rest => either (first.evaluate item) (rest.some item)

end

theorem both_eq_true_iff {a b : Option Bool} :
    both a b = some true ↔ a = some true ∧ b = some true := by
  rcases a with _ | _ | _
  all_goals rcases b with _ | _ | _
  all_goals simp [both]

section Meaning

variable (item : Item → Option Bool)

theorem evaluate_item_iff (i : Item) :
    (Filter.item i).evaluate item = some true ↔ item i = some true := by
  rw [Filter.evaluate]

theorem evaluate_negation_iff (i : Item) :
    (Filter.negation (.item i)).evaluate item = some true ↔ item i = some false := by
  rw [Filter.evaluate, Filter.evaluate]
  rcases item i with _ | _ | _
  all_goals simp

theorem evaluate_all_cons_iff (first : Filter) (rest : Filters) :
    (Filter.all (.cons first rest)).evaluate item = some true ↔
      first.evaluate item = some true ∧ (Filter.all rest).evaluate item = some true := by
  rw [Filter.evaluate, Filters.every, both_eq_true_iff, Filter.evaluate]

theorem evaluate_all_nil : (Filter.all .nil).evaluate item = some true := by
  rw [Filter.evaluate, Filters.every]

end Meaning

/-! ## Reading the text -/

/-- Octets of an attribute description or of the name of a matching rule. -/
def isNameOctet (b : UInt8) : Bool :=
  (97 ≤ b ∧ b ≤ 122) ∨ (65 ≤ b ∧ b ≤ 90) ∨ (48 ≤ b ∧ b ≤ 57) ∨ b = 45 ∨ b = 46 ∨ b = 59

/-- One more octet in front of the first piece. -/
def extend (b : UInt8) : List Bytes × Bytes → List Bytes × Bytes
  | (first :: more, rest) => ((b :: first) :: more, rest)
  | ([], rest) => ([[b]], rest)

/-- An asserted value up to the closing parenthesis: the pieces around its asterisks, decoded,
and the text after the parenthesis. -/
def assertion : Bytes → Option (List Bytes × Bytes)
  | [] => none
  | b :: rest =>
    if b = 41 then some ([[]], rest)
    else if b = 92 then
      match rest with
      | high :: low :: rest =>
        if isHex high ∧ isHex low then (assertion rest).map (extend (unhex high * 16 + unhex low))
        else none
      | _ => none
    else if b = 42 then (assertion rest).map fun found => ([] :: found.1, found.2)
    else if b = 40 ∨ b = 0 then none
    else (assertion rest).map (extend b)

/-- A value without asterisks. -/
def value (text : Bytes) : Option (Bytes × Bytes) :=
  match assertion text with
  | some ([v], rest) => some (v, rest)
  | _ => none

/-- The item of an attribute and `=` followed by a value. -/
def comparison (attr : Bytes) : List Bytes → Item
  | [v] => .equality attr v
  | [[], []] => .present attr
  | pieces => .substrings attr pieces

/-- The mark of a match over the distinguished name, if it stands there. -/
def takeDN : Bytes → Bool × Bytes
  | 100 :: 110 :: 58 :: rest => (true, rest)
  | text => (false, text)

/-- The rule of an extensible match, which may be missing if there is an attribute, and its
value. -/
def readRule (attr : Bytes) (withDN : Bool) (text : Bytes) : Option (Item × Bytes) :=
  if text.head? = some 61 then
    if attr = [] then none
    else (value text.tail).map fun found => (.extensible attr [] withDN found.1, found.2)
  else if text.takeWhile isNameOctet = [] then none
  else
    match text.dropWhile isNameOctet with
    | 58 :: 61 :: rest => (value rest).map fun found =>
        (.extensible attr (text.takeWhile isNameOctet) withDN found.1, found.2)
    | _ => none

/-- What follows the attribute of an extensible match and a colon. -/
def readExtensible (attr text : Bytes) : Option (Item × Bytes) :=
  readRule attr (takeDN text).1 (takeDN text).2

/-- An item up to its closing parenthesis. -/
def readItem (text : Bytes) : Option (Item × Bytes) :=
  match text.takeWhile isNameOctet, text.dropWhile isNameOctet with
  | attr, 58 :: rest => readExtensible attr rest
  | [], _ => none
  | attr, 61 :: rest =>
    (assertion rest).map fun found => (comparison attr found.1, found.2)
  | attr, 126 :: 61 :: rest =>
    (value rest).map fun found => (.approximate attr found.1, found.2)
  | attr, 62 :: 61 :: rest =>
    (value rest).map fun found => (.greaterOrEqual attr found.1, found.2)
  | attr, 60 :: 61 :: rest =>
    (value rest).map fun found => (.lessOrEqual attr found.1, found.2)
  | _, _ => none

/-- The text behind a closing parenthesis. -/
def closed {α : Type} : Option (α × Bytes) → Option (α × Bytes)
  | some (a, 41 :: rest) => some (a, rest)
  | _ => none

mutual

/-- A filter with its parentheses at the start of a text, and the text after it. -/
def readFilter : Nat → Bytes → Option (Filter × Bytes)
  | 0, _ => none
  | fuel + 1, text =>
    match text with
    | 40 :: b :: rest =>
      if b = 38 then (closed (readFilters fuel rest)).map fun found => (.all found.1, found.2)
      else if b = 124 then (closed (readFilters fuel rest)).map fun found => (.any found.1, found.2)
      else if b = 33 then
        (closed (readFilter fuel rest)).map fun found => (.negation found.1, found.2)
      else (readItem (b :: rest)).map fun found => (.item found.1, found.2)
    | _ => none

/-- Filters in a row, as many as there are. -/
def readFilters : Nat → Bytes → Option (Filters × Bytes)
  | 0, _ => none
  | fuel + 1, text =>
    if text.head? = some 40 then
      match readFilter fuel text with
      | none => none
      | some (first, rest) =>
        (readFilters fuel rest).map fun found => (Filters.cons first found.1, found.2)
    else some (Filters.nil, text)

end

/-- A text that is one filter. Nesting is no deeper than the text is long. -/
def read (text : Bytes) : Option Filter :=
  match readFilter (text.length + 1) text with
  | some (f, []) => some f
  | _ => none

/-! ## Writing values -/

/-- Octets with a meaning in a value, and those outside ASCII. -/
def mustEscape (b : UInt8) : Bool := b > 0x7f ∨ b = 40 ∨ b = 41 ∨ b = 92 ∨ b = 42 ∨ b = 0

def escape : Bytes → Bytes
  | [] => []
  | b :: rest => if mustEscape b = true then 92 :: lowerOctet b (escape rest) else b :: escape rest

/-- An escaped value is read as that value, and it ends where it was ended. -/
theorem assertion_escape (v rest : Bytes) :
    assertion (escape v ++ 41 :: rest) = some ([v], rest) := by
  induction v with
  | nil =>
    rw [escape, List.nil_append, assertion.eq_def]
    exact if_pos rfl
  | cons b v ih =>
    rw [escape]
    split
    · have digits := isHex_lowerOctet b
      simp only [lowerOctet, List.cons_append]
      rw [assertion]
      simp only [show (92 : UInt8) ≠ 41 by decide, if_false, if_true, digits.1, digits.2, and_self,
        ih, Option.map_some, extend, unhex_lowerOctet]
    · rename_i plain
      simp only [mustEscape, Bool.decide_or, Bool.or_eq_true, decide_eq_true_eq, not_or] at plain
      obtain ⟨_, opening, closing, backslash, asterisk, zero⟩ := plain
      rw [List.cons_append, assertion.eq_def]
      simp only [closing, backslash, asterisk, opening, zero, if_false, or_self, ih,
        Option.map_some, extend]

theorem value_escape (v rest : Bytes) : value (escape v ++ 41 :: rest) = some (v, rest) := by
  rw [value, assertion_escape]

/-! ## Reading what was written -/

section Rules

variable {attr rule v rest : Bytes}

theorem takeWhile_name {name : Bytes} (octets : name.all isNameOctet = true) {b : UInt8}
    (ends : isNameOctet b = false) (rest : Bytes) :
    (name ++ b :: rest).takeWhile isNameOctet = name ∧
      (name ++ b :: rest).dropWhile isNameOctet = b :: rest := by
  have all : ∀ a ∈ name, isNameOctet a = true := List.all_eq_true.mp octets
  rw [List.takeWhile_append_of_pos all, List.dropWhile_append_of_pos all]
  simp [ends]

/-- The text of an equality, whatever its value. -/
theorem readItem_equality (octets : attr.all isNameOctet = true) (named : attr ≠ [])
    (v rest : Bytes) :
    readItem (attr ++ 61 :: (escape v ++ 41 :: rest)) = some (.equality attr v, rest) := by
  obtain ⟨name, after⟩ := takeWhile_name octets (b := 61) (by decide) (escape v ++ 41 :: rest)
  obtain ⟨b, tail, rfl⟩ := List.exists_cons_of_ne_nil named
  rw [readItem, name, after]
  simp only [assertion_escape, Option.map_some, comparison]

/-- The text of an extensible match with a rule. -/
theorem readItem_extensible (octets : attr.all isNameOctet = true)
    (ruled : rule.all isNameOctet = true) (first : ∃ b more, rule = b :: more ∧ b ≠ 100)
    (v rest : Bytes) :
    readItem (attr ++ 58 :: (rule ++ 58 :: 61 :: (escape v ++ 41 :: rest))) =
      some (.extensible attr rule false v, rest) := by
  obtain ⟨b, more, rfl, other⟩ := first
  obtain ⟨name, after⟩ := takeWhile_name octets (b := 58) (by decide)
    (b :: more ++ 58 :: 61 :: (escape v ++ 41 :: rest))
  obtain ⟨name', after'⟩ := takeWhile_name ruled (b := 58) (by decide)
    (61 :: (escape v ++ 41 :: rest))
  have unmarked : ∀ text, takeDN (b :: text) = (false, b :: text) := by
    intro text
    rw [takeDN]
    rintro _ ⟨⟩
    exact other rfl
  have unequal : (b :: more ++ 58 :: 61 :: (escape v ++ 41 :: rest)).head? ≠ some 61 := by
    rintro ⟨⟩
    simp [isNameOctet] at ruled
  rw [readItem, name, after]
  change readRule attr (takeDN (b :: _)).1 (takeDN (b :: _)).2 = _
  rw [unmarked]
  change readRule attr false (b :: more ++ 58 :: 61 :: (escape v ++ 41 :: rest)) = _
  rw [readRule, if_neg unequal, name', if_neg (List.cons_ne_nil _ _), after']
  simp only [value_escape, Option.map_some]

/-- A filter that is an item with an attribute. -/
theorem readFilter_item {i : Item} {text : Bytes} (octets : attr.all isNameOctet = true)
    (named : attr ≠ []) (item : readItem (attr ++ text) = some (i, rest)) (fuel : Nat) :
    readFilter (fuel + 1) (40 :: (attr ++ text)) = some (.item i, rest) := by
  obtain ⟨first, more, rfl⟩ := List.exists_cons_of_ne_nil named
  have name : isNameOctet first = true := List.all_eq_true.mp octets first List.mem_cons_self
  have plain : first ≠ 38 ∧ first ≠ 124 ∧ first ≠ 33 := by
    refine ⟨?_, ?_, ?_⟩
    all_goals
      rintro rfl
      simp [isNameOctet] at name
  rw [List.cons_append] at item ⊢
  rw [readFilter]
  simp only [if_neg plain.1, if_neg plain.2.1, if_neg plain.2.2, item, Option.map_some]

theorem readFilter_negation {f : Filter} {text : Bytes} {fuel : Nat}
    (inner : readFilter fuel text = some (f, 41 :: rest)) :
    readFilter (fuel + 1) (40 :: 33 :: text) = some (.negation f, rest) := by
  rw [readFilter]
  simp only [show (33 : UInt8) ≠ 38 by decide, show (33 : UInt8) ≠ 124 by decide, if_false, if_true,
    inner, closed, Option.map_some]

theorem readFilter_all {set : Filters} {text : Bytes} {fuel : Nat}
    (inner : readFilters fuel text = some (set, 41 :: rest)) :
    readFilter (fuel + 1) (40 :: 38 :: text) = some (.all set, rest) := by
  rw [readFilter]
  simp only [if_true, inner, closed, Option.map_some]

theorem readFilters_cons {f : Filter} {set : Filters} {text after : Bytes} {fuel : Nat}
    (head : readFilter fuel (40 :: text) = some (f, after))
    (tail : readFilters fuel after = some (set, rest)) :
    readFilters (fuel + 1) (40 :: text) = some (.cons f set, rest) := by
  rw [readFilters, List.head?_cons, if_pos rfl, head]
  simp only [tail, Option.map_some]

theorem readFilters_nil (rest : Bytes) (fuel : Nat) :
    readFilters (fuel + 1) (41 :: rest) = some (.nil, 41 :: rest) := by
  rw [readFilters, List.head?_cons, if_neg (by decide)]

theorem read_of_readFilter {f : Filter} {text : Bytes}
    (whole : readFilter (text.length + 1) text = some (f, [])) : read text = some f := by
  rw [read, whole]

end Rules

end SearchFilters
