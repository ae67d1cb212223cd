import StumpfworksFramework.AuditMetadata

/-!
# The inspection of audit metadata

`inspectMetadata` stops at the first value that lies too deep and at the first
sensitive key, in the order in which it meets them; the members of a map are
visited in an order that changes from one run to the next. Which error is
returned depends on that order. Whether one is returned does not: a value is
accepted if and only if nothing inside it is too deep and no key is sensitive.
-/

namespace MetadataInspection

open ByteStrings JsonTrees SensitiveKeys AuditMetadata

variable {c : Codec}

/-! ## Every order of visiting -/

mutual

/-- The results that an inspection can have, each map visited in an order of its own. -/
inductive Inspects (c : Codec) : Json → Nat → Except String Unit → Prop where
  | deep {value : Json} {depth : Nat} (below : depth > 16) :
      Inspects c value depth (.error "audit metadata is nested too deeply")
  | scalar {literal : Bytes} {depth : Nat} (within : depth ≤ 16) :
      Inspects c (.scalar literal) depth (.ok ())
  | array {items : Items} {depth : Nat} {result : Except String Unit} (within : depth ≤ 16)
      (visit : InspectsItems c items.toList depth result) : Inspects c (.array items) depth result
  | object {members : Members} {order : List (Bytes × Json)} {depth : Nat}
      {result : Except String Unit} (within : depth ≤ 16) (perm : order.Perm members.toList)
      (visit : InspectsMembers c order depth result) : Inspects c (.object members) depth result

inductive InspectsItems (c : Codec) : List Json → Nat → Except String Unit → Prop where
  | nil {depth : Nat} : InspectsItems c [] depth (.ok ())
  | stop {first : Json} {rest : List Json} {depth : Nat} {e : String}
      (failed : Inspects c first (depth + 1) (.error e)) :
      InspectsItems c (first :: rest) depth (.error e)
  | next {first : Json} {rest : List Json} {depth : Nat} {result : Except String Unit}
      (passed : Inspects c first (depth + 1) (.ok ())) (after : InspectsItems c rest depth result) :
      InspectsItems c (first :: rest) depth result

inductive InspectsMembers (c : Codec) : List (Bytes × Json) → Nat → Except String Unit → Prop where
  | nil {depth : Nat} : InspectsMembers c [] depth (.ok ())
  | sensitive {key : Bytes} {child : Json} {rest : List (Bytes × Json)} {depth : Nat}
      (bad : isSensitiveKey c.toLower key = true) :
      InspectsMembers c ((key, child) :: rest) depth
        (.error "audit metadata contains a sensitive field")
  | stop {key : Bytes} {child : Json} {rest : List (Bytes × Json)} {depth : Nat} {e : String}
      (harmless : isSensitiveKey c.toLower key = false)
      (failed : Inspects c child (depth + 1) (.error e)) :
      InspectsMembers c ((key, child) :: rest) depth (.error e)
  | next {key : Bytes} {child : Json} {rest : List (Bytes × Json)} {depth : Nat}
      {result : Except String Unit} (harmless : isSensitiveKey c.toLower key = false)
      (passed : Inspects c child (depth + 1) (.ok ()))
      (after : InspectsMembers c rest depth result) :
      InspectsMembers c ((key, child) :: rest) depth result

end

mutual

/-- The embedding of the source visits maps in the order of their entries. -/
theorem inspects_inspectMetadata : (value : Json) → (depth : Nat) →
    Inspects c value depth (inspectMetadata c value depth)
  | .scalar literal, depth => by
    rw [inspectMetadata]
    split
    · exact .deep ‹_›
    · exact .scalar (Nat.not_lt.mp ‹_›)
  | .array items, depth => by
    rw [inspectMetadata]
    split
    · exact .deep ‹_›
    · exact .array (Nat.not_lt.mp ‹_›) (inspectsItems_inspectItems items depth)
  | .object members, depth => by
    rw [inspectMetadata]
    split
    · exact .deep ‹_›
    · exact .object (Nat.not_lt.mp ‹_›) (List.Perm.refl _)
        (inspectsMembers_inspectMembers members depth)

theorem inspectsItems_inspectItems : (items : Items) → (depth : Nat) →
    InspectsItems c items.toList depth (inspectItems c items depth)
  | .nil, depth => by
    rw [inspectItems]
    exact .nil
  | .cons first rest, depth => by
    have inspected := inspects_inspectMetadata first (depth + 1)
    rw [inspectItems]
    split
    · rename_i failed
      rw [failed] at inspected
      exact .stop inspected
    · rename_i passed
      rw [passed] at inspected
      exact .next inspected (inspectsItems_inspectItems rest depth)

theorem inspectsMembers_inspectMembers : (members : Members) → (depth : Nat) →
    InspectsMembers c members.toList depth (inspectMembers c members depth)
  | .nil, depth => by
    rw [inspectMembers]
    exact .nil
  | .cons key child rest, depth => by
    have inspected := inspects_inspectMetadata child (depth + 1)
    rw [inspectMembers]
    split
    · exact .sensitive ‹_›
    · have harmless := Bool.eq_false_of_not_eq_true ‹_›
      split
      · rename_i failed
        rw [failed] at inspected
        exact .stop harmless inspected
      · rename_i passed
        rw [passed] at inspected
        exact .next harmless inspected (inspectsMembers_inspectMembers rest depth)

end

/-! ## The verdict -/

/-- No object that the value is has a sensitive key. -/
def Harmless (c : Codec) : Json → Prop
  | .object members => ∀ e ∈ members.toList, isSensitiveKey c.toLower e.1 = false
  | _ => True

/-- Nothing inside lies too deep, counted from the depth of the value, and no key inside is
sensitive. -/
def Acceptable (c : Codec) (value : Json) (depth : Nat) : Prop :=
  ∀ k w, Inside value k w → depth + k ≤ 16 ∧ Harmless c w

theorem acceptable_succ {value : Json} {depth : Nat} :
    Acceptable c value (depth + 1) ↔
      ∀ k w, Inside value k w → depth + (k + 1) ≤ 16 ∧ Harmless c w := by
  have sum : ∀ k, depth + 1 + k = depth + (k + 1) := fun k => by omega
  simp only [Acceptable, sum]

theorem acceptable_scalar {literal : Bytes} {depth : Nat} :
    Acceptable c (.scalar literal) depth ↔ depth ≤ 16 := by
  rw [Acceptable, forall_inside_scalar]
  simp [Harmless]

theorem acceptable_array {items : Items} {depth : Nat} :
    Acceptable c (.array items) depth ↔
      depth ≤ 16 ∧ ∀ child ∈ items.toList, Acceptable c child (depth + 1) := by
  rw [Acceptable, forall_inside_array]
  simp only [acceptable_succ, Harmless, Nat.add_zero, and_true]

theorem acceptable_object {members : Members} {depth : Nat} :
    Acceptable c (.object members) depth ↔
      depth ≤ 16 ∧ ∀ e ∈ members.toList,
        isSensitiveKey c.toLower e.1 = false ∧ Acceptable c e.2 (depth + 1) := by
  rw [Acceptable, forall_inside_object]
  simp only [acceptable_succ, Harmless, Nat.add_zero]
  constructor
  · rintro ⟨⟨within, harmless⟩, below⟩
    exact ⟨within, fun e mem => ⟨harmless e mem, below e mem⟩⟩
  · rintro ⟨within, each⟩
    exact ⟨⟨within, fun e mem => (each e mem).1⟩, fun e mem => (each e mem).2⟩

mutual

/-- By induction on the run: whatever the order, it ends without an error if and only if the
value is acceptable. -/
theorem Inspects.ok_iff : {value : Json} → {depth : Nat} → {result : Except String Unit} →
    Inspects c value depth result → (result = .ok () ↔ Acceptable c value depth)
  | value, depth, _, .deep below => by
    simp only [reduceCtorEq, false_iff]
    intro acceptable
    have within := (acceptable 0 value (.here value)).1
    omega
  | _, _, _, .scalar within => by
    rw [acceptable_scalar]
    simp [within]
  | _, _, _, .array within visit => by
    rw [acceptable_array, visit.ok_iff]
    simp [within]
  | _, _, _, .object within perm visit => by
    rw [acceptable_object, visit.ok_iff]
    simp [within, perm.mem_iff]

theorem InspectsItems.ok_iff : {items : List Json} → {depth : Nat} →
    {result : Except String Unit} → InspectsItems c items depth result →
    (result = .ok () ↔ ∀ child ∈ items, Acceptable c child (depth + 1))
  | _, _, _, .nil => by simp
  | _, _, _, .stop failed => by
    have refused := failed.ok_iff
    simp only [reduceCtorEq, false_iff] at refused ⊢
    intro all
    exact refused (all _ List.mem_cons_self)
  | _, _, _, .next passed after => by
    rw [after.ok_iff, List.forall_mem_cons]
    exact (and_iff_right (passed.ok_iff.mp rfl)).symm

theorem InspectsMembers.ok_iff : {members : List (Bytes × Json)} → {depth : Nat} →
    {result : Except String Unit} → InspectsMembers c members depth result →
    (result = .ok () ↔ ∀ e ∈ members,
      isSensitiveKey c.toLower e.1 = false ∧ Acceptable c e.2 (depth + 1))
  | _, _, _, .nil => by simp
  | _, _, _, .sensitive bad => by
    simp only [reduceCtorEq, false_iff]
    intro all
    have harmless := (all _ List.mem_cons_self).1
    rw [bad] at harmless
    cases harmless
  | _, _, _, .stop harmless failed => by
    have refused := failed.ok_iff
    simp only [reduceCtorEq, false_iff] at refused ⊢
    intro all
    exact refused (all _ List.mem_cons_self).2
  | _, _, _, .next harmless passed after => by
    rw [after.ok_iff, List.forall_mem_cons]
    exact (and_iff_right ⟨harmless, passed.ok_iff.mp rfl⟩).symm

end

/-- A value is accepted if and only if nothing inside it lies more than 16 containers below it and
no key of an object inside it is sensitive, and every order of visiting comes to that verdict. -/
theorem inspection_exact (c : Codec) (value : Json) :
    (inspectMetadata c value 0 = .ok () ↔
      (∀ k w, Inside value k w → k ≤ 16) ∧
      ∀ k members, Inside value k (.object members) → ∀ key child, (key, child) ∈ members.toList →
        isSensitiveKey c.toLower key = false) ∧
    ∀ result, Inspects c value 0 result →
      (result = .ok () ↔ inspectMetadata c value 0 = .ok ()) := by
  have verdict := (inspects_inspectMetadata (c := c) value 0).ok_iff
  refine ⟨?_, fun result visit => visit.ok_iff.trans verdict.symm⟩
  rw [verdict]
  constructor
  · intro acceptable
    refine ⟨fun k w inside => ?_, fun k members inside key child mem => ?_⟩
    · have within := (acceptable k w inside).1
      omega
    · exact (acceptable k _ inside).2 (key, child) mem
  · rintro ⟨within, harmless⟩ k w inside
    refine ⟨?_, ?_⟩
    · have bound := within k w inside
      omega
    · cases w with
      | scalar literal => trivial
      | array items => trivial
      | object members =>
        rintro ⟨key, child⟩ mem
        exact harmless k members inside key child mem

end MetadataInspection
