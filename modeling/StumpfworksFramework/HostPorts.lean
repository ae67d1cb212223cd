import StumpfworksFramework.UrlReferences

/-!
# Hosts with ports

The host of a URL may carry a port, and an address for a connection always does.
A host that contains colons stands in brackets. What was joined is split again as
it was, unless the host itself has brackets.
-/

namespace HostPorts

open ByteStrings UrlReferences

/-- A host without the brackets around it. -/
def unbracket : Bytes → Bytes
  | [] => []
  | b :: rest => if b = 91 ∧ rest.getLast? = some 93 then rest.dropLast else b :: rest

/-- The host of a URL, without brackets, and its port, which may be missing. -/
def splitUrlHost (host : Bytes) : Bytes × Bytes :=
  match cutLast 58 host with
  | none => (unbracket host, [])
  | some (before, after) =>
    if after.all isDigit = true then (unbracket before, after) else (unbracket host, [])

/-- `net.JoinHostPort`. -/
def joinHostPort (host port : Bytes) : Bytes :=
  if 58 ∈ host then 91 :: host ++ 93 :: 58 :: port else host ++ 58 :: port

/-- `net.SplitHostPort`: an address without a port, or with brackets or colons out of place, is
refused. -/
def splitHostPort (address : Bytes) : Option (Bytes × Bytes) :=
  match cutLast 58 address with
  | none => none
  | some (before, port) =>
    if address.head? = some 91 then
      match cut 93 before.tail with
      | (host, some []) => if 91 ∈ host ++ port ∨ 93 ∈ port then none else some (host, port)
      | _ => none
    else if 58 ∈ before ∨ 91 ∈ address ∨ 93 ∈ address then none
    else some (before, port)

theorem cutLast_append {separator : UInt8} (before : Bytes) {after : Bytes}
    (last : separator ∉ after) :
    cutLast separator (before ++ separator :: after) = some (before, after) := by
  have none_after : cutLast separator after = none := by
    induction after with
    | nil => rfl
    | cons b rest ih =>
      rw [List.mem_cons, not_or] at last
      rw [cutLast, ih last.2]
      exact if_neg (Ne.symm last.1)
  induction before with
  | nil => rw [List.nil_append, cutLast, none_after]; exact if_pos rfl
  | cons b rest ih => rw [List.cons_append, cutLast, ih]

theorem not_mem_digits {port : Bytes} (digits : port.all isDigit = true) {b : UInt8}
    (other : isDigit b = false) : b ∉ port := fun mem => by
  rw [List.all_eq_true.mp digits b mem] at other
  cases other

/-- The host that is dialed is the host that was meant. -/
theorem splitHostPort_joinHostPort {host port : Bytes} (opening : 91 ∉ host) (closing : 93 ∉ host)
    (digits : port.all isDigit = true) :
    splitHostPort (joinHostPort host port) = some (host, port) := by
  have colon : 58 ∉ port := not_mem_digits digits (by decide)
  have left : 91 ∉ port := not_mem_digits digits (by decide)
  have right : 93 ∉ port := not_mem_digits digits (by decide)
  unfold joinHostPort
  split
  · have cuts : cutLast 58 (91 :: host ++ 93 :: 58 :: port) = some (91 :: host ++ [93], port) := by
      have shape : 91 :: host ++ 93 :: 58 :: port = (91 :: host ++ [93]) ++ 58 :: port := by simp
      rw [shape, cutLast_append _ colon]
    rw [splitHostPort, cuts]
    simp only [List.cons_append, List.head?_cons, if_true, List.tail_cons, cut_append closing]
    rw [if_neg]
    simp [opening, left, right]
  · rename_i plain
    rw [splitHostPort, cutLast_append _ colon]
    have start : (host ++ 58 :: port).head? ≠ some 91 := by
      rcases host with _ | ⟨b, rest⟩
      · simp
      · intro same
        cases same
        exact opening List.mem_cons_self
    simp only [if_neg start]
    rw [if_neg]
    simp [plain, opening, closing, left, right]

end HostPorts
