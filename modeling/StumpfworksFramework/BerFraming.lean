import StumpfworksFramework.BerGrammar
import StumpfworksFramework.ByteReaders

/-!
# The BER frame validator of the directory guard

`validateBERElement` is a recursive descent with a node counter shared by the
whole frame. The counter is threaded explicitly and is returned on failure
too, since it counts calls. The end position is returned with its bounds: the
sibling loop makes progress because an element occupies at least two octets.
-/

namespace BerFraming

open ByteStrings ByteReaders BerGrammar

def errInvalidFrame : IoError := .other "invalid directory response frame"

/-- The loop over the octets of a high tag number; `left` is `5 - count`. -/
def readHighTag (data : Bytes) : Nat → Nat → Option Nat
  | 0, _ => none
  | left + 1, index =>
    match data[index]? with
    | none => none
    | some value =>
      if value &&& 0x80 = 0 then some (index + 1) else readHighTag data left (index + 1)

/-- The length loop of both readers: the bound is tested before each shift. -/
def decodeLength : Nat → Bytes → Option Nat
  | length, [] => some length
  | length, value :: rest =>
    if length > (1 <<< 20) >>> 8 then none
    else decodeLength (length <<< 8 ||| value.toNat) rest

/-- A parsed element header: the tag octet, the first content index and the
content length. -/
structure ElementHeader where
  tag : UInt8
  index : Nat
  length : Nat
  deriving DecidableEq, Repr

def readTag (data : Bytes) : Option (UInt8 × Nat) :=
  match data[0]? with
  | none => none
  | some tag =>
    if tag &&& 0x1f = 0x1f then (readHighTag data 5 1).map (fun index => (tag, index))
    else some (tag, 1)

def readLength (data : Bytes) (index : Nat) : Option (Nat × Nat) :=
  match data[index]? with
  | none => none
  | some first =>
    if first &&& 0x80 ≠ 0 then
      let octets := (first &&& 0x7f).toNat
      if octets < 1 ∨ octets > 4 ∨ index + 1 + octets > data.length then none
      else (decodeLength 0 ((data.drop (index + 1)).take octets)).map
        (fun length => (index + 1 + octets, length))
    else some (index + 1, first.toNat)

def readHeader (data : Bytes) : Option ElementHeader :=
  match readTag data with
  | none => none
  | some (tag, index) =>
    match readLength data index with
    | none => none
    | some (index, length) =>
      if length > data.length - index then none else some ⟨tag, index, length⟩

theorem readHighTag_gt {data : Bytes} {left index next : Nat}
    (h : readHighTag data left index = some next) : index < next := by
  induction left generalizing index with
  | zero => cases h
  | succ left ih =>
    simp only [readHighTag] at h
    split at h
    · cases h
    · split at h
      · cases h; omega
      · have := ih h; omega

theorem readTag_pos {data : Bytes} {tag : UInt8} {index : Nat}
    (h : readTag data = some (tag, index)) : 1 ≤ index := by
  simp only [readTag] at h
  split at h
  · cases h
  · split at h
    · obtain ⟨next, hn, heq⟩ := Option.map_eq_some_iff.mp h
      cases heq
      have := readHighTag_gt hn
      omega
    · cases h; omega

theorem readLength_bounds {data : Bytes} {index next length : Nat}
    (h : readLength data index = some (next, length)) :
    index < next ∧ next ≤ data.length := by
  simp only [readLength] at h
  split at h
  · cases h
  · rename_i first hfirst
    have hlt := (List.getElem?_eq_some_iff.mp hfirst).1
    split at h
    · split at h
      · cases h
      · obtain ⟨n, _, heq⟩ := Option.map_eq_some_iff.mp h
        cases heq
        omega
    · cases h
      omega

theorem readHeader_bounds {data : Bytes} {h : ElementHeader}
    (read : readHeader data = some h) :
    2 ≤ h.index ∧ h.index + h.length ≤ data.length := by
  simp only [readHeader] at read
  split at read
  · cases read
  · rename_i tag index htag
    split at read
    · cases read
    · rename_i next length hlength
      split at read
      · cases read
      · cases read
        have := readTag_pos htag
        have := readLength_bounds hlength
        constructor <;> dsimp only <;> omega

/-- An end position inside the given data, at least two octets along. -/
abbrev End (data : Bytes) := {n : Nat // 2 ≤ n ∧ n ≤ data.length}

mutual
/-- One element at the front of `data`; returns its end and the node counter. -/
def validateBERElement (data : Bytes) (depth nodes : Nat) :
    Except IoError (End data) × Nat :=
  let nodes := nodes + 1
  if depth > 32 ∨ nodes > 4096 ∨ data.length < 2 then (.error errInvalidFrame, nodes)
  else
    match read : readHeader data with
    | none => (.error errInvalidFrame, nodes)
    | some h =>
      have bounds := readHeader_bounds read
      let stop : End data := ⟨h.index + h.length, by omega⟩
      if h.tag &&& 0x20 ≠ 0 then
        match validateBERContents ((data.drop h.index).take h.length) depth nodes with
        | (.error err, nodes) => (.error err, nodes)
        | (.ok (), nodes) => (.ok stop, nodes)
      else (.ok stop, nodes)
termination_by 2 * data.length
decreasing_by
  simp only [List.length_take, List.length_drop]
  omega

/-- The sibling loop over the octets `data[index:end]` still to be read. -/
def validateBERContents (data : Bytes) (depth nodes : Nat) : Except IoError Unit × Nat :=
  if data.length = 0 then (.ok (), nodes)
  else
    match validateBERElement data (depth + 1) nodes with
    | (.error err, nodes) => (.error err, nodes)
    | (.ok consumed, nodes) => validateBERContents (data.drop consumed.val) depth nodes
termination_by 2 * data.length + 1
decreasing_by
  · omega
  · have := consumed.property
    simp only [List.length_drop]
    omega
end

def validateBERFrame (frame : Bytes) : Except IoError Unit :=
  if frame.length < 2 ∨ frame.length > 1 <<< 20 ∨ frame[0]? ≠ some 0x30 then
    .error errInvalidFrame
  else
    match validateBERElement frame 0 0 with
    | (.error _, _) => .error errInvalidFrame
    | (.ok stop, _) => if stop.val ≠ frame.length then .error errInvalidFrame else .ok ()

end BerFraming
