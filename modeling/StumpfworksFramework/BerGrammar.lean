import StumpfworksFramework.ByteStrings

/-!
# The bounded BER grammar

Trees of tag-length-value elements with definite lengths. A header is kept as
the octets it was written with, because a length may be padded by leading
zeros or use the long form for a small value: the encoding of a tree is then a
function of the tree. Depth and element counts are separate measures.
-/

namespace BerGrammar

open ByteStrings

/-- The octets after a tag octet whose low five bits are all ones: one to five
of them, and exactly the last has its high bit clear. -/
def HighTag (octets : Bytes) : Prop :=
  ∃ more last, octets = more ++ [last] ∧ more.length ≤ 4 ∧
    (∀ b ∈ more, b &&& 0x80 ≠ 0) ∧ last &&& 0x80 = 0

def TagTail (tag : UInt8) (octets : Bytes) : Prop :=
  if tag &&& 0x1f = 0x1f then HighTag octets else octets = []

/-- A definite length field for `n`: short form, or one to four octets. -/
def LengthField (field : Bytes) (n : Nat) : Prop :=
  (∃ octet, octet < 0x80 ∧ field = [octet] ∧ n = octet.toNat) ∨
  (∃ octets : Bytes, 1 ≤ octets.length ∧ octets.length ≤ 4 ∧
    field = UInt8.ofNat (0x80 + octets.length) :: octets ∧ n = ofBigEndian octets)

structure Header where
  tag : UInt8
  tagTail : Bytes
  lengthField : Bytes

namespace Header

def octets (h : Header) : Bytes := h.tag :: (h.tagTail ++ h.lengthField)

/-- The header is well formed and announces `n` content octets. -/
structure Announces (h : Header) (n : Nat) : Prop where
  tag : TagTail h.tag h.tagTail
  length : LengthField h.lengthField n

def Constructed (h : Header) : Prop := h.tag &&& 0x20 ≠ 0

end Header

inductive Tree where
  | primitive (header : Header) (content : Bytes)
  | constructed (header : Header) (children : List Tree)

namespace Tree

def header : Tree → Header
  | primitive h _ => h
  | constructed h _ => h

mutual
def encode : Tree → Bytes
  | primitive h content => h.octets ++ content
  | constructed h children => h.octets ++ encodeAll children

def encodeAll : List Tree → Bytes
  | [] => []
  | t :: rest => encode t ++ encodeAll rest
end

mutual
/-- The number of elements, the root included. -/
def size : Tree → Nat
  | primitive _ _ => 1
  | constructed _ children => 1 + sizeAll children

def sizeAll : List Tree → Nat
  | [] => 0
  | t :: rest => size t + sizeAll rest
end

mutual
/-- Every element of the tree lies at depth at most `limit` when its root is at `depth`. -/
def DepthWithin (limit : Nat) : Nat → Tree → Prop
  | depth, primitive _ _ => depth ≤ limit
  | depth, constructed _ children => depth ≤ limit ∧ AllWithin limit (depth + 1) children

def AllWithin (limit : Nat) : Nat → List Tree → Prop
  | _, [] => True
  | depth, t :: rest => DepthWithin limit depth t ∧ AllWithin limit depth rest
end

mutual
/-- Each header announces exactly the octets of its content, and its tag says
whether the content is structured. -/
def WellFormed : Tree → Prop
  | primitive h content => h.Announces content.length ∧ ¬ h.Constructed
  | constructed h children =>
      h.Announces (encodeAll children).length ∧ h.Constructed ∧ AllWellFormed children

def AllWellFormed : List Tree → Prop
  | [] => True
  | t :: rest => WellFormed t ∧ AllWellFormed rest
end

end Tree

end BerGrammar
