import StumpfworksFramework.BerFraming

/-!
# The directory read guard

`boundedConn` spends a byte budget; `framedConn` on top of it reassembles whole
frames, validates each one, and only then hands out its bytes. Both are readers
over an arbitrary connection: chunk sizes, errors that accompany bytes, and
caller buffer sizes are unrestricted.

The history of a framed connection is a ghost: it records, in execution order,
which frames passed validation and which bytes were copied to the caller.
-/

namespace ReadGuard

open ByteStrings ByteReaders BerFraming

variable {σ τ : Type}

/-- A connection that remembers the raw bytes taken from it. -/
structure Tap (σ : Type) where
  conn : σ
  taken : Bytes

def tap (raw : Reader σ) : Reader (Tap σ) where
  read s n :=
    let answer := raw.read s.conn n
    (answer.1, ⟨answer.2, s.taken ++ answer.1.1⟩)
  atMost s n := raw.atMost s.conn n
  progress s n := raw.progress s.conn n

structure BoundedConn (σ : Type) where
  conn : σ
  remaining : Int

/-- `boundedConn.Read`: the request is cut to the budget, and the budget pays
for what was read even when an error comes with it. -/
def boundedRead (r : Reader σ) (c : BoundedConn σ) (n : Nat) :
    (Bytes × Option IoError) × BoundedConn σ :=
  if c.remaining ≤ 0 then (([], some .errUnexpectedEOF), c)
  else
    let request := if (n : Int) > c.remaining then c.remaining.toNat else n
    let answer := r.read c.conn request
    (answer.1, ⟨answer.2, c.remaining - answer.1.1.length⟩)

def boundedConn (r : Reader σ) : Reader (BoundedConn σ) where
  read := boundedRead r
  atMost c n := by
    rw [boundedRead]
    split
    · exact Nat.zero_le n
    · refine Nat.le_trans (r.atMost _ _) ?_
      split <;> omega
  progress c n pos := by
    rw [boundedRead]
    split
    · intro _ quiet
      cases quiet
    · refine r.progress _ _ ?_
      split <;> omega

/-- The length octets after a header's second octet, and the content length. -/
def readExtra (r : Reader τ) (s : τ) (second : UInt8) : Except IoError (Bytes × Nat) × τ :=
  if second &&& 0x80 ≠ 0 then
    let octets := (second &&& 0x7f).toNat
    if octets < 1 ∨ octets > 4 then (.error errInvalidFrame, s)
    else
      match readFull r s octets with
      | (.error e, s) => (.error e, s)
      | (.ok extra, s) =>
        match decodeLength 0 extra with
        | none => (.error errInvalidFrame, s)
        | some length => (.ok (extra, length), s)
  else (.ok ([], second.toNat), s)

/-- The part of `framedConn.Read` before validation: one outer frame. -/
def assembleFrame (r : Reader τ) (s : τ) : Except IoError Bytes × τ :=
  match readFull r s 2 with
  | (.error e, s) => (.error e, s)
  | (.ok lead, s) =>
    if lead.getD 0 0 ≠ 0x30 then (.error errInvalidFrame, s)
    else
      match readExtra r s (lead.getD 1 0) with
      | (.error e, s) => (.error e, s)
      | (.ok (extra, length), s) =>
        let header := lead ++ extra
        if length > (1 <<< 20) - header.length then (.error errInvalidFrame, s)
        else
          match readFull r s length with
          | (.error e, s) => (.error e, s)
          | (.ok content, s) => (.ok (header ++ content), s)

inductive GuardEvent where
  | validated (frame : Bytes)
  | delivered (bytes : Bytes)
  deriving DecidableEq, Repr

/-- `buffer` holds the unread bytes of the current frame, as `bytes.Reader` does. -/
structure FramedConn (τ : Type) where
  conn : τ
  buffer : Option Bytes
  frames : Nat
  history : List GuardEvent

/-- `bytes.Reader.Read` on the current frame. -/
def FramedConn.serve (c : FramedConn τ) (n : Nat) :
    (Bytes × Option IoError) × FramedConn τ :=
  match c.buffer with
  | none => (([], some .eof), c)
  | some [] => (([], some .eof), c)
  | some (b :: unread) =>
    let bytes := (b :: unread).take n
    ((bytes, none), { c with buffer := some ((b :: unread).drop n),
                             history := c.history ++ [.delivered bytes] })

/-- `framedConn.Read` with a buffer of `n` bytes. -/
def FramedConn.read (r : Reader τ) (c : FramedConn τ) (n : Nat) :
    (Bytes × Option IoError) × FramedConn τ :=
  if n = 0 then (([], none), c)
  else if c.buffer.getD [] = [] then
    if c.frames ≥ 16 then (([], some errInvalidFrame), c)
    else
      match assembleFrame r c.conn with
      | (.error e, s) => (([], some e), { c with conn := s })
      | (.ok frame, s) =>
        match validateBERFrame frame with
        | .error e => (([], some e), { c with conn := s })
        | .ok () =>
          FramedConn.serve ⟨s, some frame, c.frames + 1, c.history ++ [.validated frame]⟩ n
  else c.serve n

/-- What a caller has seen: the bytes returned, the error that ended the calls. -/
structure Session (τ : Type) where
  bytes : Bytes
  error : Option IoError
  conn : FramedConn τ

/-- Calls of `framedConn.Read`, up to and including the first that fails. -/
def FramedConn.reads (r : Reader τ) : FramedConn τ → List Nat → Session τ
  | c, [] => ⟨[], none, c⟩
  | c, n :: rest =>
    match c.read r n with
    | ((bytes, some e), c) => ⟨bytes, some e, c⟩
    | ((bytes, none), c) =>
      let later := FramedConn.reads r c rest
      ⟨bytes ++ later.bytes, later.error, later.conn⟩

/-- The guard `GetUser` puts around a raw connection, with its initial budget. -/
def guardReader (raw : Reader σ) : Reader (BoundedConn (Tap σ)) := boundedConn (tap raw)

def guardStart (s : σ) : FramedConn (BoundedConn (Tap σ)) :=
  ⟨⟨⟨s, []⟩, 1 <<< 20⟩, none, 0, []⟩

def guardSession (raw : Reader σ) (s : σ) (sizes : List Nat) :
    Session (BoundedConn (Tap σ)) :=
  (guardStart s).reads (guardReader raw) sizes

/-- The raw bytes the guard has taken from the server so far. -/
def rawTaken (c : FramedConn (BoundedConn (Tap σ))) : Bytes := c.conn.conn.taken

def validatedFrames : List GuardEvent → List Bytes
  | [] => []
  | .validated frame :: rest => frame :: validatedFrames rest
  | .delivered _ :: rest => validatedFrames rest

def deliveredBytes : List GuardEvent → Bytes
  | [] => []
  | .validated _ :: rest => deliveredBytes rest
  | .delivered bytes :: rest => bytes ++ deliveredBytes rest

end ReadGuard
