import StumpfworksFramework.BerFraming
import StumpfworksFramework.MachineInts

/-!
# The frame validator as it executes

`validateBERElement` and `validateBERFrame` statement by statement, in the
integers of a platform: every sum is wrapped, every read of the data can panic,
and the recursion is bounded by fuel only. The counter may start anywhere. The
events record each call with its depth, each round of a sibling loop with what
it consumed, and where each loop stood when it ended.
-/

namespace BerExecution

open ByteStrings MachineInts

inductive Event where
  | call (depth : Int)
  | round (consumed : Int)
  | loopEnd (index stop : Int)
  deriving DecidableEq, Repr

/-- The counter behind the pointer `nodes`, and the events so far. -/
structure State where
  nodes : Int
  events : List Event
  deriving DecidableEq, Repr

def State.log (s : State) (e : Event) : State := { s with events := s.events ++ [e] }

/-- A header as it is read: the tag octet, the first content index, the content length. -/
structure Header where
  tag : UInt8
  index : Int
  length : Int
  deriving DecidableEq, Repr

section Execution

variable (w : Width)

/-- A call begins by counting itself. -/
def State.enter (s : State) (depth : Int) : State :=
  ⟨wrap w (s.nodes + 1), s.events ++ [.call depth]⟩

def highTagLoop (data : Bytes) : Nat → Int → Int → Ending Int
  | 0, _, _ => .exhausted
  | fuel + 1, count, index =>
    if count ≥ 5 ∨ index ≥ data.length then .failed
    else do
      let value ← .ofRead (load data index)
      if value &&& 0x80 = 0 then .returned (wrap w (index + 1))
      else highTagLoop data fuel (wrap w (count + 1)) (wrap w (index + 1))

/-- The length loop of `framedConn.Read` and of `validateBERElement`, with the values that
`length` takes on the way. -/
def lengthLoop : Int → Bytes → List Int × Ending Int
  | length, [] => ([], .returned length)
  | length, value :: rest =>
    if length > (1 <<< 20) >>> 8 then ([], .failed)
    else
      let next := shiftIn w length value
      (next :: (lengthLoop next rest).1, (lengthLoop next rest).2)

/-- The length after its first octet: the index behind it and its value. -/
def lengthField (data : Bytes) (first : UInt8) (index : Int) : Ending (Int × Int) :=
  if first &&& 0x80 ≠ 0 then
    let octets : Int := (first &&& 0x7f).toNat
    if octets < 1 ∨ octets > 4 ∨ wrap w (index + octets) > data.length then .failed
    else do
      let field ← .ofRead (slice data index (wrap w (index + octets)))
      let length ← (lengthLoop w 0 field).2
      .returned (wrap w (index + octets), length)
  else .returned (index, first.toNat)

/-- The index behind the tag. -/
def tagEnd (fuel : Nat) (data : Bytes) (tag : UInt8) : Ending Int :=
  if tag &&& 0x1f = 0x1f then highTagLoop w data fuel 0 1 else .returned 1

def elementHeader (fuel : Nat) (data : Bytes) : Ending Header := do
  let tag ← .ofRead (load data 0)
  let index ← tagEnd w fuel data tag
  if index ≥ data.length then .failed
  else
    let first ← .ofRead (load data index)
    let (index, length) ← lengthField w data first (wrap w (index + 1))
    if length > wrap w (data.length - index) then .failed else .returned ⟨tag, index, length⟩

mutual
def validateBERElement : Nat → Bytes → Int → State → Ending Int × State
  | 0, _, _, s => (.exhausted, s)
  | fuel + 1, data, depth, s =>
    let s := s.enter w depth
    if depth > 32 ∨ s.nodes > 4096 ∨ data.length < 2 then (.failed, s)
    else
      match elementHeader w fuel data with
      | .failed => (.failed, s)
      | .panicked => (.panicked, s)
      | .exhausted => (.exhausted, s)
      | .returned h =>
        let stop := wrap w (h.index + h.length)
        if h.tag &&& 0x20 ≠ 0 then siblingLoop fuel data depth h.index stop s
        else (.returned stop, s)

def siblingLoop : Nat → Bytes → Int → Int → Int → State → Ending Int × State
  | 0, _, _, _, _, s => (.exhausted, s)
  | fuel + 1, data, depth, index, stop, s =>
    if index < stop then
      match slice data index stop with
      | none => (.panicked, s)
      | some inner =>
        match validateBERElement fuel inner (wrap w (depth + 1)) s with
        | (.returned consumed, s) =>
          siblingLoop fuel data depth (wrap w (index + consumed)) stop (s.log (.round consumed))
        | (.failed, s) => (.failed, s)
        | (.panicked, s) => (.panicked, s)
        | (.exhausted, s) => (.exhausted, s)
    else (.returned stop, s.log (.loopEnd index stop))
end

def validateBERFrame (fuel : Nat) (frame : Bytes) : Ending Unit × State :=
  let start : State := ⟨0, []⟩
  if frame.length < 2 ∨ frame.length > 1 <<< 20 then (.failed, start)
  else
    match load frame 0 with
    | none => (.panicked, start)
    | some first =>
      if first ≠ 0x30 then (.failed, start)
      else
        match validateBERElement w fuel frame 0 start with
        | (.returned stop, s) => if stop ≠ frame.length then (.failed, s) else (.returned (), s)
        | (.failed, s) => (.failed, s)
        | (.panicked, s) => (.panicked, s)
        | (.exhausted, s) => (.exhausted, s)

end Execution

/-- The depths of the calls among some events. -/
def callDepths (events : List Event) : List Int :=
  events.filterMap fun
    | .call depth => some depth
    | _ => none

end BerExecution
