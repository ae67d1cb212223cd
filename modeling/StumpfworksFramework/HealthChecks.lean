import Mathlib.Data.List.Sort
import StumpfworksFramework.ByteStrings
import StumpfworksFramework.FiniteMaps
import StumpfworksFramework.Gathering

/-!
# Readiness checks

One call of `Ready` beside the goroutines that it starts and beside calls of
`Register`. The call copies the checks under the lock, starts a goroutine for
each, and then receives results until none is pending or its context ends; a
`select` with both cases ready takes either. How and when a check ends, when its
goroutine gets to send, and when the context ends are actions of the
environment. So are the orders in which maps are visited. A check is whatever
`Register` was given; `may` says how it can end.
-/

namespace HealthChecks

open ByteStrings FiniteMaps Gathering

universe u

/-- How a check ends. -/
inductive Outcome where
  | returned (err : Option String)
  | panicked
  deriving DecidableEq, Repr

/-- The error that the goroutine sends. -/
def Outcome.err : Outcome → Option String
  | .returned err => err
  | .panicked => some "health check panicked"

/-- A goroutine runs its check, has `err` and is about to send it, or has sent it. -/
inductive Progress where
  | checking
  | ended (outcome : Outcome)
  | sent (outcome : Outcome)
  deriving DecidableEq, Repr

def Progress.outcome : Progress → Option Outcome
  | .checking => none
  | .ended outcome => some outcome
  | .sent outcome => some outcome

abbrev Result := Bytes × Option String

structure Response where
  statusCode : Nat
  status : String
  failedChecks : Option (List Bytes)
  deriving DecidableEq, Repr

inductive Phase where
  | entered
  | starting (left : List Bytes)
  | collecting
  | responded (response : Response)
  deriving DecidableEq, Repr

/-- The local variables of `Ready`; `done` says that `checkCtx` has ended. -/
structure Call (γ : Type u) where
  phase : Phase
  checks : FiniteMap Bytes γ
  goroutines : FiniteMap Bytes Progress
  results : List Result
  pending : List Bytes
  failed : List Bytes
  done : Bool

structure System (γ : Type u) where
  registered : FiniteMap Bytes γ
  call : Call γ

inductive Action (γ : Type u) where
  | register (name : Bytes) (check : Option γ)
  | copyChecks
  | start (name : Bytes)
  | makePending
  | finish (name : Bytes) (outcome : Outcome)
  | send (name : Bytes)
  | endContext
  | receive
  | giveUp (order : List Bytes)
  | respond

section Ready

variable {γ : Type u}

/-- `Register`: the checks after the call, or its error. -/
def register (checks : FiniteMap Bytes γ) (name : Bytes) (check : Option γ) :
    Except String (FiniteMap Bytes γ) :=
  if name = [] then .error "health check name is required"
  else
    match check with
    | none => .error "health check function is required"
    | some check => .ok (checks.insert name check)

/-- The answer for the names in `failed`, after `sort.Strings`. -/
def respond (failed : List Bytes) : Response :=
  let sorted := failed.insertionSort (· ≤ ·)
  if sorted.length > 0 then ⟨503, "down", some sorted⟩ else ⟨200, "up", none⟩

/-- The check of a goroutine returns or panics. -/
def finishCheck (c : Call γ) (name : Bytes) (outcome : Outcome) : Call γ :=
  if c.goroutines.lookup name = some .checking then
    { c with goroutines := c.goroutines.insert name (.ended outcome) }
  else c

/-- The deferred send, into a channel with room for one result of every check. -/
def sendResult (c : Call γ) (name : Bytes) : Call γ :=
  match c.goroutines.lookup name with
  | some (.ended outcome) =>
    if c.results.length < size c.checks then
      { c with goroutines := c.goroutines.insert name (.sent outcome)
               results := c.results ++ [(name, outcome.err)] }
    else c
  | _ => c

/-- One statement of the call or of one of its goroutines; what cannot run does nothing. -/
def advance (registered : FiniteMap Bytes γ) (c : Call γ) : Action γ → Call γ × Option Result
  | .register _ _ => (c, none)
  | .copyChecks =>
    match c.phase with
    | .entered =>
      let checks := copy registered
      ({ c with phase := .starting checks.keys, checks := checks }, none)
    | _ => (c, none)
  | .start name =>
    match c.phase with
    | .starting left =>
      if name ∈ left then
        ({ c with phase := .starting (left.filter (· ≠ name))
                  goroutines := c.goroutines.insert name .checking }, none)
      else (c, none)
    | _ => (c, none)
  | .makePending =>
    match c.phase with
    | .starting [] =>
      ({ c with phase := .collecting, pending := c.checks.keys, failed := [] }, none)
    | _ => (c, none)
  | .finish name outcome => (finishCheck c name outcome, none)
  | .send name => (sendResult c name, none)
  | .endContext => ({ c with done := true }, none)
  | .receive =>
    match c.phase, c.pending, c.results with
    | .collecting, _ :: _, (name, err) :: rest =>
      ({ c with results := rest
                pending := c.pending.filter (· ≠ name)
                failed := noted c.failed name err }, some (name, err))
    | _, _, _ => (c, none)
  | .giveUp order =>
    if c.phase = .collecting ∧ c.pending ≠ [] ∧ c.done = true ∧ order.Perm c.pending then
      ({ c with pending := [], failed := c.failed ++ order }, none)
    else (c, none)
  | .respond =>
    if c.phase = .collecting ∧ c.pending = [] then
      ({ c with phase := .responded (respond c.failed) }, none)
    else (c, none)

def step (s : System γ) (a : Action γ) : System γ × Option Result :=
  let (call, received) := advance s.registered s.call a
  match a with
  | .register name check =>
    match register s.registered name check with
    | .error _ => (s, none)
    | .ok registered => (⟨registered, call⟩, none)
  | _ => (⟨s.registered, call⟩, received)

/-- The call is about to take the lock. -/
def enter (registered : FiniteMap Bytes γ) : System γ :=
  ⟨registered, ⟨.entered, ∅, ∅, [], [], [], false⟩⟩

/-- A check ends in one of its ways; nothing else is assumed. -/
def Legal (may : γ → Outcome → Prop) (s : System γ) : Action γ → Prop
  | .finish name outcome => ∀ check, s.call.checks.lookup name = some check → may check outcome
  | _ => True

/-- The results received in a history. -/
def received (h : List (Action γ × Option Result)) : List Result := h.filterMap Prod.snd

end Ready

end HealthChecks
