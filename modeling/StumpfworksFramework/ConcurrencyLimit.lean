import Mathlib.Data.List.Basic
import StumpfworksFramework.Runs
import StumpfworksFramework.ResponseStatus

/-!
# The concurrency limiter

Requests pass through handlers that one `LimitConcurrency` has wrapped. The
statements of the wrapped handler are the steps of a request: its select, the
call of `next`, and the deferred calls one by one, which run alike after a
return and after a panic. The semaphore is a channel of which only the number
of values in it matters.

The events of `Event` are coarser. In them a request that takes a slot has
entered `next`, and one that has left `next` has run its deferred calls; they
are sequences of the steps, so what holds of every run of steps holds of them.
Headers other than the request's identity are left out.
-/

namespace ConcurrencyLimit

open ByteStrings Runs ResponseStatus

universe u

/-! ## Problem details -/

structure FieldError where
  field : String
  code : String
  message : String
  deriving DecidableEq, Repr

structure Details where
  type : String
  title : String
  status : Int
  code : String
  correlationID : String
  errors : List FieldError
  deriving DecidableEq, Repr

/-- The reason phrases of `net/http` and the JSON encoder. -/
structure Texts where
  statusText : Int → String
  encode : Details → Bytes

def Details.orInternal (texts : Texts) (d : Details) : Details :=
  if d.status < 400 ∨ 599 < d.status then
    ⟨"about:blank", texts.statusText 500, 500, "internal_error", d.correlationID, []⟩
  else d

/-- The details that `problem.Write` sends for a response with this request identity. -/
def Details.completed (texts : Texts) (requestID : String) (details : Details) : Details :=
  let d := details.orInternal texts
  { d with
    type := if d.type = "" then "about:blank" else d.type
    title := if d.title = "" then texts.statusText d.status else d.title
    correlationID := if d.correlationID = "" then requestID else d.correlationID }

def problemWrite {σ : Type u} (texts : Texts) (w : Writer σ) (requestID : String) (s : σ)
    (details : Details) : σ :=
  let d := details.completed texts requestID
  w.write (w.writeHeader s d.status) (texts.encode d)

def overloaded : Details :=
  ⟨"https://docs.stumpfworks.de/problems/overloaded", "Service temporarily unavailable", 503,
    "service_overloaded", "", []⟩

def unavailable {σ : Type u} (texts : Texts) (w : Writer σ) (requestID : String) (s : σ) : σ :=
  problemWrite texts w requestID s overloaded

/-! ## Requests -/

structure Limiter where
  maximum : Nat
  queueTimeout : Int
  positive : 0 < maximum
  nonnegative : 0 ≤ queueTimeout

def limitConcurrency (maximum queueTimeout : Int) : Except String Limiter :=
  if small : maximum ≤ 0 then .error "maximum concurrency must be positive"
  else if early : queueTimeout < 0 then .error "queue timeout must not be negative"
  else .ok ⟨maximum.toNat, queueTimeout, by omega, by omega⟩

theorem limitConcurrency_ok {maximum queueTimeout : Int} {L : Limiter}
    (accepted : limitConcurrency maximum queueTimeout = .ok L) :
    (L.maximum : Int) = maximum ∧ L.queueTimeout = queueTimeout := by
  unfold limitConcurrency at accepted
  split at accepted
  · cases accepted
  · split at accepted
    · cases accepted
    · cases accepted
      exact ⟨by simp only; omega, rfl⟩

inductive Deferred where
  | release
  | stopTimer
  deriving DecidableEq, Repr

inductive Timer where
  | none
  | running
  | fired
  | stopped
  deriving DecidableEq, Repr

/-- How the wrapped handler came to its end. -/
inductive Outcome where
  | ran (panicked : Bool)
  | rejected
  | cancelled
  deriving DecidableEq, Repr

inductive Stage where
  | arrived
  | waiting
  | entered
  | serving
  | leaving (outcome : Outcome)
  | done (outcome : Outcome)
  deriving DecidableEq, Repr

structure Request where
  stage : Stage
  /-- calls deferred so far, the next to run first -/
  deferred : List Deferred
  timer : Timer
  contextDone : Bool
  requestID : String
  response : Recorder (Recorder Response)
  /-- how often the request has sent to the semaphore -/
  taken : Nat
  nextCalls : Nat
  deriving DecidableEq, Repr

def Request.fresh (requestID : String) : Request :=
  ⟨.arrived, [], .none, false, requestID, stackStart, 0, 0⟩

/-- A case of the select in which a request waits. -/
inductive Case where
  | slot
  | timer
  | context
  deriving DecidableEq, Repr

inductive RequestStep where
  | contextEnds
  | timerFires
  | attempt
  | choose (case : Case)
  | start
  | call (c : Call)
  | finish (panicked : Bool)
  | unwind
  deriving DecidableEq, Repr

def Request.take (r : Request) : Request :=
  { r with stage := .entered, deferred := .release :: r.deferred, taken := r.taken + 1 }

def Request.reject (texts : Texts) (r : Request) : Request :=
  { r with stage := .leaving .rejected, response := unavailable texts stack r.requestID r.response }

/-- One statement of the wrapped handler with `occupied` values in the semaphore; where it is
not reached or still waits, nothing happens. -/
def Request.advance (L : Limiter) (texts : Texts) (occupied : Nat) (r : Request)
    (step : RequestStep) : Nat × Request :=
  match r.stage, step with
  | _, .contextEnds => (occupied, { r with contextDone := true })
  | _, .timerFires => (occupied, if r.timer = .running then { r with timer := .fired } else r)
  | .arrived, .attempt =>
    if L.queueTimeout = 0 then
      if occupied < L.maximum then (occupied + 1, r.take) else (occupied, r.reject texts)
    else
      (occupied,
        { r with stage := .waiting, timer := .running, deferred := .stopTimer :: r.deferred })
  | .waiting, .choose .slot =>
    if occupied < L.maximum then (occupied + 1, r.take) else (occupied, r)
  | .waiting, .choose .timer =>
    if r.timer = .fired then (occupied, r.reject texts) else (occupied, r)
  | .waiting, .choose .context =>
    if r.contextDone = true then (occupied, { r with stage := .leaving .cancelled })
    else (occupied, r)
  | .entered, .start => (occupied, { r with stage := .serving, nextCalls := r.nextCalls + 1 })
  | .serving, .call c => (occupied, { r with response := stack.call r.response c })
  | .serving, .finish panicked => (occupied, { r with stage := .leaving (.ran panicked) })
  | .leaving outcome, .unwind =>
    match r.deferred with
    | [] => (occupied, { r with stage := .done outcome })
    | .stopTimer :: rest => (occupied, { r with deferred := rest, timer := .stopped })
    | .release :: rest =>
      -- a receive from an empty channel would wait
      if 0 < occupied then (occupied - 1, { r with deferred := rest }) else (occupied, r)
  | _, _ => (occupied, r)

structure State where
  occupied : Nat
  requests : List Request
  deriving DecidableEq, Repr

def start : State := ⟨0, []⟩

inductive Action where
  | arrive (requestID : String)
  | request (i : Nat) (step : RequestStep)
  deriving DecidableEq, Repr

def stepState (L : Limiter) (texts : Texts) (s : State) : Action → State
  | .arrive requestID => { s with requests := s.requests ++ [Request.fresh requestID] }
  | .request i step =>
    match s.requests[i]? with
    | none => s
    | some r =>
      let (occupied, r) := r.advance L texts s.occupied step
      ⟨occupied, s.requests.set i r⟩

def step (L : Limiter) (texts : Texts) (s : State) (a : Action) : State × Unit :=
  (stepState L texts s a, ())

/-! ## What is known of a request -/

/-- The slots that a request still has to release. -/
def Request.held (r : Request) : Nat := r.deferred.count .release

/-- The response of a request that was refused. -/
def refused (texts : Texts) (requestID : String) : Recorder (Recorder Response) :=
  unavailable texts stack requestID stackStart

/-- What an ended or ending request has done. -/
def Request.Ended (texts : Texts) (r : Request) : Outcome → Prop
  | .ran _ => r.nextCalls = 1 ∧ r.held ≤ 1
  | .rejected => r.nextCalls = 0 ∧ r.taken = 0 ∧ r.held = 0 ∧ r.response = refused texts r.requestID
  | .cancelled => r.nextCalls = 0 ∧ r.taken = 0 ∧ r.held = 0 ∧ r.response = stackStart

def Request.Fits (texts : Texts) (r : Request) : Prop :=
  match r.stage with
  | .arrived => r.nextCalls = 0 ∧ r.taken = 0 ∧ r.held = 0 ∧ r.response = stackStart
  | .waiting => r.nextCalls = 0 ∧ r.taken = 0 ∧ r.held = 0 ∧ r.response = stackStart
  | .entered => r.nextCalls = 0 ∧ r.held = 1
  | .serving => r.nextCalls = 1 ∧ r.held = 1
  | .leaving outcome => r.Ended texts outcome
  | .done outcome => r.Ended texts outcome ∧ r.held = 0

section Steps

variable {L : Limiter} {texts : Texts} {occupied : Nat} {r : Request}

@[simp] theorem held_take (r : Request) : r.take.held = r.held + 1 := by
  simp [Request.held, Request.take]

/-- What a step does to the request, to the semaphore and to the slots. -/
structure Advanced (L : Limiter) (texts : Texts) (occupied : Nat) (r : Request)
    (after : Nat × Request) : Prop where
  fits : after.2.Fits texts
  balance : after.1 + r.held = occupied + after.2.held
  within : occupied ≤ L.maximum → after.1 ≤ L.maximum

theorem Advanced.still (fits : r.Fits texts) : Advanced L texts occupied r (occupied, r) :=
  ⟨fits, rfl, id⟩

theorem Advanced.take (room : occupied < L.maximum) (none : r.nextCalls = 0) (free : r.held = 0) :
    Advanced L texts occupied r (occupied + 1, r.take) := by
  refine ⟨⟨none, ?_⟩, ?_, fun _ => room⟩
  · rw [held_take, free]
  · simp only [held_take]
    omega

theorem Advanced.reject (none : r.nextCalls = 0) (untaken : r.taken = 0) (free : r.held = 0)
    (unwritten : r.response = stackStart) :
    Advanced L texts occupied r (occupied, r.reject texts) := by
  refine ⟨⟨none, untaken, free, ?_⟩, rfl, id⟩
  show unavailable texts stack r.requestID r.response = _
  rw [unwritten]
  rfl

theorem Request.Ended.drop {outcome : Outcome} {d : Deferred} {rest : List Deferred}
    (ended : r.Ended texts outcome) (deferred : r.deferred = d :: rest) (timer : Timer) :
    Request.Ended texts { r with deferred := rest, timer := timer } outcome := by
  have fewer : rest.count Deferred.release ≤ r.held := by
    rw [Request.held, deferred]
    exact List.count_le_count_cons
  cases outcome with
  | ran panicked => exact ⟨ended.1, fewer.trans ended.2⟩
  | rejected => exact ⟨ended.1, ended.2.1, Nat.le_zero.mp (ended.2.2.1 ▸ fewer), ended.2.2.2⟩
  | cancelled => exact ⟨ended.1, ended.2.1, Nat.le_zero.mp (ended.2.2.1 ▸ fewer), ended.2.2.2⟩

theorem Advanced.unwind {outcome : Outcome} (stage : r.stage = .leaving outcome)
    (ended : r.Ended texts outcome) :
    Advanced L texts occupied r (r.advance L texts occupied .unwind) := by
  have fits : r.Fits texts := by
    rw [Request.Fits, stage]
    exact ended
  unfold Request.advance
  simp only [stage]
  split
  · rename_i empty
    have free : r.held = 0 := by rw [Request.held, empty]; rfl
    refine ⟨⟨?_, free⟩, rfl, id⟩
    cases outcome <;> exact ended
  · rename_i rest deferred
    refine ⟨?_, ?_, id⟩
    · have kept := ended.drop deferred .stopped
      simp only [Request.Fits]
      exact kept
    · simp [Request.held, deferred]
  · rename_i rest deferred
    split
    · rename_i some
      refine ⟨?_, ?_, fun within => (Nat.sub_le _ _).trans within⟩
      · have kept := ended.drop deferred r.timer
        simp only [Request.Fits]
        exact kept
      · simp only [Request.held, deferred, List.count_cons_self]
        omega
    · exact Advanced.still fits

/-- The first `select`: a slot if there is room, else a refusal or a timer to wait with. -/
theorem Advanced.attempt (stage : r.stage = .arrived) (fits : r.Fits texts) :
    Advanced L texts occupied r (r.advance L texts occupied .attempt) := by
  simp only [Request.Fits, stage] at fits
  obtain ⟨none, untaken, free, unwritten⟩ := fits
  simp only [Request.advance, stage]
  split
  · split
    · exact Advanced.take ‹_› none free
    · exact Advanced.reject none untaken free unwritten
  · refine ⟨⟨none, untaken, ?_, unwritten⟩, ?_, id⟩
    · simpa [Request.held] using free
    · simp [Request.held]

/-- The second `select`: a case that is not ready leaves the request waiting. -/
theorem Advanced.choose (stage : r.stage = .waiting) (fits : r.Fits texts) (ready : Case) :
    Advanced L texts occupied r (r.advance L texts occupied (.choose ready)) := by
  have known := fits
  simp only [Request.Fits, stage] at known
  obtain ⟨none, untaken, free, unwritten⟩ := known
  cases ready with
  | slot =>
    simp only [Request.advance, stage]
    split
    · exact Advanced.take ‹_› none free
    · exact Advanced.still fits
  | timer =>
    simp only [Request.advance, stage]
    split
    · exact Advanced.reject none untaken free unwritten
    · exact Advanced.still fits
  | context =>
    simp only [Request.advance, stage]
    split
    · exact ⟨⟨none, untaken, free, unwritten⟩, rfl, id⟩
    · exact Advanced.still fits

/-- One lemma for every statement of the wrapped handler. -/
theorem advance_advanced (L : Limiter) (occupied : Nat) (fits : r.Fits texts) (step : RequestStep) :
    Advanced L texts occupied r (r.advance L texts occupied step) := by
  cases step with
  | contextEnds => exact ⟨fits, rfl, id⟩
  | timerFires =>
    unfold Request.advance
    simp only
    split
    · exact ⟨fits, rfl, id⟩
    · exact Advanced.still fits
  | attempt =>
    cases stage : r.stage with
    | arrived => exact Advanced.attempt stage fits
    | _ =>
      simp only [Request.advance, stage]
      exact Advanced.still fits
  | choose case =>
    cases stage : r.stage with
    | waiting => exact Advanced.choose stage fits case
    | _ =>
      simp only [Request.advance, stage]
      exact Advanced.still fits
  | start =>
    cases stage : r.stage with
    | entered =>
      simp only [Request.Fits, stage] at fits
      simp only [Request.advance, stage]
      refine ⟨⟨?_, fits.2⟩, rfl, id⟩
      show r.nextCalls + 1 = 1
      rw [fits.1]
    | _ =>
      simp only [Request.advance, stage]
      exact Advanced.still fits
  | call c =>
    cases stage : r.stage with
    | serving =>
      simp only [Request.Fits, stage] at fits
      simp only [Request.advance, stage]
      refine ⟨?_, rfl, id⟩
      simp only [Request.Fits]
      exact fits
    | _ =>
      simp only [Request.advance, stage]
      exact Advanced.still fits
  | finish panicked =>
    cases stage : r.stage with
    | serving =>
      simp only [Request.Fits, stage] at fits
      simp only [Request.advance, stage]
      exact ⟨⟨fits.1, fits.2.le⟩, rfl, id⟩
    | _ =>
      simp only [Request.advance, stage]
      exact Advanced.still fits
  | unwind =>
    cases stage : r.stage with
    | leaving outcome =>
      have ended := fits
      simp only [Request.Fits, stage] at ended
      exact Advanced.unwind stage ended
    | _ =>
      simp only [Request.advance, stage]
      exact Advanced.still fits

end Steps

/-! ## Runs of statements -/

/-- The slots in the semaphore are those that requests still have to release. -/
structure Inv (L : Limiter) (texts : Texts) (s : State) : Prop where
  fits : ∀ (i : Nat) (r : Request), s.requests[i]? = some r → r.Fits texts
  balance : s.occupied = (s.requests.map Request.held).sum
  within : s.occupied ≤ L.maximum

section Runs

variable {L : Limiter} {texts : Texts} {s : State}

theorem Inv.step (inv : Inv L texts s) (a : Action) : Inv L texts (stepState L texts s a) := by
  cases a with
  | arrive requestID =>
    refine ⟨?_, ?_, inv.within⟩
    · intro i r found
      rcases getElem?_concat_cases found with old | ⟨_, rfl⟩
      · exact inv.fits i r old
      · exact ⟨rfl, rfl, rfl, rfl⟩
    · simp only [stepState, List.map_append, List.sum_append]
      rw [← inv.balance]
      rfl
  | request i step =>
    simp only [stepState]
    split
    · exact inv
    · rename_i r found
      have advanced := advance_advanced L s.occupied (inv.fits i r found) step
      refine ⟨?_, ?_, advanced.within inv.within⟩
      · intro j r' found'
        rcases getElem?_set_cases found' with ⟨_, rfl⟩ | ⟨_, other⟩
        · exact advanced.fits
        · exact inv.fits j r' other
      · have moved := sum_map_set Request.held (r.advance L texts s.occupied step).2 found
        have balance := advanced.balance
        rw [inv.balance] at balance
        simp only [inv.balance] at moved ⊢
        omega

theorem run_inv {legal : State → Action → Prop} {h : List (Action × Unit)}
    (run : Run (step L texts) legal start h s) : Inv L texts s := by
  have fresh : Inv L texts start := by
    refine ⟨?_, rfl, Nat.zero_le _⟩
    intro i r found
    cases found
  exact Run.invariant (P := fun _ s => Inv L texts s) fresh (fun _ _ a _ inv _ => inv.step a) run

/-- A release finds a value in the semaphore. -/
theorem Inv.held_le (inv : Inv L texts s) {i : Nat} {r : Request}
    (found : s.requests[i]? = some r) : r.held ≤ s.occupied := by
  rw [inv.balance]
  exact le_sum_map found

end Runs

/-! ## Events -/

inductive Event where
  | arrive (requestID : String)
  | request (i : Nat) (step : RequestStep)
  deriving DecidableEq, Repr

/-- What a request does after a step until it waits, runs `next` or is done. -/
def Request.onward (r : Request) (step : RequestStep) : List RequestStep :=
  step :: .start :: List.replicate (r.deferred.length + 1) .unwind

def Event.actions (s : State) : Event → List Action
  | .arrive requestID => [.arrive requestID]
  | .request i step =>
    match s.requests[i]? with
    | none => []
    | some r => (r.onward step).map (.request i)

def eventStep (L : Limiter) (texts : Texts) (s : State) (e : Event) : State × Unit :=
  ((play (step L texts) s (e.actions s)).2, ())

/-- A request that stands between two events. -/
def Stage.Prompt : Stage → Prop
  | .arrived | .waiting | .serving | .done _ => True
  | .entered | .leaving _ => False

section Events

variable {L : Limiter} {texts : Texts} {s : State} {r : Request} {occupied : Nat}

def advances (L : Limiter) (texts : Texts) (start : Nat × Request) (steps : List RequestStep) :
    Nat × Request :=
  steps.foldl (fun now step => now.2.advance L texts now.1 step) start

theorem play_request (L : Limiter) (texts : Texts) {i : Nat} (found : s.requests[i]? = some r)
    (steps : List RequestStep) :
    (play (step L texts) s (steps.map (Action.request i))).2 =
      ⟨(advances L texts (s.occupied, r) steps).1,
        s.requests.set i (advances L texts (s.occupied, r) steps).2⟩ := by
  induction steps generalizing s r with
  | nil =>
    have same : s.requests.set i r = s.requests := by
      obtain ⟨inside, rfl⟩ := List.getElem?_eq_some_iff.mp found
      exact List.set_getElem_self inside
    simp only [List.map_nil, play, advances, List.foldl_nil, same]
  | cons first rest ih =>
    obtain ⟨inside, _⟩ := List.getElem?_eq_some_iff.mp found
    have now : (step L texts s (.request i first)).1 =
        ⟨(r.advance L texts s.occupied first).1,
          s.requests.set i (r.advance L texts s.occupied first).2⟩ := by
      simp only [step, stepState, found]
    have here : (step L texts s (.request i first)).1.requests[i]? =
        some (r.advance L texts s.occupied first).2 := by
      rw [now]
      exact List.getElem?_set_self inside
    simp only [List.map_cons, play]
    rw [ih here, now]
    simp only [List.set_set]
    rfl

/-- The deferred calls run to their end. -/
theorem advances_unwind (L : Limiter) (texts : Texts) {outcome : Outcome}
    (stage : r.stage = .leaving outcome) (enough : r.held ≤ occupied) :
    (advances L texts (occupied, r)
      (List.replicate (r.deferred.length + 1) .unwind)).2.stage = .done outcome := by
  induction deferred : r.deferred generalizing r occupied with
  | nil => simp [advances, List.replicate, Request.advance, stage, deferred]
  | cons d rest ih =>
    rw [List.length_cons, List.replicate_succ, advances, List.foldl_cons]
    cases d with
    | stopTimer =>
      have once : r.advance L texts occupied .unwind =
          (occupied, { r with deferred := rest, timer := .stopped }) := by
        simp only [Request.advance, stage, deferred]
      rw [once]
      refine ih (r := { r with deferred := rest, timer := .stopped }) stage ?_ rfl
      simpa [Request.held, deferred] using enough
    | release =>
      have more : rest.count Deferred.release + 1 ≤ occupied := by
        simpa [Request.held, deferred] using enough
      have once : r.advance L texts occupied .unwind =
          (occupied - 1, { r with deferred := rest }) := by
        simp only [Request.advance, stage, deferred]
        exact if_pos (by omega)
      rw [once]
      refine ih (r := { r with deferred := rest }) stage ?_ rfl
      show rest.count Deferred.release ≤ occupied - 1
      omega

theorem advances_unwind_prompt (L : Limiter) (texts : Texts) (occupied : Nat)
    (prompt : r.stage.Prompt) (n : Nat) :
    advances L texts (occupied, r) (List.replicate n .unwind) = (occupied, r) := by
  have once : r.advance L texts occupied .unwind = (occupied, r) := by
    cases stage : r.stage with
    | leaving outcome =>
      rw [stage] at prompt
      exact prompt.elim
    | _ => simp only [Request.advance, stage]
  induction n with
  | zero => rfl
  | succ n ih =>
    rw [List.replicate_succ, advances, List.foldl_cons, once]
    exact ih

/-- Where a single step takes a request that stood between two events. -/
inductive Reached (occupied : Nat) (r : Request) : Nat × Request → Prop where
  | prompt {after : Nat × Request} (prompt : after.2.stage.Prompt) : Reached occupied r after
  | entered {after : Nat × Request} (stage : after.2.stage = .entered) : Reached occupied r after
  | leaving {r' : Request} {outcome : Outcome} (stage : r'.stage = .leaving outcome)
    (deferred : r'.deferred = r.deferred) : Reached occupied r (occupied, r')

theorem advance_reached (L : Limiter) (texts : Texts) (occupied : Nat) (prompt : r.stage.Prompt)
    (step : RequestStep) : Reached occupied r (r.advance L texts occupied step) := by
  have still : Reached occupied r (occupied, r) := .prompt prompt
  unfold Request.advance
  split
  · exact .prompt prompt
  · split
    · exact .prompt prompt
    · exact still
  · split
    · split
      · exact .entered rfl
      · exact .leaving rfl rfl
    · exact .prompt trivial
  · split
    · exact .entered rfl
    · exact still
  · split
    · exact .leaving rfl rfl
    · exact still
  · split
    · exact .leaving rfl rfl
    · exact still
  · exact .prompt trivial
  · exact .prompt prompt
  · exact .leaving rfl rfl
  · rename_i stage
    rw [stage] at prompt
    exact prompt.elim
  · exact still

/-- After an event the request stands between two events again. -/
theorem onward_prompt (prompt : r.stage.Prompt) (enough : r.held ≤ occupied) (step : RequestStep) :
    (advances L texts (occupied, r) (r.onward step)).2.stage.Prompt := by
  rw [Request.onward, advances, List.foldl_cons, List.foldl_cons]
  have reached := advance_reached L texts occupied prompt step
  generalize r.advance L texts occupied step = after at reached
  cases reached with
  | prompt prompt' =>
    have still : after.2.advance L texts after.1 .start = after := by
      cases stage : after.2.stage with
      | entered =>
        rw [stage] at prompt'
        exact prompt'.elim
      | _ => simp only [Request.advance, stage]
    simp only [still]
    have same := advances_unwind_prompt L texts after.1 prompt' (r.deferred.length + 1)
    rw [advances] at same
    rw [same]
    exact prompt'
  | entered stage =>
    have started : (after.2.advance L texts after.1 .start).2.stage.Prompt := by
      simp only [Request.advance, stage]
      trivial
    have same := advances_unwind_prompt L texts (after.2.advance L texts after.1 .start).1 started
      (r.deferred.length + 1)
    rw [advances] at same
    rw [same]
    exact started
  | @leaving r' outcome stage deferred =>
    have still : r'.advance L texts occupied .start = (occupied, r') := by
      simp only [Request.advance, stage]
    have held : r'.held ≤ occupied := by
      rw [Request.held, deferred]
      exact enough
    have ended := advances_unwind L texts stage held
    rw [deferred, advances] at ended
    simp only [still]
    rw [ended]
    trivial

/-- The states between events are states of the statements. -/
theorem run_of_events {legal : State → Event → Prop} {h : List (Event × Unit)}
    (run : Run (eventStep L texts) legal start h s) :
    ∃ h', Run (step L texts) (fun _ _ => True) start h' s := by
  refine Run.invariant (P := fun _ s => ∃ h', Run (step L texts) (fun _ _ => True) start h' s)
    ⟨[], Run.nil⟩ ?_ run
  rintro _ s e _ ⟨h', before⟩ _
  exact ⟨_, before.trans (Run.of_play (legalPlay_of_forall (fun _ _ _ => trivial) s))⟩

theorem prompt_of_events {legal : State → Event → Prop} {h : List (Event × Unit)}
    (run : Run (eventStep L texts) legal start h s) :
    ∀ (i : Nat) (r : Request), s.requests[i]? = some r → r.stage.Prompt := by
  have fresh : ∀ (i : Nat) (r : Request), start.requests[i]? = some r → r.stage.Prompt := by
    intro i r found
    cases found
  refine Run.invariant (P := fun _ s => ∀ (i : Nat) (r : Request), s.requests[i]? = some r →
    r.stage.Prompt) fresh ?_ run
  intro _ s e before prompt _
  obtain ⟨h', statements⟩ := run_of_events before
  have inv := run_inv statements
  cases e with
  | arrive requestID =>
    intro i r found
    rcases getElem?_concat_cases found with old | ⟨_, rfl⟩
    · exact prompt i r old
    · trivial
  | request i step =>
    intro j r' found'
    simp only [eventStep, Event.actions] at found'
    split at found'
    · exact prompt j r' found'
    · rename_i r found
      rw [play_request L texts found] at found'
      rcases getElem?_set_cases found' with ⟨_, rfl⟩ | ⟨_, other⟩
      · exact onward_prompt (prompt i r found) (inv.held_le found) step
      · exact prompt j r' other

end Events

/-! ## The bound -/

/-- The handlers `next` that run. -/
def State.running (s : State) : Nat := s.requests.countP fun r => r.stage = .serving

def Stage.outcome : Stage → Option Outcome
  | .leaving outcome | .done outcome => some outcome
  | _ => none

def Request.Refused (r : Request) : Prop :=
  r.stage.outcome = some .rejected ∨ r.stage.outcome = some .cancelled

/-- What holds after every statement. -/
structure Contained (maximum : Int) (s : State) : Prop where
  bounded : (s.running : Int) ≤ s.occupied ∧ (s.occupied : Int) ≤ maximum
  owned : s.occupied = (s.requests.map Request.held).sum
  once : ∀ r ∈ s.requests, r.nextCalls ≤ 1
  /-- A refused request has never sent to the semaphore. -/
  refused : ∀ r ∈ s.requests, r.Refused → r.taken = 0 ∧ r.held = 0
  /-- A deferred receive does not wait. -/
  released : ∀ r ∈ s.requests, .release ∈ r.deferred → 0 < s.occupied

/-- What holds after every event. -/
structure Limited (maximum : Int) (s : State) : Prop where
  exact : s.running = s.occupied
  bounded : (s.occupied : Int) ≤ maximum
  once : ∀ r ∈ s.requests, r.nextCalls ≤ 1
  refused : ∀ r ∈ s.requests, r.Refused → r.taken = 0 ∧ r.held = 0
  free : s.running = 0 → s.occupied = 0

section Bound

variable {L : Limiter} {texts : Texts} {s : State} {r : Request}

theorem Request.Ended.once {outcome : Outcome} (ended : r.Ended texts outcome) :
    r.nextCalls ≤ 1 := by
  cases outcome with
  | ran panicked => exact ended.1.le
  | rejected => exact ended.1.trans_le (Nat.zero_le 1)
  | cancelled => exact ended.1.trans_le (Nat.zero_le 1)

theorem Request.Fits.once (fits : r.Fits texts) : r.nextCalls ≤ 1 := by
  unfold Request.Fits at fits
  split at fits
  · omega
  · omega
  · omega
  · omega
  · exact fits.once
  · exact fits.1.once

/-- What an outcome tells of the request that came to it. -/
theorem Request.Fits.ended (fits : r.Fits texts) {outcome : Outcome}
    (ended : r.stage.outcome = some outcome) : r.Ended texts outcome := by
  cases stage : r.stage with
  | leaving o =>
    rw [stage] at ended
    cases ended
    simpa only [Request.Fits, stage] using fits
  | done o =>
    rw [stage] at ended
    cases ended
    simp only [Request.Fits, stage] at fits
    exact fits.1
  | _ =>
    rw [stage] at ended
    cases ended

theorem Request.Fits.refused (fits : r.Fits texts) (refused : r.Refused) :
    r.taken = 0 ∧ r.held = 0 := by
  rcases refused with rejected | cancelled
  · obtain ⟨_, untaken, free, _⟩ := fits.ended rejected
    exact ⟨untaken, free⟩
  · obtain ⟨_, untaken, free, _⟩ := fits.ended cancelled
    exact ⟨untaken, free⟩

/-- Between events only requests in `next` hold a slot. -/
theorem Request.Fits.held_le (fits : r.Fits texts) (prompt : r.stage.Prompt) :
    r.held ≤ if decide (r.stage = .serving) = true then 1 else 0 := by
  cases stage : r.stage with
  | arrived =>
    simp only [Request.Fits, stage] at fits
    simp [fits.2.2.1]
  | waiting =>
    simp only [Request.Fits, stage] at fits
    simp [fits.2.2.1]
  | serving =>
    simp only [Request.Fits, stage] at fits
    simp [fits.2]
  | done outcome =>
    simp only [Request.Fits, stage] at fits
    simp [fits.2]
  | entered =>
    rw [stage] at prompt
    exact prompt.elim
  | leaving outcome =>
    rw [stage] at prompt
    exact prompt.elim

theorem Inv.fits_mem (inv : Inv L texts s) (mem : r ∈ s.requests) : r.Fits texts := by
  obtain ⟨i, found⟩ := List.getElem?_of_mem mem
  exact inv.fits i r found

theorem Inv.running_le (inv : Inv L texts s) : s.running ≤ s.occupied := by
  rw [inv.balance]
  apply countP_le_sum_map
  intro r mem serving
  have fits := inv.fits_mem mem
  simp only [Request.Fits, of_decide_eq_true serving] at fits
  exact fits.2.ge

theorem Inv.contained (inv : Inv L texts s) : Contained L.maximum s where
  bounded := ⟨by exact_mod_cast inv.running_le, by exact_mod_cast inv.within⟩
  owned := inv.balance
  once := fun _ mem => (inv.fits_mem mem).once
  refused := fun _ mem => (inv.fits_mem mem).refused
  released := by
    intro r mem pending
    obtain ⟨i, found⟩ := List.getElem?_of_mem mem
    exact (List.count_pos_iff.mpr pending).trans_le (inv.held_le found)

theorem Inv.limited (inv : Inv L texts s)
    (prompt : ∀ (i : Nat) (r : Request), s.requests[i]? = some r → r.stage.Prompt) :
    Limited L.maximum s := by
  have exact : s.running = s.occupied := by
    refine Nat.le_antisymm inv.running_le ?_
    rw [inv.balance]
    apply sum_map_le_countP
    intro r mem
    obtain ⟨i, found⟩ := List.getElem?_of_mem mem
    exact (inv.fits i r found).held_le (prompt i r found)
  have contained := inv.contained
  exact ⟨exact, contained.bounded.2, contained.once, contained.refused, fun none => exact ▸ none⟩

end Bound

/-- After every event as many handlers run as slots are occupied, never more than the maximum,
and none stays occupied; and at no statement in between are there more handlers than slots. -/
theorem limited_in_every_run {maximum queueTimeout : Int} {L : Limiter} (texts : Texts)
    (accepted : limitConcurrency maximum queueTimeout = .ok L) :
    (∀ h s, Run (eventStep L texts) (fun _ _ => True) start h s → Limited maximum s) ∧
    ∀ h s, Run (step L texts) (fun _ _ => True) start h s → Contained maximum s := by
  obtain ⟨same, _⟩ := limitConcurrency_ok accepted
  rw [← same]
  constructor
  · intro h s run
    obtain ⟨_, statements⟩ := run_of_events run
    exact (run_inv statements).limited (prompt_of_events run)
  · intro h s run
    exact (run_inv run).contained

/-- The texts for details without field errors of which no character is escaped. -/
def plainTexts : Texts where
  statusText := fun status => if status = 500 then "Internal Server Error"
    else if status = 503 then "Service Unavailable" else ""
  encode := fun d =>
    let member := fun (name value : String) => "\"" ++ name ++ "\":\"" ++ value ++ "\""
    let optional := fun (name value : String) => if value = "" then "" else "," ++ member name value
    let text := "\x7b" ++ member "type" d.type ++ "," ++ member "title" d.title ++
      ",\"status\":" ++ toString d.status ++ optional "code" d.code ++
      optional "correlation_id" d.correlationID ++ "\x7d\n"
    text.toList.map fun c => UInt8.ofNat c.toNat

/-- One slot: a handler that panics, a request that waits for its slot and gets it, and one
whose time in the queue runs out. -/
theorem limited_after_panic :
    let events : List Event := [.arrive "a", .arrive "b", .arrive "c", .request 0 .attempt,
      .request 0 (.choose .slot), .request 1 .attempt, .request 2 .attempt,
      .request 2 .timerFires, .request 2 (.choose .timer), .request 1 (.choose .slot),
      .request 0 (.finish true), .request 1 (.choose .slot)]
    ∃ L, limitConcurrency 1 1000000000 = .ok L ∧
      (play (eventStep L plainTexts) start events).2.requests.map Request.stage =
        [.done (.ran true), .serving, .done .rejected] ∧
      Limited 1 (play (eventStep L plainTexts) start events).2 := by
  intro events
  have accepted : limitConcurrency 1 1000000000 = .ok ⟨1, 1000000000, by decide, by decide⟩ := rfl
  refine ⟨_, accepted, by decide +kernel, ?_⟩
  refine (limited_in_every_run plainTexts accepted).1 _ _ (Run.of_play ?_)
  exact legalPlay_of_forall (fun _ _ _ => trivial) _

end ConcurrencyLimit
