import StumpfworksFramework.Runs

/-!
# The application's lifecycle

One call of `App.Run`, with the goroutine that serves and the handlers that run
beside it. Of `net/http` three things are built in. `Serve` accepts connections
until its listener fails for good (temporary errors of `Accept` it retries) or
the server is shut down, and does not wait for the connections it accepted.
`Shutdown` returns without its context's error only when no handler runs, and
closes the idle connections. `Close` closes every connection; handlers that run
go on without one.

Connections are only counted: idle ones, and ones whose handler runs. Routes,
middleware and log lines are left out, and so are hijacked connections.
-/

namespace AppLifecycle

open Runs

universe u

/-- What `Serve` returns. -/
inductive ServeError where
  | errServerClosed
  | other (text : String)
  deriving DecidableEq, Repr

/-- Where `Run` stands. In `closing` the loop of `closeResources` has `index` resources left. -/
inductive Phase where
  | listening
  | selecting
  | shuttingDown
  | awaiting (shutdownErr : Option String)
  | closing (result : Except String Unit) (index : Nat)
  | returned (result : Except String Unit)

/-- A resource was closed while so many handlers ran; `forced` says that the server had
closed their connections after the deadline. -/
structure Closing (ρ : Type u) where
  resource : ρ
  running : Nat
  forced : Bool
  deriving DecidableEq, Repr

structure State (ρ : Type u) where
  phase : Phase
  /-- what is in `errorsCh` or was taken from it -/
  served : Option ServeError
  cancelled : Bool
  inShutdown : Bool
  expired : Bool
  forced : Bool
  idle : Nat
  running : Nat
  closed : List (Closing ρ)

/-- The statements of `Run` and `serve` that wait or have effects. -/
inductive RunStep where
  | listen (failure : Option String)
  | receiveError
  | receiveDone
  | shutdownReturns (listenerErr : Option String)
  | shutdownExpires (cause : String)
  | receive
  | closeNext

inductive Action where
  | cancel
  | connect
  | request
  | finish (keepAlive : Bool)
  | hangUp
  | acceptFails (cause : String)
  | deadline
  | run (step : RunStep)

section Run

variable {ρ : Type u}

/-- `Run` has been called. Without a context it returns before it defers anything. -/
def start (hasContext : Bool) : State ρ where
  phase := if hasContext = true then .listening else .returned (.error "run context is required")
  served := none
  cancelled := false
  inShutdown := false
  expired := false
  forced := false
  idle := 0
  running := 0
  closed := []

variable (address : String) (resources : List ρ)

/-- `serve` and `Run` return, which starts the deferred `closeResources`. -/
def State.leave (s : State ρ) (result : Except String Unit) : State ρ :=
  { s with phase := .closing result resources.length }

/-- The result of `serve` for what came from the channel. -/
def ServeError.result : ServeError → Except String Unit
  | .errServerClosed => .ok ()
  | .other text => .error text

/-- One round of the loop in `closeResources`, or its end. -/
def State.closeNext (s : State ρ) (result : Except String Unit) : Nat → State ρ
  | 0 => { s with phase := .returned result }
  | index + 1 =>
    match resources[index]? with
    | none => s
    | some resource =>
      { s with
        phase := .closing result index
        closed := s.closed ++ [⟨resource, s.running, s.forced⟩] }

/-- One statement of `Run`; where it is not reached or still waits, nothing happens. -/
def runStep (s : State ρ) (step : RunStep) : State ρ :=
  match s.phase, step with
  | .listening, .listen none => { s with phase := .selecting }
  | .listening, .listen (some cause) =>
    s.leave resources (.error ("listen on " ++ address ++ ": " ++ cause))
  | .selecting, .receiveError =>
    match s.served with
    | none => s
    | some error => s.leave resources error.result
  | .selecting, .receiveDone =>
    if s.cancelled = true then { s with phase := .shuttingDown, inShutdown := true } else s
  | .shuttingDown, .shutdownReturns listenerErr =>
    if s.running = 0 then { s with phase := .awaiting listenerErr, idle := 0 } else s
  | .shuttingDown, .shutdownExpires cause =>
    if s.expired = true then
      { s with phase := .awaiting (some cause), idle := 0, forced := true }
    else s
  | .awaiting shutdownErr, .receive =>
    match s.served with
    | none => s
    | some error =>
      match shutdownErr with
      | some cause => s.leave resources (.error ("graceful shutdown: " ++ cause))
      | none => s.leave resources error.result
  | .closing result index, .closeNext => s.closeNext resources result index
  | _, _ => s

/-- `Serve` runs: it was started and has not returned. -/
def State.Serving (s : State ρ) : Prop :=
  s.served = none ∧ match s.phase with
    | .selecting | .shuttingDown | .awaiting _ => True
    | _ => False

instance (s : State ρ) : Decidable s.Serving := by
  unfold State.Serving
  cases s.phase <;> infer_instance

/-- What `Run` returns, if it returns now. -/
def Phase.result : Phase → Option (Except String Unit)
  | .returned result => some result
  | _ => none

def stepState (s : State ρ) : Action → State ρ
  | .cancel => { s with cancelled := true }
  | .connect =>
    if s.Serving ∧ s.inShutdown = false then { s with idle := s.idle + 1 } else s
  | .request =>
    if 0 < s.idle then { s with idle := s.idle - 1, running := s.running + 1 } else s
  | .finish keepAlive =>
    if 0 < s.running then
      { s with
        running := s.running - 1
        idle := if keepAlive = true ∧ s.forced = false then s.idle + 1 else s.idle }
    else s
  | .hangUp => { s with idle := s.idle - 1 }
  | .acceptFails cause =>
    if s.Serving then
      { s with served := some (if s.inShutdown = true then .errServerClosed else .other cause) }
    else s
  | .deadline => if s.inShutdown = true then { s with expired := true } else s
  | .run step => runStep address resources s step

def step (s : State ρ) (a : Action) : State ρ × Option (Except String Unit) :=
  (stepState address resources s a,
    if s.phase.result.isSome then none else (stepState address resources s a).phase.result)

end Run

/-! ## What a statement can do -/

section Moves

variable {ρ : Type u} (resources : List ρ)

/-- The ways a statement of `Run` can change the state. -/
inductive Move (s : State ρ) : RunStep → State ρ → Prop where
  | waits (step : RunStep) : Move s step s
  | listened (phase : s.phase = .listening) :
    Move s (.listen none) { s with phase := .selecting }
  | unheard (phase : s.phase = .listening) (cause : String) (result : Except String Unit) :
    Move s (.listen (some cause)) (s.leave resources result)
  | failed (phase : s.phase = .selecting) (result : Except String Unit) :
    Move s .receiveError (s.leave resources result)
  | cancelled (phase : s.phase = .selecting) :
    Move s .receiveDone { s with phase := .shuttingDown, inShutdown := true }
  | drained (phase : s.phase = .shuttingDown) (quiet : s.running = 0) (err : Option String) :
    Move s (.shutdownReturns err) { s with phase := .awaiting err, idle := 0 }
  | forced (phase : s.phase = .shuttingDown) (cause : String) :
    Move s (.shutdownExpires cause)
      { s with phase := .awaiting (some cause), idle := 0, forced := true }
  | stopped {err : Option String} (phase : s.phase = .awaiting err) (result : Except String Unit) :
    Move s .receive (s.leave resources result)
  | closed {result : Except String Unit} {index : Nat} {resource : ρ}
    (phase : s.phase = .closing result (index + 1)) (found : resources[index]? = some resource) :
    Move s .closeNext { s with
      phase := .closing result index
      closed := s.closed ++ [⟨resource, s.running, s.forced⟩] }
  | finished {result : Except String Unit} (phase : s.phase = .closing result 0) :
    Move s .closeNext { s with phase := .returned result }

theorem runStep_move (address : String) (s : State ρ) (step : RunStep) :
    Move resources s step (runStep address resources s step) := by
  unfold runStep
  split
  · exact .listened ‹_›
  · exact .unheard ‹_› _ _
  · split
    · exact .waits _
    · exact .failed ‹_› _
  · split
    · exact .cancelled ‹_›
    · exact .waits _
  · split
    · exact .drained ‹_› ‹_› _
    · exact .waits _
  · split
    · exact .forced ‹_› _
    · exact .waits _
  · split
    · exact .waits _
    · split
      · exact .stopped ‹_› _
      · exact .stopped ‹_› _
  · rename_i result index phase
    cases index with
    | zero => exact .finished phase
    | succ index =>
      rw [State.closeNext]
      split
      · exact .waits _
      · exact .closed phase ‹_›
  · exact .waits _

end Moves

/-! ## The order of closing -/

section Order

variable {ρ : Type u} (resources : List ρ)

/-- How far the resources are closed. -/
def Closed (s : State ρ) : Prop :=
  match s.phase with
  | .closing _ index =>
    index ≤ resources.length ∧ s.closed.map Closing.resource = (resources.drop index).reverse
  | .returned _ => s.closed.map Closing.resource = resources.reverse
  | _ => s.closed = []

variable {resources} {address : String} {s s' : State ρ}

theorem Closed.leave (none : s.closed = []) (result : Except String Unit) :
    Closed resources (s.leave resources result) := by
  refine ⟨Nat.le_refl _, ?_⟩
  rw [List.drop_length]
  exact congrArg _ none

theorem Closed.move (before : Closed resources s) {step : RunStep}
    (move : Move resources s step s') : Closed resources s' := by
  cases move with
  | waits => exact before
  | listened phase =>
    rw [Closed, phase] at before
    exact before
  | unheard phase cause result =>
    rw [Closed, phase] at before
    exact Closed.leave before result
  | failed phase result =>
    rw [Closed, phase] at before
    exact Closed.leave before result
  | cancelled phase =>
    rw [Closed, phase] at before
    exact before
  | drained phase quiet err =>
    rw [Closed, phase] at before
    exact before
  | forced phase cause =>
    rw [Closed, phase] at before
    exact before
  | stopped phase result =>
    rw [Closed, phase] at before
    exact Closed.leave before result
  | @closed result index resource phase found =>
    rw [Closed, phase] at before
    obtain ⟨inside, order⟩ := before
    refine ⟨Nat.le_of_succ_le inside, ?_⟩
    obtain ⟨bound, rfl⟩ := List.getElem?_eq_some_iff.mp found
    rw [List.map_append, order, List.drop_eq_getElem_cons bound, List.reverse_cons]
    rfl
  | finished phase =>
    rw [Closed, phase] at before
    exact before.2

/-- Only statements of `Run` touch the phase and the record of closings. -/
theorem Closed.same (before : Closed resources s) (phase : s'.phase = s.phase)
    (closed : s'.closed = s.closed) : Closed resources s' := by
  unfold Closed at before ⊢
  rw [phase, closed]
  exact before

end Order

/-! ## Connections when resources are closed -/

section Safety

variable {ρ : Type u}

/-- No request runs or can start, or the connections were closed after the deadline. -/
def Stopped (s : State ρ) : Prop := s.forced = true ∨ (s.idle = 0 ∧ s.running = 0)

/-- What is known of the connections in each phase, provided that the server's failure was
only taken while no connection was open. -/
def Settled (s : State ρ) : Prop :=
  (∀ c ∈ s.closed, c.running = 0 ∨ c.forced = true) ∧
  match s.phase with
  | .listening => Stopped s
  | .selecting => True
  | .shuttingDown => s.inShutdown = true
  | .awaiting _ => s.inShutdown = true ∧ Stopped s
  | .closing _ _ => Stopped s
  | .returned _ => Stopped s

/-- Connections are closed by force at the end of a shutdown only. -/
def Unforced (s : State ρ) : Prop :=
  match s.phase with
  | .listening | .selecting | .shuttingDown => s.forced = false
  | _ => True

/-- The serving error is taken while no connection is open. -/
def Drained (s : State ρ) (a : Action) : Prop :=
  a = .run .receiveError → s.idle = 0 ∧ s.running = 0

variable {address : String} {resources : List ρ} {s s' : State ρ} {a : Action}

/-- What happens beside `Run` leaves its progress alone, and a stopped server stopped
unless it can still accept. -/
theorem stepState_beside (address : String) (resources : List ρ) (s : State ρ)
    (beside : ∀ step, a ≠ .run step) :
    (stepState address resources s a).phase = s.phase ∧
    (stepState address resources s a).closed = s.closed ∧
    (stepState address resources s a).forced = s.forced ∧
    (stepState address resources s a).inShutdown = s.inShutdown ∧
    (Stopped s → ¬ (s.Serving ∧ s.inShutdown = false) →
      Stopped (stepState address resources s a)) := by
  cases a with
  | cancel => exact ⟨rfl, rfl, rfl, rfl, fun stopped _ => stopped⟩
  | connect =>
    simp only [stepState]
    split
    · rename_i accepts
      exact ⟨rfl, rfl, rfl, rfl, fun _ closed => absurd accepts closed⟩
    · exact ⟨rfl, rfl, rfl, rfl, fun stopped _ => stopped⟩
  | request =>
    simp only [stepState]
    split
    · refine ⟨rfl, rfl, rfl, rfl, ?_⟩
      rintro (forced | ⟨none, _⟩) _
      · exact Or.inl forced
      · omega
    · exact ⟨rfl, rfl, rfl, rfl, fun stopped _ => stopped⟩
  | finish keepAlive =>
    simp only [stepState]
    split
    · refine ⟨rfl, rfl, rfl, rfl, ?_⟩
      rintro (forced | ⟨_, none⟩) _
      · exact Or.inl forced
      · omega
    · exact ⟨rfl, rfl, rfl, rfl, fun stopped _ => stopped⟩
  | hangUp =>
    refine ⟨rfl, rfl, rfl, rfl, ?_⟩
    rintro (forced | ⟨noIdle, noRunning⟩) _
    · exact Or.inl forced
    · refine Or.inr ⟨?_, noRunning⟩
      show s.idle - 1 = 0
      omega
  | acceptFails cause =>
    simp only [stepState]
    split
    · exact ⟨rfl, rfl, rfl, rfl, fun stopped _ => stopped⟩
    · exact ⟨rfl, rfl, rfl, rfl, fun stopped _ => stopped⟩
  | deadline =>
    simp only [stepState]
    split
    · exact ⟨rfl, rfl, rfl, rfl, fun stopped _ => stopped⟩
    · exact ⟨rfl, rfl, rfl, rfl, fun stopped _ => stopped⟩
  | run step => exact absurd rfl (beside step)

theorem Settled.move (settled : Settled s) {step : RunStep} (move : Move resources s step s')
    (drained : Drained s (.run step)) : Settled s' := by
  obtain ⟨safe, now⟩ := settled
  cases move with
  | waits => exact ⟨safe, now⟩
  | listened phase => exact ⟨safe, trivial⟩
  | unheard phase cause result =>
    rw [phase] at now
    exact ⟨safe, now⟩
  | failed phase result => exact ⟨safe, Or.inr (drained rfl)⟩
  | cancelled phase => exact ⟨safe, rfl⟩
  | drained phase quiet err =>
    rw [phase] at now
    exact ⟨safe, now, Or.inr ⟨rfl, quiet⟩⟩
  | forced phase cause =>
    rw [phase] at now
    exact ⟨safe, now, Or.inl rfl⟩
  | stopped phase result =>
    rw [phase] at now
    exact ⟨safe, now.2⟩
  | @closed result index resource phase found =>
    rw [phase] at now
    refine ⟨forall_mem_concat safe ?_, now⟩
    rcases now with forced | ⟨_, none⟩
    · exact Or.inr forced
    · exact Or.inl none
  | finished phase =>
    rw [phase] at now
    exact ⟨safe, now⟩

theorem Settled.beside (settled : Settled s) (beside : ∀ step, a ≠ .run step) :
    Settled (stepState address resources s a) := by
  obtain ⟨samePhase, sameClosed, _, sameShutdown, stays⟩ :=
    stepState_beside address resources s beside
  obtain ⟨safe, now⟩ := settled
  refine ⟨sameClosed ▸ safe, ?_⟩
  rw [samePhase]
  cases phase : s.phase with
  | listening =>
    rw [phase] at now
    exact stays now fun serving => by simp [State.Serving, phase] at serving
  | selecting => trivial
  | shuttingDown =>
    rw [phase] at now
    exact sameShutdown.trans now
  | awaiting err =>
    rw [phase] at now
    refine ⟨sameShutdown.trans now.1, stays now.2 ?_⟩
    rintro ⟨_, running⟩
    exact Bool.false_ne_true (running.symm.trans now.1)
  | closing result index =>
    rw [phase] at now
    exact stays now fun serving => by simp [State.Serving, phase] at serving
  | returned result =>
    rw [phase] at now
    exact stays now fun serving => by simp [State.Serving, phase] at serving

theorem Unforced.move (unforced : Unforced s) {step : RunStep} (move : Move resources s step s') :
    Unforced s' := by
  cases move with
  | waits => exact unforced
  | listened phase =>
    rw [Unforced, phase] at unforced
    exact unforced
  | cancelled phase =>
    rw [Unforced, phase] at unforced
    exact unforced
  | _ => trivial

end Safety

/-! ## Runs -/

section Runs

variable {ρ : Type u} {address : String} {resources : List ρ} {s : State ρ}
  {h : List (Action × Option (Except String Unit))}

theorem Action.run_or_beside (a : Action) : (∃ step, a = .run step) ∨ ∀ step, a ≠ .run step := by
  cases a with
  | run step => exact Or.inl ⟨step, rfl⟩
  | _ => exact Or.inr fun _ same => by cases same

theorem closed_run {legal : State ρ → Action → Prop}
    (run : Run (step address resources) legal (start true) h s) : Closed resources s := by
  have fresh : Closed resources (start true) := rfl
  refine Run.invariant (P := fun _ s => Closed resources s) fresh ?_ run
  intro _ s a _ closed _
  rcases a.run_or_beside with ⟨statement, rfl⟩ | beside
  · exact closed.move (runStep_move resources address s statement)
  · obtain ⟨phase, same, _⟩ := stepState_beside address resources s beside
    exact closed.same phase same

theorem settled_run (run : Run (step address resources) Drained (start true) h s) : Settled s := by
  have fresh : Settled (start true : State ρ) := by
    constructor
    · intro c mem
      cases mem
    · exact Or.inr ⟨rfl, rfl⟩
  refine Run.invariant (P := fun _ s => Settled s) fresh ?_ run
  intro _ s a _ settled drained
  rcases a.run_or_beside with ⟨statement, rfl⟩ | beside
  · exact settled.move (runStep_move resources address s statement) drained
  · exact settled.beside beside

theorem unforced_run {legal : State ρ → Action → Prop}
    (run : Run (step address resources) legal (start true) h s) : Unforced s := by
  have fresh : Unforced (start true : State ρ) := rfl
  refine Run.invariant (P := fun _ s => Unforced s) fresh ?_ run
  intro _ s a _ unforced _
  rcases a.run_or_beside with ⟨statement, rfl⟩ | beside
  · exact unforced.move (runStep_move resources address s statement)
  · obtain ⟨phase, _, forced, _⟩ := stepState_beside address resources s beside
    show Unforced (stepState address resources s a)
    rw [Unforced, phase, forced]
    exact unforced

/-- After the serving error the next two statements close a resource beside the handlers. -/
theorem closes_beside_handlers (address : String) {error : ServeError}
    (phase : s.phase = .selecting)
    (served : s.served = some error) (unforced : s.forced = false) (busy : 0 < s.running)
    (owned : resources ≠ []) :
    ∃ h t, Run (step address resources) (fun _ _ => True) s h t ∧
      ∃ c ∈ t.closed, 0 < c.running ∧ c.forced = false := by
  obtain ⟨front, last, rfl⟩ := List.eq_nil_or_concat resources |>.resolve_left owned
  have legal : LegalPlay (step address (front.concat last)) (fun _ _ => True) s
      [.run .receiveError, .run .closeNext] := ⟨trivial, trivial, trivial⟩
  refine ⟨_, _, Run.of_play legal, ⟨last, s.running, s.forced⟩, ?_, busy, unforced⟩
  simp [play, step, stepState, runStep, phase, served, State.leave, State.closeNext]

end Runs

/-- What is promised of the resources in every state of a run. -/
structure Released {ρ : Type u} (resources : List ρ) (s : State ρ) : Prop where
  /-- A resource is closed when no handler runs, or after the connections were closed by force
  at the deadline. -/
  safe : ∀ c ∈ s.closed, c.running = 0 ∨ c.forced = true
  /-- Resources are closed from the last one registered on, each once. -/
  in_order : s.closed.map Closing.resource <+: resources.reverse
  complete : ∀ result, s.phase = .returned result →
    s.closed.map Closing.resource = resources.reverse

theorem Closed.in_order {ρ : Type u} {resources : List ρ} {s : State ρ}
    (closed : Closed resources s) : s.closed.map Closing.resource <+: resources.reverse := by
  unfold Closed at closed
  split at closed
  · rename_i index _
    refine ⟨(resources.take index).reverse, ?_⟩
    rw [closed.2, ← List.reverse_append, List.take_append_drop]
  · exact ⟨[], by rw [closed, List.append_nil]⟩
  · exact ⟨resources.reverse, by rw [closed]; rfl⟩

/-- Resources are released after the server was stopped in every run that takes the serving
error only while no connection is open. Where it is taken beside an open connection, the run
can go on to close a resource while a handler runs. -/
theorem released_after_stop {ρ : Type u} (address : String) (resources : List ρ) :
    (∀ h s, Run (step address resources) Drained (start true) h s → Released resources s) ∧
    ∀ h s error, Run (step address resources) (fun _ _ => True) (start true) h s →
      s.phase = .selecting → s.served = some error → 0 < s.idle + s.running → resources ≠ [] →
      ∃ h' t, Run (step address resources) (fun _ _ => True) s h' t ∧
        ∃ c ∈ t.closed, 0 < c.running ∧ c.forced = false := by
  constructor
  · intro h s run
    have closed := closed_run run
    refine ⟨(settled_run run).1, closed.in_order, ?_⟩
    intro result phase
    rw [Closed, phase] at closed
    exact closed
  · intro h s error run phase served connected owned
    have unforced := unforced_run run
    rw [Unforced, phase] at unforced
    by_cases busy : 0 < s.running
    · exact closes_beside_handlers address phase served unforced busy owned
    · -- an idle connection brings a request first
      have idle : 0 < s.idle := by omega
      have arrives : (step address resources s .request).1 =
          { s with idle := s.idle - 1, running := s.running + 1 } := by
        simp only [step, stepState, if_pos idle]
      obtain ⟨h', t, rest, closing⟩ := closes_beside_handlers address
        (s := (step address resources s .request).1) (by rw [arrives]; exact phase)
        (by rw [arrives]; exact served) (by rw [arrives]; exact unforced)
        (by rw [arrives]; exact Nat.succ_pos _) owned
      exact ⟨_, t, Run.cons trivial rest, closing⟩

/-- A listener that fails beside a running handler: the pool is closed under it. -/
theorem closed_beside_handler :
    let final := (play (step "127.0.0.1:8080" ["pool"]) (start true) [
      .run (.listen none), .connect, .request,
      .acceptFails "accept tcp: use of closed network connection",
      .run .receiveError, .run .closeNext, .run .closeNext]).2
    final.closed = [⟨"pool", 1, false⟩] ∧ ¬ Released ["pool"] final := by
  intro final
  have closed : final.closed = [⟨"pool", 1, false⟩] := by decide
  refine ⟨closed, fun released => ?_⟩
  have safe := released.safe ⟨"pool", 1, false⟩ (by rw [closed]; exact List.mem_singleton.mpr rfl)
  simp at safe

/-- A cancelled run waits for its handler, and a second one has its connection closed at the
deadline; either way the two resources are closed in reverse order. -/
theorem released_after_cancel :
    let actions : List Action := [.run (.listen none), .connect, .connect, .request, .request,
      .cancel, .run .receiveDone, .acceptFails "", .finish true, .deadline,
      .run (.shutdownExpires "context deadline exceeded"), .run .receive,
      .run .closeNext, .run .closeNext, .run .closeNext]
    let final := (play (step "127.0.0.1:8080" ["pool", "cache"]) (start true) actions).2
    final.closed = [⟨"cache", 1, true⟩, ⟨"pool", 1, true⟩] ∧
      Released ["pool", "cache"] final := by
  intro actions final
  refine ⟨by decide, ?_⟩
  refine (released_after_stop "127.0.0.1:8080" ["pool", "cache"]).1 _ _ (Run.of_play ?_)
  simp [actions, LegalPlay, Drained]

end AppLifecycle
