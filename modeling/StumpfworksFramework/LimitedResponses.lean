import StumpfworksFramework.ConcurrencyLimit

/-!
# Answers to requests that were not run

A request that the limiter refuses leaves it by one of two cases of its select.
When its time in the queue is over, or no slot is free and there is no queue, it
is answered with 503. When its context ends first, nothing is written, and the
server makes a 200 of it. The middleware around the limiter is the pair of
status recorders; another one that writes after the limiter has returned is not
considered.
-/

namespace LimitedResponses

open Runs ResponseStatus ConcurrencyLimit

/-- The status that the server sends for a request. -/
def sentStatus (r : Request) : Int := r.response.inner.inner.sent

def Success (status : Int) : Prop := 200 ≤ status ∧ status ≤ 299

instance (status : Int) : Decidable (Success status) := inferInstanceAs (Decidable (_ ∧ _))

/-- The wrapped handler returned and has not called `next`. -/
def NotRun (r : Request) : Prop := (∃ outcome, r.stage = .done outcome) ∧ r.nextCalls = 0

/-- No waiting request leaves its select because its context has ended. -/
def Patient (s : State) (a : Action) : Prop :=
  ∀ (i : Nat) (r : Request), a = .request i (.choose .context) → s.requests[i]? = some r →
    r.stage = .waiting → r.contextDone = false

section Answers

variable {L : Limiter} {texts : Texts} {s : State} {r : Request}

theorem refused_statuses (texts : Texts) (requestID : String) :
    (refused texts requestID).inner.inner.sent = 503 ∧
    metricsStatus (refused texts requestID).inner = 503 ∧
    accessLogStatus (refused texts requestID) = 503 := ⟨rfl, rfl, rfl⟩

/-- A request that was not run was rejected or cancelled, and is answered accordingly. -/
theorem notRun_cases (fits : r.Fits texts) (notRun : NotRun r) :
    (r.stage.outcome = some .rejected ∧ r.response = refused texts r.requestID) ∨
    (r.stage.outcome = some .cancelled ∧ r.response = stackStart) := by
  obtain ⟨⟨outcome, stage⟩, none⟩ := notRun
  have reached : r.stage.outcome = some outcome := by rw [stage]; rfl
  have ended := fits.ended reached
  cases outcome with
  | ran panicked =>
    have once := ended.1
    omega
  | rejected => exact Or.inl ⟨reached, ended.2.2.2⟩
  | cancelled => exact Or.inr ⟨reached, ended.2.2.2⟩

theorem success_iff_cancelled (fits : r.Fits texts) (notRun : NotRun r) :
    Success (sentStatus r) ↔ r.stage.outcome = some .cancelled := by
  rcases notRun_cases fits notRun with ⟨rejected, response⟩ | ⟨cancelled, response⟩
  · rw [sentStatus, response, (refused_statuses texts r.requestID).1, rejected]
    simp [Success]
  · rw [sentStatus, response]
    exact ⟨fun _ => cancelled, fun _ => by decide⟩

/-- A request is cancelled by the context case of its select alone. -/
theorem advance_cancelled {occupied : Nat} {step : RequestStep}
    (cancelled : (r.advance L texts occupied step).2.stage.outcome = some .cancelled) :
    r.stage.outcome = some .cancelled ∨
      (r.stage = .waiting ∧ step = .choose .context ∧ r.contextDone = true) := by
  unfold Request.advance at cancelled
  split at cancelled
  · exact Or.inl cancelled
  · split at cancelled
    · exact Or.inl cancelled
    · exact Or.inl cancelled
  · split at cancelled
    · split at cancelled
      · cases cancelled
      · cases cancelled
    · cases cancelled
  · split at cancelled
    · cases cancelled
    · exact Or.inl cancelled
  · split at cancelled
    · cases cancelled
    · exact Or.inl cancelled
  · rename_i stage
    split at cancelled
    · exact Or.inr ⟨stage, rfl, ‹_›⟩
    · exact Or.inl cancelled
  · cases cancelled
  · exact Or.inl cancelled
  · cases cancelled
  · rename_i outcome stage
    rw [stage]
    split at cancelled
    · exact Or.inl cancelled
    · rw [← stage]
      exact Or.inl cancelled
    · split at cancelled
      · rw [← stage]
        exact Or.inl cancelled
      · rw [← stage]
        exact Or.inl cancelled
  · exact Or.inl cancelled

theorem never_cancelled {h : List (Action × Unit)}
    (run : Run (step L texts) Patient start h s) :
    ∀ (i : Nat) (r : Request), s.requests[i]? = some r → r.stage.outcome ≠ some .cancelled := by
  have fresh : ∀ (i : Nat) (r : Request), start.requests[i]? = some r →
      r.stage.outcome ≠ some .cancelled := by
    intro i r found
    cases found
  refine Run.invariant (P := fun _ s => ∀ (i : Nat) (r : Request), s.requests[i]? = some r →
    r.stage.outcome ≠ some .cancelled) fresh ?_ run
  intro _ s a _ never patient
  cases a with
  | arrive requestID =>
    intro i r found
    rcases getElem?_concat_cases found with old | ⟨_, rfl⟩
    · exact never i r old
    · intro cancelled
      cases cancelled
  | request i first =>
    intro j r' found'
    simp only [step, stepState] at found'
    split at found'
    · exact never j r' found'
    · rename_i r found
      rcases getElem?_set_cases found' with ⟨_, rfl⟩ | ⟨_, other⟩
      · intro cancelled
        rcases advance_cancelled cancelled with before | ⟨waiting, rfl, ended⟩
        · exact never i r found before
        · exact Bool.false_ne_true ((patient i r rfl found waiting).symm.trans ended)
      · exact never j r' other

/-- A request may take any steps on its own. -/
theorem run_advances (L : Limiter) (texts : Texts) {i : Nat} (found : s.requests[i]? = some r)
    (steps : List RequestStep) :
    ∃ h t, Run (step L texts) (fun _ _ => True) s h t ∧
      t.requests[i]? = some (advances L texts (s.occupied, r) steps).2 := by
  have legal : LegalPlay (step L texts) (fun _ _ => True) s (steps.map (Action.request i)) :=
    legalPlay_of_forall (fun _ _ _ => trivial) s
  obtain ⟨inside, _⟩ := List.getElem?_eq_some_iff.mp found
  refine ⟨_, _, Run.of_play legal, ?_⟩
  rw [play_request L texts found]
  exact List.getElem?_set_self inside

theorem advances_cancel (L : Limiter) (texts : Texts) {occupied : Nat}
    (waiting : r.stage = .waiting) (ended : r.contextDone = true) (enough : r.held ≤ occupied) :
    (advances L texts (occupied, r)
      (.choose .context :: List.replicate (r.deferred.length + 1) .unwind)).2.stage =
        .done .cancelled := by
  have chosen : r.advance L texts occupied (.choose .context) =
      (occupied, { r with stage := .leaving .cancelled }) := by
    simp only [Request.advance, waiting]
    exact if_pos ended
  rw [advances, List.foldl_cons, chosen]
  exact advances_unwind L texts (r := { r with stage := .leaving .cancelled }) rfl enough

/-- A waiting request whose context has ended can go on to an answer of 200. -/
theorem cancels {h : List (Action × Unit)} (run : Run (step L texts) (fun _ _ => True) start h s)
    {i : Nat} (found : s.requests[i]? = some r) (waiting : r.stage = .waiting)
    (ended : r.contextDone = true) :
    ∃ h' t r', Run (step L texts) (fun _ _ => True) s h' t ∧ t.requests[i]? = some r' ∧
      NotRun r' ∧ sentStatus r' = 200 := by
  have done := advances_cancel L texts waiting ended ((run_inv run).held_le found)
  obtain ⟨h', t, left, there⟩ := run_advances L texts found
    (.choose .context :: List.replicate (r.deferred.length + 1) .unwind)
  have fits := (run_inv (run.trans left)).fits i _ there
  obtain ⟨none, _, _, response⟩ := fits.ended (congrArg Stage.outcome done)
  refine ⟨h', t, _, left, there, ⟨⟨_, done⟩, none⟩, ?_⟩
  rw [sentStatus, response]
  rfl

end Answers

/-- In every run in which no waiting request leaves for its context, a request that was not run
is answered, counted and logged with 503. In any run such a request is answered with a success
exactly if it was cancelled, and a waiting request whose context has ended can come to that. -/
theorem notRun_not_success (L : Limiter) (texts : Texts) :
    (∀ h s, Run (step L texts) Patient start h s → ∀ r ∈ s.requests, NotRun r →
      sentStatus r = 503 ∧ ¬ Success (sentStatus r) ∧ metricsStatus r.response.inner = 503 ∧
        accessLogStatus r.response = 503) ∧
    (∀ h s, Run (step L texts) (fun _ _ => True) start h s → ∀ r ∈ s.requests, NotRun r →
      (Success (sentStatus r) ↔ r.stage = .done .cancelled)) ∧
    ∀ h s (i : Nat) (r : Request), Run (step L texts) (fun _ _ => True) start h s →
      s.requests[i]? = some r → r.stage = .waiting → r.contextDone = true →
      ∃ h' t r', Run (step L texts) (fun _ _ => True) s h' t ∧ t.requests[i]? = some r' ∧
        NotRun r' ∧ sentStatus r' = 200 := by
  refine ⟨?_, ?_, ?_⟩
  · intro h s run r mem notRun
    obtain ⟨i, found⟩ := List.getElem?_of_mem mem
    rcases notRun_cases ((run_inv run).fits i r found) notRun with ⟨_, response⟩ | ⟨cancelled, _⟩
    · obtain ⟨sent, metrics, accessLog⟩ := refused_statuses texts r.requestID
      rw [sentStatus, response, sent]
      exact ⟨rfl, by simp [Success], metrics, accessLog⟩
    · exact absurd cancelled (never_cancelled run i r found)
  · intro h s run r mem notRun
    rw [success_iff_cancelled ((run_inv run).fits_mem mem) notRun]
    obtain ⟨⟨outcome, stage⟩, _⟩ := notRun
    rw [stage]
    simp [Stage.outcome]
  · intro h s i r run found waiting ended
    exact cancels run found waiting ended

/-- A client gives up while it waits: the server sends, and both recorders note, a 200. -/
theorem cancelled_while_waiting :
    let L : Limiter := ⟨1, 1000000000, by decide, by decide⟩
    let final := (play (step L plainTexts) start [.arrive "a", .arrive "b", .request 0 .attempt,
      .request 0 (.choose .slot), .request 0 .start, .request 1 .attempt, .request 1 .contextEnds,
      .request 1 (.choose .context), .request 1 .unwind, .request 1 .unwind]).2
    (final.requests.map fun r => (r.stage, r.nextCalls, sentStatus r,
      metricsStatus r.response.inner, accessLogStatus r.response))[1]? =
        some (.done .cancelled, 0, 200, 200, 200) := by
  decide +kernel

/-- A request whose time in the queue runs out beside a running handler. -/
theorem rejected_while_waiting :
    let L : Limiter := ⟨1, 1000000000, by decide, by decide⟩
    let final := (play (step L plainTexts) start [.arrive "a", .arrive "b", .request 0 .attempt,
      .request 0 (.choose .slot), .request 0 .start, .request 1 .attempt, .request 1 .timerFires,
      .request 1 (.choose .timer), .request 1 .unwind, .request 1 .unwind]).2
    ∃ r ∈ final.requests, NotRun r ∧ sentStatus r = 503 := by
  intro L final
  have found : final.requests[1]?.map (fun r => (r.stage, r.nextCalls)) =
      some (.done .rejected, 0) := by decide +kernel
  obtain ⟨r, here, facts⟩ := Option.map_eq_some_iff.mp found
  have notRun : NotRun r := ⟨⟨_, congrArg Prod.fst facts⟩, congrArg Prod.snd facts⟩
  have mem := List.mem_of_getElem? here
  refine ⟨r, mem, notRun, ?_⟩
  refine ((notRun_not_success L plainTexts).1 _ _ (Run.of_play ?_) r mem notRun).1
  refine legalPlay_of_forall ?_ _
  simp [Patient]

end LimitedResponses
