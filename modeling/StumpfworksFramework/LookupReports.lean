import StumpfworksFramework.DirectoryLookup

/-!
# Every lookup is reported once and truthfully

The ways in which a lookup can end are listed once, in `Ended`, with the
variable the report reads, the results and what the directory had answered. All
that is said about reports follows from that list.
-/

namespace LookupReports

open ByteStrings DirectoryLookup EarlyReturns Utf8Runes

/-! ## Contexts -/

theorem err_of_le {ctx : Context} {m n : Nat} (le : m ≤ n) {e : ContextError}
    (ended : ctx.err m = some e) : ctx.err n = some e := by
  unfold Context.err at ended ⊢
  split at ended
  · cases ended
  · split at ended
    · rename_i early
      rw [if_pos (early.trans le)]
      exact ended
    · cases ended

/-- While the derived context lasts, so does its parent. -/
theorem parent_lasts {parent : Context} {timer now : Nat}
    (lasts : (parent.withTimeout timer).err now = none) : parent.err now = none := by
  unfold Context.withTimeout at lasts
  cases h : parent.ending with
  | none => simp [Context.err, h]
  | some ending =>
    obtain ⟨instant, error⟩ := ending
    rw [h] at lasts
    simp only [Context.err, h]
    rw [if_neg]
    intro ended
    by_cases first : instant ≤ timer
    · simp [first, Context.err, ended] at lasts
    · have passed : timer ≤ now := by omega
      simp [first, Context.err, passed] at lasts

/-! ## How a lookup ends -/

/-- The input is turned down before a connection is attempted. -/
def Rejected (W : World) (ctx : Option Context) (username : Bytes) : Prop :=
  ctx = none ∨ username.length > 256 ∨ validUTF8 username = false ∨ W.trimSpace username = [] ∨
    0 ∈ W.trimSpace username

/-- The outcome that stands for an error. -/
def outcomeOf : LookupError → LookupOutcome
  | .errUnavailable => .unavailable
  | .errNotFound => .notFound
  | .errAmbiguous => .ambiguous
  | .context .canceled => .canceled
  | .context .deadlineExceeded => .timeout
  | .other _ => .invalidInput

section Endings

variable (W : World) (r : Reader) (parent : Context) (username : Bytes)

/-- What the search answered. -/
def answer : Except String SearchResult := W.search (searchRequest W r (W.trimSpace username))

/-- What a lookup has done up to the reading of the context that follows its search. -/
def searched : List Event :=
  [.dial r.address r.hostname, .bind r.bindDN r.bindPassword,
    .search (searchRequest W r (W.trimSpace username)), .contextErr none]

/-- The context lasted beyond the search. -/
def Lasted : Prop := (parent.withTimeout (W.timer r.timeout)).err (W.clock 3) = none

/-- The ways in which a lookup with accepted input can end. -/
inductive Ending : Results → LookupOutcome → List Event → Prop where
  | interrupted (e : ContextError) {trace : List Event} :
      Ending (none, some (.context e)) (outcomeOf (.context e)) trace
  | unavailable {trace : List Event} : Ending (none, some .errUnavailable) .unavailable trace
  | missing {result : SearchResult} (answered : answer W r username = .ok result)
      (empty : result.entries = []) (local_only : result.referrals = []) {trace : List Event} :
      Ending (none, some .errNotFound) .notFound trace
  | several {result : SearchResult} (answered : answer W r username = .ok result)
      (many : 2 ≤ result.entries.length) {trace : List Event} :
      Ending (none, some .errAmbiguous) .ambiguous trace
  | found {result : SearchResult} {entry : Entry} (answered : answer W r username = .ok result)
      (one : result.entries = [entry]) (named : entry.user.username ≠ [])
      (lasted : Lasted W r parent) {trace : List Event}
      (order : searched W r username <+: trace) :
      Ending (some entry.user, none) .success trace

/-- An ending after the dial, which has not been observed yet. -/
structure Ended (results : Results) (f : Frame) : Prop where
  ending : Ending W r parent username results f.outcome f.trace
  dialed : [.dial r.address r.hostname] <+: f.trace
  quiet : ∀ o, .observe o ∉ f.trace

variable {W r parent username}

theorem Ending.longer {results : Results} {outcome : LookupOutcome} {trace trace' : List Event}
    (ending : Ending W r parent username results outcome trace) (longer : trace <+: trace') :
    Ending W r parent username results outcome trace' := by
  cases ending with
  | interrupted e => exact .interrupted e
  | unavailable => exact .unavailable
  | missing answered empty alone => exact .missing answered empty alone
  | several answered many => exact .several answered many
  | found answered one named lasted order =>
    exact .found answered one named lasted (order.trans longer)

/-- A trace after the dial, without an observation. -/
structure Underway (r : Reader) (l : List Event) : Prop where
  dialed : [.dial r.address r.hostname] <+: l
  quiet : ∀ o, .observe o ∉ l

theorem Underway.append {l more : List Event} (underway : Underway r l)
    (silent : ∀ o, .observe o ∉ more) : Underway r (l ++ more) := by
  refine ⟨underway.dialed.trans (List.prefix_append _ _), ?_⟩
  intro o observed
  rcases List.mem_append.mp observed with before | later
  · exact underway.quiet o before
  · exact silent o later

/-- The deferred closings change nothing about how a lookup ended. -/
theorem Ended.log {results : Results} {f : Frame} (ended : Ended W r parent username results f)
    {e : Event} (silent : ∀ o, .observe o ∉ [e]) :
    Ended W r parent username results (f.log e) := by
  have underway : Underway r f.trace := ⟨ended.dialed, ended.quiet⟩
  obtain ⟨dialed, quiet⟩ := underway.append silent
  exact ⟨ended.ending.longer (List.prefix_append _ _), dialed, quiet⟩

/-! ## The pieces of the body -/

/-- The report to be made, and what has been done. -/
structure At (outcome : LookupOutcome) (l : List Event) (f : Frame) : Prop where
  outcome : f.outcome = outcome
  trace : f.trace = l

variable {outcome : LookupOutcome} {l : List Event} {out : Results → Frame → Prop}

theorem setStage_at (stage : LookupStage) :
    Triple (At outcome l) (setStage stage) (fun _ => At outcome l) out := by
  apply Triple.assign
  rintro f ⟨decided, trace⟩
  exact ⟨decided, trace⟩

theorem setOutcome_at (next : LookupOutcome) :
    Triple (At outcome l) (setOutcome next) (fun _ => At next l) out := by
  apply Triple.assign
  rintro f ⟨_, trace⟩
  exact ⟨rfl, trace⟩

theorem log_at {f : Frame} (before : At outcome l f) (e : Event) :
    At outcome (l ++ [e]) (f.log e) := by
  obtain ⟨decided, rfl⟩ := before
  exact ⟨decided, rfl⟩

theorem perform_at {α : Type} (e : Event) (reply : α) :
    Triple (At outcome l) (perform e reply) (fun a f => a = reply ∧ At outcome (l ++ [e]) f)
      out := by
  intro f before
  refine ⟨?_, ?_⟩
  · rintro _ _ ⟨⟩
    exact ⟨rfl, log_at before e⟩
  · rintro _ _ ⟨⟩

theorem contextErr_at (ctx : Context) :
    Triple (At outcome l) (contextErr W ctx)
      (fun e f => e = ctx.err (W.clock l.length) ∧ At outcome (l ++ [.contextErr e]) f) out := by
  intro f before
  have now : f.trace.length = l.length := by rw [before.trace]
  refine ⟨?_, ?_⟩
  · rintro _ _ ⟨⟩
    exact ⟨by rw [now], log_at before _⟩
  · rintro _ _ ⟨⟩

/-- A context that has ended is still ended, with the same error, when it is read again. -/
theorem returnIfEnded_spec (ctx : Context)
    (leaves : ∀ e f, At (outcomeOf (.context e)) (l ++ List.replicate 3 (.contextErr (some e))) f →
      out (none, some (.context e)) f) :
    Triple (At .unavailable l) (returnIfEnded W ctx)
      (fun _ f => ctx.err (W.clock l.length) = none ∧
        At .unavailable (l ++ [.contextErr none]) f) out := by
  refine Triple.bind_assuming (contextErr_at ctx) fun ended first => ?_
  apply Triple.onlyIf
  · intro done
    obtain ⟨e, rfl⟩ := Option.ne_none_iff_exists'.mp done
    have still : ∀ n, l.length ≤ n → ctx.err (W.clock n) = some e := fun n le =>
      err_of_le (W.forward _ _ le) first.symm
    refine Triple.bind_assuming (contextErr_at ctx) fun reason second => ?_
    rw [still _ (by simp)] at second
    subst second
    have kind : (if some e = some .deadlineExceeded then LookupOutcome.timeout else .canceled) =
        outcomeOf (.context e) := by
      cases e <;> rfl
    rw [kind]
    refine Triple.bind (setOutcome_at _) fun _ => ?_
    refine Triple.bind_assuming (contextErr_at ctx) fun error third => ?_
    rw [still _ (by simp)] at third
    subst third
    apply Triple.exit
    intro f after
    apply leaves e f
    rw [List.append_assoc, List.append_assoc] at after
    exact after
  · intro lasts f after
    rw [not_not] at lasts
    subst lasts
    exact ⟨first.symm, after⟩

theorem ended_at {results : Results} {f : Frame} (after : At outcome l f)
    (ending : Ending W r parent username results outcome l) (underway : Underway r l) :
    Ended W r parent username results f := by
  obtain ⟨rfl, rfl⟩ := after
  exact ⟨ending, underway.dialed, underway.quiet⟩

/-- The block after dial, bind and search, in terms of the endings. -/
theorem returnIfEnded_ended (ctx : Context) (underway : Underway r l) :
    Triple (At .unavailable l) (returnIfEnded W ctx)
      (fun _ f => ctx.err (W.clock l.length) = none ∧
        At .unavailable (l ++ [.contextErr none]) f) (Ended W r parent username) := by
  apply returnIfEnded_spec
  intro e f after
  exact ended_at after (.interrupted e) (underway.append (by simp))

theorem fail_unavailable {α : Type} {through : α → Frame → Prop} (underway : Underway r l) :
    Triple (At .unavailable l) (fail .errUnavailable) through (Ended W r parent username) := by
  apply Triple.exit
  intro f after
  exact ended_at after .unavailable underway

/-- A failed dial or bind. -/
theorem refused_ended (ctx : Context) {through : Results → Frame → Prop}
    (underway : Underway r l) :
    Triple (At .unavailable l)
      (do
        returnIfEnded W ctx
        fail .errUnavailable)
      through (Ended W r parent username) := by
  refine Triple.bind_assuming (returnIfEnded_ended ctx underway) fun _ _ => ?_
  exact fail_unavailable (underway.append (by simp))

theorem conclude_ended {result : SearchResult} (answered : answer W r username = .ok result)
    (lasted : Lasted W r parent) :
    Triple (At .unavailable (searched W r username)) (conclude result)
      (Ended W r parent username) (Ended W r parent username) := by
  have underway : Underway r (searched W r username) := ⟨⟨_, rfl⟩, by simp [searched]⟩
  unfold conclude
  refine Triple.guarded (fun _ => fail_unavailable underway) fun own => ?_
  refine Triple.bind (setStage_at .result) fun _ => ?_
  -- one case for each length of the result that the source tells apart
  rcases entries : result.entries with _ | ⟨entry, _ | ⟨second, more⟩⟩
  · have alone : result.referrals = [] := by
      by_contra referred
      exact own ⟨entries, referred⟩
    refine Triple.bind (setOutcome_at .notFound) fun _ => Triple.exit ?_
    intro f after
    exact ended_at after (.missing answered entries alone) underway
  · refine Triple.guarded (fun _ => fail_unavailable underway) fun named => ?_
    refine Triple.bind (setOutcome_at .success) fun _ => Triple.pure ?_
    intro f after
    exact ended_at after (.found answered entries named lasted (List.prefix_refl _)) underway
  · refine Triple.bind (setOutcome_at .ambiguous) fun _ => Triple.exit ?_
    intro f after
    have many : 2 ≤ result.entries.length := by
      rw [entries]
      simp
    exact ended_at after (.several answered many) underway

theorem converse_ended :
    Triple (At .unavailable [.dial r.address r.hostname])
      (converse W r (parent.withTimeout (W.timer r.timeout)) (W.trimSpace username))
      (Ended W r parent username) (Ended W r parent username) := by
  unfold converse
  refine Triple.bind (setStage_at .bind) fun _ => ?_
  refine Triple.bind_assuming (perform_at _ _) fun bound _ => ?_
  rcases bound with _ | _
  · exact refused_ended _ ⟨⟨_, rfl⟩, by simp⟩
  · refine Triple.bind (setStage_at .search) fun _ => ?_
    refine Triple.bind_assuming (perform_at _ _) fun found answered => ?_
    refine Triple.bind_assuming (returnIfEnded_ended _ ⟨⟨_, rfl⟩, by simp⟩) fun _ lasted => ?_
    rcases found with _ | result
    · exact fail_unavailable ⟨⟨_, rfl⟩, by simp⟩
    · exact conclude_ended answered.symm lasted

end Endings

/-- What a call leaves for its report: nothing was done for input that is turned down, and
otherwise the call ended in one of the listed ways. -/
def Left (W : World) (r : Reader) (ctx : Option Context) (username : Bytes) (results : Results)
    (f : Frame) : Prop :=
  (Rejected W ctx username ∧ f.outcome = .invalidInput ∧ f.trace = [] ∧
    ∃ text, results = (none, some (.other text))) ∨
  (¬Rejected W ctx username ∧ (∃ parent, ctx = some parent ∧ Ended W r parent username results f) ∧
    (W.dial r.address r.hostname = .ok () → [.connClose, .rawClose] <:+ f.trace))

section Body

variable {W : World} {r : Reader} {ctx : Option Context} {username : Bytes}

theorem reject_left {α : Type} {through : α → Frame → Prop} (rejected : Rejected W ctx username)
    (text : String) :
    Triple (At .unavailable []) (reject text) through (Left W r ctx username) := by
  refine Triple.bind (setOutcome_at .invalidInput) fun _ => Triple.exit ?_
  rintro f ⟨decided, still⟩
  exact Or.inl ⟨rejected, decided, still, text, rfl⟩

theorem checkedUsername_left {parent : Context} :
    Triple (At .unavailable []) (checkedUsername W username)
      (fun name f => (¬Rejected W (some parent) username ∧ name = W.trimSpace username) ∧
        At .unavailable [] f) (Left W r (some parent) username) := by
  unfold checkedUsername
  refine Triple.guarded (fun bad => reject_left (Or.inr (bad.imp_right Or.inl)) _) fun shaped => ?_
  refine Triple.guarded (fun bad => reject_left (Or.inr (Or.inr (Or.inr bad))) _) fun filled => ?_
  apply Triple.pure
  intro f before
  refine ⟨⟨?_, rfl⟩, before⟩
  rintro (missing | long | invalid | bad)
  · cases missing
  · exact shaped (Or.inl long)
  · exact shaped (Or.inr invalid)
  · exact filled bad

theorem body_left :
    Triple (At .unavailable []) (body W r ctx username) (Left W r ctx username)
      (Left W r ctx username) := by
  unfold body
  rcases ctx with _ | parent
  · exact reject_left (Or.inl rfl) _
  · refine Triple.bind_assuming checkedUsername_left ?_
    rintro name ⟨accepted, rfl⟩
    refine Triple.bind (setStage_at .connect) fun _ => ?_
    refine Triple.bind_assuming (perform_at _ _) fun raw answered => ?_
    rcases raw with _ | _
    · have unopened : ∀ results f, Ended W r parent username results f →
          Left W r (some parent) username results f := fun results f ended =>
        Or.inr ⟨accepted, ⟨parent, rfl, ended⟩, fun opened => nomatch answered.trans opened⟩
      exact (refused_ended _ ⟨⟨_, rfl⟩, by simp⟩).weaken (fun _ h => h) (fun _ _ h => h) unopened
    · -- the two closings keep the ending and are the last that is done
      have inner : ∀ results f, Ended W r parent username results f →
          Ended W r parent username results (f.log .connClose) ∧
            [.connClose] <:+ (f.log .connClose).trace := fun results f ended =>
        ⟨ended.log (by simp), List.suffix_append _ _⟩
      have outer : ∀ results f, Ended W r parent username results f ∧ [.connClose] <:+ f.trace →
          Left W r (some parent) username results (f.log .rawClose) := by
        rintro results f ⟨ended, before, trace⟩
        refine Or.inr ⟨accepted, ⟨parent, rfl, ended.log (by simp)⟩, fun _ => ⟨before, ?_⟩⟩
        rw [Frame.log, ← trace, List.append_assoc]
        rfl
      exact (converse_ended.deferring inner inner).deferring outer outer

end Body

/-! ## Reports -/

/-- An outcome says which results a call has. -/
structure Truthful (outcome : LookupOutcome) (results : Results) : Prop where
  success : outcome = .success ↔ ∃ user, results.1 = some user
  no_error : results.2 = none ↔ ∃ user, results.1 = some user
  notFound : outcome = .notFound ↔ results.2 = some .errNotFound
  ambiguous : outcome = .ambiguous ↔ results.2 = some .errAmbiguous
  timeout : outcome = .timeout ↔ results.2 = some (.context .deadlineExceeded)
  canceled : outcome = .canceled ↔ results.2 = some (.context .canceled)
  unavailable : outcome = .unavailable ↔ results.2 = some .errUnavailable

/-- The one report `o` of a call with its results and everything it did. -/
structure Reported (W : World) (r : Reader) (ctx : Option Context) (username : Bytes)
    (results : Results) (trace : List Event) (o : LookupObservation) : Prop where
  once : ∃ done, trace = done ++ [.observe o] ∧ ∀ o', .observe o' ∉ done
  truthful : Truthful o.outcome results
  invalidInput : o.outcome = .invalidInput ↔ Rejected W ctx username
  no_attempt : Rejected W ctx username ↔ ∀ address hostname, .dial address hostname ∉ trace
  user : ∀ user, results.1 = some user → ∃ parent result entry, ctx = some parent ∧
    answer W r username = .ok result ∧ result.entries = [entry] ∧
    entry.getAttributeValue (ascii "sAMAccountName") ≠ [] ∧ user = entry.user ∧
    searched W r username <+: trace ∧ Lasted W r parent ∧ parent.err (W.clock 3) = none
  referred : ∀ result, answer W r username = .ok result → result.entries = [] →
    result.referrals ≠ [] → o.outcome ≠ .notFound ∧ results.2 ≠ some .errNotFound

theorem truthful_error (e : LookupError) : Truthful (outcomeOf e) (none, some e) := by
  rcases e with _ | _ | _ | (_ | _) | _
  all_goals constructor <;> simp [outcomeOf]

theorem truthful_user (user : User) : Truthful .success (some user, none) := by
  constructor <;> simp

section Reports

variable {W : World} {r : Reader} {parent : Context} {username : Bytes} {results : Results}
  {outcome : LookupOutcome} {trace : List Event}

theorem Ending.truthful (ending : Ending W r parent username results outcome trace) :
    Truthful outcome results := by
  cases ending with
  | interrupted e => exact truthful_error (.context e)
  | unavailable => exact truthful_error .errUnavailable
  | missing => exact truthful_error .errNotFound
  | several => exact truthful_error .errAmbiguous
  | found => exact truthful_user _

theorem Ending.accepted (ending : Ending W r parent username results outcome trace) :
    outcome ≠ .invalidInput := by
  cases ending with
  | interrupted e => cases e <;> decide
  | unavailable => decide
  | missing => decide
  | several => decide
  | found => decide

theorem Ending.user (ending : Ending W r parent username results outcome trace) {user : User}
    (returned : results.1 = some user) :
    ∃ result entry, answer W r username = .ok result ∧ result.entries = [entry] ∧
      entry.getAttributeValue (ascii "sAMAccountName") ≠ [] ∧ user = entry.user ∧
      searched W r username <+: trace ∧ Lasted W r parent := by
  cases ending with
  | interrupted => cases returned
  | unavailable => cases returned
  | missing => cases returned
  | several => cases returned
  | found answered one named lasted order =>
    cases returned
    exact ⟨_, _, answered, one, named, rfl, order, lasted⟩

theorem Ending.referred (ending : Ending W r parent username results outcome trace)
    {result : SearchResult} (answered : answer W r username = .ok result)
    (elsewhere : result.referrals ≠ []) : outcome ≠ .notFound := by
  cases ending with
  | interrupted e => cases e <;> decide
  | unavailable => decide
  | missing answered' empty alone =>
    rw [answered, Except.ok.injEq] at answered'
    subst answered'
    exact absurd alone elsewhere
  | several => decide
  | found => decide

theorem reported_of_ended {f : Frame} (accepted : ¬Rejected W (some parent) username)
    (ended : Ended W r parent username results f) {o : LookupObservation}
    (own : o.outcome = f.outcome) :
    Reported W r (some parent) username results (f.trace ++ [.observe o]) o where
  once := ⟨f.trace, rfl, ended.quiet⟩
  truthful := own ▸ ended.ending.truthful
  invalidInput := by
    rw [own]
    exact iff_of_false ended.ending.accepted accepted
  no_attempt := by
    refine iff_of_false accepted fun unattempted => ?_
    have dialed := ended.dialed.subset (List.mem_singleton.mpr rfl)
    exact unattempted _ _ (List.mem_append_left _ dialed)
  user user returned := by
    obtain ⟨result, entry, answered, one, named, same, order, lasted⟩ := ended.ending.user returned
    exact ⟨parent, result, entry, rfl, answered, one, named, same,
      order.trans (List.prefix_append _ _), lasted, parent_lasts lasted⟩
  referred result answered _ elsewhere := by
    have different := ended.ending.referred answered elsewhere
    exact ⟨own ▸ different, mt ended.ending.truthful.notFound.mpr different⟩

theorem reported_of_rejected {f : Frame} {ctx : Option Context}
    (rejected : Rejected W ctx username) (outcome : f.outcome = .invalidInput)
    (still : f.trace = []) {text : String} {o : LookupObservation} (own : o.outcome = f.outcome) :
    Reported W r ctx username (none, some (.other text)) (f.trace ++ [.observe o]) o where
  once := ⟨f.trace, rfl, by simp [still]⟩
  truthful := by
    rw [own, outcome]
    exact truthful_error (.other text)
  invalidInput := iff_of_true (own.trans outcome) rejected
  no_attempt := iff_of_true rejected (by simp [still])
  user user returned := by cases returned
  referred result _ _ _ := by
    rw [own, outcome]
    exact ⟨by decide, nofun⟩

/-- The observer is called once, with the variables the body left; a panic stays there. -/
theorem getUser_observed {observer : LookupObservation → Finish} {ctx : Option Context} :
    let ended := Body.finish (body W r ctx username) ⟨.unavailable, .validation, []⟩
    getUser W { r with observer := some observer } ctx username =
      ⟨some ended.1, ended.2.trace ++
        [.observe ⟨ended.2.outcome, ended.2.stage, W.finished.sub W.started⟩]⟩ := by
  have calm : ∀ finish, recovered finish = .returned := by
    intro finish
    cases finish <;> rfl
  unfold getUser
  simp only [calm]
  rfl

/-- With or without an observer: the results of the body, and what it did followed by at most a
report. -/
theorem getUser_eq (W : World) (r : Reader) (ctx : Option Context) (username : Bytes) :
    let ended := Body.finish (body W r ctx username) ⟨.unavailable, .validation, []⟩
    ∃ report, (∀ e ∈ report, ∃ o, e = .observe o) ∧
      getUser W r ctx username = ⟨some ended.1, ended.2.trace ++ report⟩ := by
  intro ended
  rcases observed : r.observer with _ | observer
  · refine ⟨[], by simp, ?_⟩
    rw [List.append_nil, getUser, observed]
  · refine ⟨[.observe ⟨ended.2.outcome, ended.2.stage, W.finished.sub W.started⟩], by simp, ?_⟩
    have same : { r with observer := some observer } = r := by
      rw [← observed]
    rw [← same]
    exact getUser_observed

theorem left_finish (W : World) (r : Reader) (ctx : Option Context) (username : Bytes) :
    let ended := Body.finish (body W r ctx username) ⟨.unavailable, .validation, []⟩
    Left W r ctx username ended.1 ended.2 :=
  body_left.finish ⟨rfl, rfl⟩

/-- A connection that was opened is closed before the report. -/
theorem connection_closed {ctx : Option Context} {observer : LookupObservation → Finish}
    (accepted : ¬Rejected W ctx username) (opened : W.dial r.address r.hostname = .ok ()) :
    ∃ o, [.connClose, .rawClose, .observe o] <:+
      (getUser W { r with observer := some observer } ctx username).trace := by
  rcases left_finish W r ctx username with ⟨rejected, _⟩ | ⟨_, _, closed⟩
  · exact absurd rejected accepted
  · obtain ⟨before, trace⟩ := closed opened
    rw [getUser_observed, ← trace]
    exact ⟨_, before, (List.append_assoc before [.connClose, .rawClose] _).symm⟩

end Reports

/-- With an observer set, every lookup is reported once and truthfully, and what the observer
does with the report, panic included, makes no difference to the caller. -/
theorem lookups_reported (W : World) (r : Reader) (ctx : Option Context) (username : Bytes) :
    ∃ results trace o, Reported W r ctx username results trace o ∧
      (getUser W { r with observer := none } ctx username).results = some results ∧
      ∀ observer, getUser W { r with observer := some observer } ctx username =
        ⟨some results, trace⟩ := by
  let ended := Body.finish (body W r ctx username) ⟨.unavailable, .validation, []⟩
  let o : LookupObservation := ⟨ended.2.outcome, ended.2.stage, W.finished.sub W.started⟩
  have left : Left W r ctx username ended.1 ended.2 := left_finish W r ctx username
  refine ⟨ended.1, ended.2.trace ++ [.observe o], o, ?_, rfl, fun observer => getUser_observed⟩
  rcases left with ⟨rejected, outcome, still, text, results⟩ | ⟨accepted, ⟨parent, rfl, ended⟩, _⟩
  · rw [results]
    exact reported_of_rejected rejected outcome still rfl
  · exact reported_of_ended accepted ended rfl

/-- A world in which every search finds one user, with a referral beside it. -/
def sampleWorld : World where
  trimSpace := id
  escapeFilter := id
  clock := id
  forward := fun _ _ le => le
  timer := fun _ => 100
  dial := fun _ _ => .ok ()
  bind := fun _ _ => .ok ()
  search := fun _ => .ok ⟨[⟨[100], [⟨ascii "mail", []⟩, ⟨ascii "sAMAccountName", [[106], [107]]⟩]⟩],
    [[108]]⟩
  started := ⟨0⟩
  finished := ⟨5⟩

def sampleReader : Reader := ⟨[1], [2], [3], 8 * Instants.second, none, [4], [5]⟩

/-- A user is found and reported to an observer that panics. -/
theorem lookups_reported_found :
    let user : User := ⟨[106], [106], [100], []⟩
    ∃ trace o, Reported sampleWorld sampleReader (some ⟨none⟩) [106] (some user, none) trace o ∧
      o.outcome = .success ∧
      getUser sampleWorld { sampleReader with observer := some fun _ => .panicked "full" }
        (some ⟨none⟩) [106] = ⟨some (some user, none), trace⟩ := by
  intro user
  obtain ⟨results, trace, o, reported, alone, observed⟩ :=
    lookups_reported sampleWorld sampleReader (some ⟨none⟩) [106]
  have found : (getUser sampleWorld { sampleReader with observer := none } (some ⟨none⟩)
      [106]).results = some (some user, none) := by decide +kernel
  rw [found, Option.some.injEq] at alone
  subst alone
  exact ⟨trace, o, reported, reported.truthful.success.mpr ⟨user, rfl⟩, observed _⟩

end LookupReports
