import StumpfworksFramework.AppConfiguration
import StumpfworksFramework.Interactions
import StumpfworksFramework.LayeredValues

/-!
# The pool and its transactions

`Open` and `WithinTransaction`, as programs that ask the driver and the callback.
Neither of the two is modelled: they may answer anything, and between two questions
of a call anything may happen. What is proved is what the package answers for by
itself, on every way out of a call and in every interleaving of calls.

A context is kept as far as the source makes it. A callback may return, panic or
leave its goroutine by `runtime.Goexit`; the deferred rollback runs all the same,
and what it answers is discarded.
-/

namespace PoolTransactions

open ByteStrings LayeredValues AppConfiguration Instants Interactions Runs

/-! ## Questions -/

/-- A parsed URL: whether the connection and its fallbacks use TLS, and the settings that `Open`
replaces. -/
structure PoolConfig where
  tls : Bool
  fallbacks : List Bool
  maxConns : Int
  minConns : Int
  connectTimeout : Int
  maxProtocolMessageBodyLen : Int
  deriving DecidableEq, Repr

/-- The caller's context, that with a timeout of its own, or a new one with a timeout. -/
inductive Context where
  | caller
  | within (timeout : Int)
  | background (timeout : Int)
  deriving DecidableEq, Repr

abbrev PoolRef := Nat
abbrev TxRef := Nat
abbrev WorkRef := Nat

inductive Question where
  | newWithConfig (context : Context) (config : PoolConfig)
  | ping (context : Context) (pool : PoolRef)
  | close (pool : PoolRef)
  | begin (context : Context) (pool : PoolRef)
  | work (callback : WorkRef) (tx : TxRef)
  | commit (context : Context) (tx : TxRef)
  | rollback (context : Context) (tx : TxRef)
  deriving DecidableEq, Repr

inductive Outcome where
  | returned (err : Option Bytes)
  | panicked
  | exited
  deriving DecidableEq, Repr

abbrev Answer : Question → Type
  | .newWithConfig _ _ => Except Bytes PoolRef
  | .ping _ _ => Option Bytes
  | .close _ => Unit
  | .begin _ _ => Except Bytes TxRef
  | .work _ _ => Outcome
  | .commit _ _ => Option Bytes
  | .rollback _ _ => Unit

/-! ## The source -/

def permitsPlaintext (config : PoolConfig) : Bool :=
  if config.tls = false then true else config.fallbacks.any fun tls => !tls

def tlsRequired : Bytes := ascii ("PostgreSQL TLS is required; explicitly allow insecure " ++
  "connections only for trusted local development")

def PoolConfig.limited (config : PoolConfig) (options : Postgres) : PoolConfig :=
  { config with
    maxConns := options.maxConnections
    minConns := options.minConnections
    connectTimeout := options.connectTimeout
    maxProtocolMessageBodyLen := options.maxMessageBytes }

/-- `parseConfig` is `pgxpool.ParseConfig`. -/
def openPool (parseConfig : Bytes → Option PoolConfig) (options : Postgres) :
    Program Answer (Except Bytes PoolRef) :=
  match options.validateOptions with
  | .error err => pure (.error err)
  | .ok () =>
    match parseConfig options.url with
    | none => pure (.error (ascii "parse PostgreSQL configuration"))
    | some config =>
      if options.allowInsecure = false ∧ permitsPlaintext config = true then
        pure (.error tlsRequired)
      else do
        match ← ask (Question.newWithConfig (.within options.connectTimeout)
          (config.limited options)) with
        | .error err => pure (.error (ascii "create PostgreSQL pool: " ++ err))
        | .ok pool =>
          match ← ask (Question.ping (.within options.connectTimeout) pool) with
          | some err => do
            ask (Question.close pool)
            pure (.error (ascii "connect to PostgreSQL: " ++ err))
          | none => pure (.ok pool)

/-- The callback, and the commit if it returned without an error. -/
def workAndCommit (work : WorkRef) (tx : TxRef) : Program Answer Outcome := do
  match ← ask (Question.work work tx) with
  | .panicked => pure .panicked
  | .exited => pure .exited
  | .returned (some err) => pure (.returned (some (ascii "transaction callback: " ++ err)))
  | .returned none =>
    match ← ask (Question.commit .caller tx) with
    | some err => pure (.returned (some (ascii "commit transaction: " ++ err)))
    | none => pure (.returned none)

def withinTransaction (pool : PoolRef) (work : Option WorkRef) : Program Answer Outcome :=
  match work with
  | none => pure (.returned (some (ascii "transaction callback is required")))
  | some work => do
    match ← ask (Question.begin .caller pool) with
    | .error err => pure (.returned (some (ascii "begin transaction: " ++ err)))
    | .ok tx => do
      let outcome ← workAndCommit work tx
      -- deferred, and so done on every way out
      ask (Question.rollback (.background (5 * second)) tx)
      pure outcome

inductive Call where
  | openPool (options : Postgres)
  | withinTransaction (pool : PoolRef) (work : Option WorkRef)

inductive Result where
  | opened (result : Except Bytes PoolRef)
  | ended (outcome : Outcome)

def code (parseConfig : Bytes → Option PoolConfig) : Call → Program Answer Result
  | .openPool options => do
    let result ← openPool parseConfig options
    pure (.opened result)
  | .withinTransaction pool work => do
    let outcome ← withinTransaction pool work
    pure (.ended outcome)

/-! ## Histories -/

/-- A question with its answer. -/
abbrev Exchange := Σ question, Answer question

def begun (h : History Answer) : List TxRef :=
  h.filterMap fun
    | ⟨.begin _ _, .ok tx⟩ => some tx
    | _ => none

def rolledBack (h : History Answer) : List TxRef :=
  h.filterMap fun
    | ⟨.rollback _ tx, _⟩ => some tx
    | _ => none

def created (h : History Answer) : List PoolRef :=
  h.filterMap fun
    | ⟨.newWithConfig _ _, .ok pool⟩ => some pool
    | _ => none

def closed (h : History Answer) : List PoolRef :=
  h.filterMap fun
    | ⟨.close pool, _⟩ => some pool
    | _ => none

/-! ## Transactions -/

/-- The transactions whose connections were not given back. -/
def held (h : History Answer) : List TxRef := (begun h).filter fun tx => tx ∉ rolledBack h

/-- A commit was asked for only after the callback had returned without an error. -/
def Approved (h : History Answer) : Prop :=
  ∀ context tx answer, (⟨.commit context tx, answer⟩ : Exchange) ∈ h →
    ∃ work, (⟨.work work tx, .returned none⟩ : Exchange) ∈ h

/-- The driver has confirmed a commit. -/
def Confirmed (h : History Answer) : Prop :=
  ∃ context tx, (⟨.commit context tx, none⟩ : Exchange) ∈ h

/-- No pool was asked for. -/
def Poolless (h : History Answer) : Prop :=
  created h = [] ∧
    ∀ context config answer, (⟨.newWithConfig context config, answer⟩ : Exchange) ∉ h

/-- At each point of `WithinTransaction`. -/
structure Underway (h : History Answer) : Prop where
  one : (held h).length ≤ 1
  approved : Approved h
  idle : Poolless h

/-- After it: what was begun was rolled back as the last thing, within a context of its own,
and no error was returned exactly if the commit was confirmed. -/
structure Concluded (h : History Answer) (outcome : Outcome) : Prop where
  released : held h = []
  last : ∀ tx ∈ begun h, h.getLast? = some ⟨.rollback (.background (5 * second)) tx, ()⟩
  told : outcome = .returned none ↔ Confirmed h

/-- Before the deferred rollback of `tx`. -/
structure Halfway (tx : TxRef) (h : History Answer) (outcome : Outcome) : Prop where
  begun : begun h = [tx]
  approved : Approved h
  idle : Poolless h
  told : outcome = .returned none ↔ Confirmed h

theorem held_length_le (h : History Answer) : (held h).length ≤ (begun h).length :=
  List.length_filter_le _ _

theorem Halfway.underway {tx : TxRef} {h : History Answer} {outcome : Outcome}
    (halfway : Halfway tx h outcome) : Underway h where
  one := by
    have bound := held_length_le h
    rw [halfway.begun] at bound
    exact bound
  approved := halfway.approved
  idle := halfway.idle

theorem Halfway.rolledBack {tx : TxRef} {h : History Answer} {outcome : Outcome}
    (halfway : Halfway tx h outcome) :
    Underway (h ++ [⟨.rollback (.background (5 * second)) tx, ()⟩]) ∧
    Concluded (h ++ [⟨.rollback (.background (5 * second)) tx, ()⟩]) outcome := by
  have one :
      PoolTransactions.begun (h ++ [⟨.rollback (.background (5 * second)) tx, ()⟩]) = [tx] := by
    have before := halfway.begun
    unfold PoolTransactions.begun at before ⊢
    rw [List.filterMap_append, before]
    rfl
  have none_held : held (h ++ [⟨.rollback (.background (5 * second)) tx, ()⟩]) = [] := by
    rw [held, one]
    simp [PoolTransactions.rolledBack]
  have idle : Poolless (h ++ [⟨.rollback (.background (5 * second)) tx, ()⟩]) := by
    simpa [Poolless, created] using halfway.idle
  refine ⟨⟨by simp [none_held], ?_, idle⟩, none_held, ?_, ?_⟩
  · intro context committed answer mem
    obtain ⟨work, approved⟩ := halfway.approved context committed answer (by simpa using mem)
    exact ⟨work, List.mem_append_left _ approved⟩
  · intro other mem
    rw [one, List.mem_singleton] at mem
    rw [mem, List.getLast?_concat]
  · rw [halfway.told]
    simp [Confirmed]

theorem workAndCommit_always (context : Context) (pool : PoolRef) (work : WorkRef) (tx : TxRef) :
    (workAndCommit work tx).Always Underway (Halfway tx) [⟨.begin context pool, .ok tx⟩] := by
  refine .ask ⟨held_length_le _, by simp [Approved], by simp [Poolless, created]⟩ fun answer => ?_
  have failed : ∀ outcome, outcome ≠ .returned none →
      Halfway tx [⟨.begin context pool, .ok tx⟩, ⟨.work work tx, answer⟩] outcome :=
    fun outcome other =>
      ⟨rfl, by simp [Approved], by simp [Poolless, created], by simp [Confirmed, other]⟩
  have underway := (failed .exited (by simp)).underway
  cases answer with
  | panicked => exact .pure underway (failed _ (by simp))
  | exited => exact .pure underway (failed _ (by simp))
  | returned err =>
    cases err with
    | some err => exact .pure underway (failed _ (by simp))
    | none =>
      refine .ask underway fun answer => ?_
      have approved : Approved [⟨.begin context pool, .ok tx⟩, ⟨.work work tx, .returned none⟩,
          ⟨.commit .caller tx, answer⟩] := by
        simp +contextual [Approved]
      cases answer with
      | some err =>
        have halfway : Halfway tx _ (.returned (some (ascii "commit transaction: " ++ err))) :=
          ⟨rfl, approved, by simp [Poolless, created], by simp [Confirmed]⟩
        exact .pure halfway.underway halfway
      | none =>
        have halfway : Halfway tx _ (.returned none) :=
          ⟨rfl, approved, by simp [Poolless, created], by simp [Confirmed]⟩
        exact .pure halfway.underway halfway

theorem withinTransaction_always (pool : PoolRef) (work : Option WorkRef) :
    (withinTransaction pool work).Always Underway Concluded [] := by
  have start : Underway [] :=
    ⟨by simp [held, begun], by simp [Approved], by simp [Poolless, created]⟩
  cases work with
  | none => exact .pure start ⟨rfl, by simp [begun], by simp [Confirmed]⟩
  | some work =>
    refine .ask start fun answer => ?_
    cases answer with
    | error err =>
      exact .pure ⟨by simp [held, begun], by simp [Approved], by simp [Poolless, created]⟩
        ⟨rfl, by simp [begun], by simp [Confirmed]⟩
    | ok tx =>
      refine .bind (workAndCommit_always .caller pool work tx) fun h outcome _ halfway => ?_
      exact .ask halfway.underway fun () => .pure halfway.rolledBack.1 halfway.rolledBack.2

/-! ## Pools -/

/-- Made within the limits of the options, without a target that permits plaintext unless the
options do. -/
structure Guarded (options : Postgres) (context : Context) (config : PoolConfig) : Prop where
  encrypted : options.allowInsecure = true ∨ permitsPlaintext config = false
  maxConns : config.maxConns = options.maxConnections ∧ 0 < config.maxConns
  minConns : config.minConns = options.minConnections ∧ 0 ≤ config.minConns ∧
    config.minConns ≤ config.maxConns
  patience : context = .within options.connectTimeout ∧
    config.connectTimeout = options.connectTimeout ∧ 0 < config.connectTimeout
  bounded : config.maxProtocolMessageBodyLen = options.maxMessageBytes ∧
    0 < config.maxProtocolMessageBodyLen

/-- At each point of `Open`. -/
structure Opening (options : Postgres) (h : History Answer) : Prop where
  one : (created h).length ≤ 1
  guarded : ∀ context config answer,
    (⟨.newWithConfig context config, answer⟩ : Exchange) ∈ h → Guarded options context config
  idle : begun h = [] ∧ ∀ context tx answer, (⟨.commit context tx, answer⟩ : Exchange) ∉ h

theorem Opening.ping {options : Postgres} {h : History Answer} (opening : Opening options h)
    (context : Context) (pool : PoolRef) (answer : Option Bytes) :
    Opening options (h ++ [⟨.ping context pool, answer⟩]) where
  one := by simpa [created] using opening.one
  guarded := by simpa using opening.guarded
  idle := by simpa [begun] using opening.idle

theorem Opening.close {options : Postgres} {h : History Answer} (opening : Opening options h)
    (pool : PoolRef) : Opening options (h ++ [⟨.close pool, ()⟩]) where
  one := by simpa [created] using opening.one
  guarded := by simpa using opening.guarded
  idle := by simpa [begun] using opening.idle

/-- After `Open`: a pool that was made was closed or is returned, and it is returned only after
it has answered. -/
structure Opened (options : Postgres) (h : History Answer) (result : Except Bytes PoolRef) :
    Prop where
  whole : created h = closed h ++ result.toOption.toList
  reached : ∀ pool, result = .ok pool →
    (⟨.ping (.within options.connectTimeout) pool, none⟩ : Exchange) ∈ h

theorem guarded_limited {options : Postgres} {config : PoolConfig}
    (valid : options.validateOptions = .ok ())
    (permitted : ¬ (options.allowInsecure = false ∧ permitsPlaintext config = true)) :
    Guarded options (.within options.connectTimeout) (config.limited options) := by
  simp only [Postgres.validateOptions, ite_error_eq_ok, not_le, not_lt, not_or, gt_iff_lt] at valid
  obtain ⟨_, maximum, minimum, patience, bounded, _⟩ := valid
  refine ⟨?_, ⟨rfl, maximum⟩, ⟨rfl, minimum⟩, ⟨rfl, rfl, patience⟩, rfl, bounded⟩
  rw [not_and, Bool.not_eq_true] at permitted
  cases insecure : options.allowInsecure with
  | true => exact .inl rfl
  | false => exact .inr (permitted insecure)

theorem openPool_always (parseConfig : Bytes → Option PoolConfig) (options : Postgres) :
    (openPool parseConfig options).Always (Opening options) (Opened options) [] := by
  have start : Opening options [] := ⟨by simp [created], by simp, by simp [begun]⟩
  have refused : ∀ err, Opened options [] (.error err) := fun err => ⟨rfl, by simp⟩
  unfold openPool
  split
  · exact .pure start (refused _)
  · rename_i valid
    split
    · exact .pure start (refused _)
    · rename_i config parsed
      split
      · exact .pure start (refused _)
      · rename_i permitted
        have guarded := guarded_limited valid permitted
        refine .ask start fun answer => ?_
        have made : Opening options [⟨.newWithConfig (.within options.connectTimeout)
            (config.limited options), answer⟩] :=
          ⟨List.length_filterMap_le _ _, by simp +contextual [guarded], by simp [begun]⟩
        cases answer with
        | error err => exact .pure made ⟨rfl, by simp⟩
        | ok pool =>
          refine .ask made fun answer => ?_
          have pinged : Opening options _ := made.ping (.within options.connectTimeout) pool answer
          cases answer with
          | some err => exact .ask pinged fun () => .pure (pinged.close pool) ⟨rfl, by simp⟩
          | none => exact .pure pinged ⟨rfl, by simp⟩

/-! ## Runs -/

def Call.Safe : Call → History Answer → Prop
  | .openPool options, h => Opening options h
  | .withinTransaction _ _, h => Underway h

def Call.Done : Call → History Answer → Result → Prop
  | .openPool options, h, .opened result => Opened options h result
  | .withinTransaction _ _, h, .ended outcome => Concluded h outcome
  | .openPool _, _, .ended _ => False
  | .withinTransaction _ _, _, .opened _ => False

theorem code_always (parseConfig : Bytes → Option PoolConfig) (c : Call) :
    (code parseConfig c).Always c.Safe c.Done [] := by
  cases c with
  | openPool options =>
    exact .bind (openPool_always parseConfig options) fun h result safe done => .pure safe done
  | withinTransaction pool work =>
    exact .bind (withinTransaction_always pool work) fun h outcome safe done => .pure safe done

/-- The pools that a call returns. -/
def returned : Program Answer Result → List PoolRef
  | .done (.opened (.ok pool)) => [pool]
  | _ => []

/-- The pools that a call has made and neither closed nor returned. -/
def strayed (t : Thread Call Answer Result) : List PoolRef :=
  (created t.asked).filter fun pool => pool ∉ closed t.asked ∧ pool ∉ returned t.rest

theorem Call.Safe.held_le {c : Call} {h : History Answer} (safe : c.Safe h) :
    (held h).length ≤ 1 := by
  cases c with
  | openPool options => simp [held, Opening.idle safe]
  | withinTransaction pool work => exact Underway.one safe

theorem Call.Safe.approved {c : Call} {h : History Answer} (safe : c.Safe h) : Approved h := by
  cases c with
  | openPool options =>
    intro context tx answer asked
    exact absurd asked ((Opening.idle safe).2 context tx answer)
  | withinTransaction pool work => exact Underway.approved safe

theorem Call.Done.held_eq_nil {c : Call} {h : History Answer} {result : Result} (safe : c.Safe h)
    (done : c.Done h result) : held h = [] := by
  cases c with
  | openPool options => simp [held, Opening.idle safe]
  | withinTransaction pool work =>
    cases result with
    | opened result => exact absurd done id
    | ended outcome => exact Concluded.released done

theorem Call.Safe.guarded {c : Call} {h : History Answer} (safe : c.Safe h) {context : Context}
    {config : PoolConfig} {answer : Except Bytes PoolRef}
    (made : (⟨.newWithConfig context config, answer⟩ : Exchange) ∈ h) :
    ∃ options, c = .openPool options ∧ Guarded options context config := by
  cases c with
  | openPool options => exact ⟨options, rfl, Opening.guarded safe context config answer made⟩
  | withinTransaction pool work =>
    exact absurd made ((Underway.idle safe).2 context config answer)

theorem Call.Safe.created_le {c : Call} {h : History Answer} (safe : c.Safe h) :
    (created h).length ≤ 1 := by
  cases c with
  | openPool options => exact Opening.one safe
  | withinTransaction pool work => simp [(Underway.idle safe).1]

theorem strayed_le (t : Thread Call Answer Result) :
    (strayed t).length ≤ (created t.asked).length :=
  List.length_filter_le _ _

theorem strayed_eq_nil {t : Thread Call Answer Result} {result : Result}
    (safe : t.call.Safe t.asked) (done : t.call.Done t.asked result)
    (ended : t.rest = .done result) : strayed t = [] := by
  cases called : t.call with
  | withinTransaction pool work =>
    rw [called] at safe
    simp [strayed, (Underway.idle safe).1]
  | openPool options =>
    rw [called] at done
    cases result with
    | ended outcome => exact absurd done id
    | opened result =>
      rw [strayed, Opened.whole done, ended, List.filter_eq_nil_iff]
      cases result with
      | error err => simp [returned, Except.toOption]
      | ok pool => simp +contextual [returned, Except.toOption, or_imp]

section Runs

variable {parseConfig : Bytes → Option PoolConfig}
variable {legal : List (Thread Call Answer Result) → Action Call Answer → Prop}
variable {h : List (Action Call Answer × Unit)} {s : List (Thread Call Answer Result)}

/-- In every run, whatever the driver and the callbacks do, at most one transaction is held for
each call that has not come back. Nothing is committed but what the callback approved, and a call
that has come back, by a panic or otherwise, has rolled back at the end and reports success
exactly if the commit was confirmed. -/
theorem transactions_end (run : Run (step (code parseConfig)) legal [] h s) :
    (s.map fun t => (held t.asked).length).sum ≤ s.countP (fun t => !t.finished) ∧
    ∀ t ∈ s, Approved t.asked ∧
      ∀ outcome, t.rest = .done (.ended outcome) → Concluded t.asked outcome := by
  have sound := run_sound (code_always parseConfig) run
  refine ⟨sum_le_unfinished sound (fun t sound => sound.now.held_le) ?_, fun t mem => ?_⟩
  · intro t result sound done
    rw [(sound.concluded done).held_eq_nil sound.now, List.length_nil]
  · refine ⟨(sound t mem).now.approved, fun outcome ended => ?_⟩
    have done := (sound t mem).concluded ended
    cases called : t.call with
    | openPool options =>
      rw [called] at done
      exact absurd done id
    | withinTransaction pool work =>
      rw [called] at done
      exact done

def sampleUrl : Bytes := ascii "postgres://db.internal/app?sslmode=verify-full"

def sampleParse (url : Bytes) : Option PoolConfig :=
  if url = sampleUrl then some ⟨true, [true], 4, 0, 0, 0⟩ else none

def sampleOptions : Postgres := ⟨sampleUrl, 10, 1, 5 * second, 1024, false⟩

def sampleConfig : PoolConfig := ⟨true, [true], 10, 1, 5 * second, 1024⟩

/-- `Open`, and two transactions side by side, of which the second panics. -/
def sampleActions : List (Action Call Answer) :=
  [.call (.openPool sampleOptions),
    .answer 0 (.newWithConfig (.within (5 * second)) sampleConfig) (.ok 7),
    .answer 0 (.ping (.within (5 * second)) 7) none,
    .call (.withinTransaction 7 (some 1)), .call (.withinTransaction 7 (some 2)),
    .answer 1 (.begin .caller 7) (.ok 3), .answer 2 (.begin .caller 7) (.ok 4),
    .answer 2 (.work 2 4) .panicked, .answer 1 (.work 1 3) (.returned none),
    .answer 2 (.rollback (.background (5 * second)) 4) (),
    .answer 1 (.commit .caller 3) none, .answer 1 (.rollback (.background (5 * second)) 3) ()]

theorem transactions_end_panicked :
    ∃ first second, (play (step (code sampleParse)) [] sampleActions).2.tail = [first, second] ∧
      first.rest = .done (.ended (.returned none)) ∧ Concluded first.asked (.returned none) ∧
      second.rest = .done (.ended .panicked) ∧ Concluded second.asked .panicked := by
  have allowed : LegalPlay (step (code sampleParse)) (fun _ _ => True) [] sampleActions :=
    legalPlay_of_forall (fun _ _ _ => trivial) []
  have ends := fun i t found =>
    ((transactions_end (Run.of_play allowed)).2 t (List.mem_of_getElem? (i := i) found)).2
  exact ⟨_, _, rfl, rfl, ends 1 _ rfl _ rfl, rfl, ends 2 _ rfl _ rfl⟩

/-- In every run, every pool is made by `Open` within the limits of its options, and encrypted
unless they permit otherwise. When `Open` has come back, it has closed the pool or returns it,
and it returns only a pool that has answered. -/
theorem pools_returned_or_closed (run : Run (step (code parseConfig)) legal [] h s) :
    (s.map fun t => (strayed t).length).sum ≤ s.countP (fun t => !t.finished) ∧
    ∀ t ∈ s,
      (∀ context config answer,
        (⟨.newWithConfig context config, answer⟩ : Exchange) ∈ t.asked →
          ∃ options, t.call = .openPool options ∧ Guarded options context config) ∧
      ∀ options result, t.call = .openPool options → t.rest = .done (.opened result) →
        Opened options t.asked result := by
  have sound := run_sound (code_always parseConfig) run
  refine ⟨sum_le_unfinished sound ?_ ?_, fun t mem => ⟨?_, ?_⟩⟩
  · exact fun t sound => le_trans (strayed_le t) sound.now.created_le
  · intro t result sound ended
    rw [strayed_eq_nil sound.now (sound.concluded ended) ended, List.length_nil]
  · exact fun context config answer made => (sound t mem).now.guarded made
  · intro options result called ended
    have done := (sound t mem).concluded ended
    rw [called] at done
    exact done

/-- The pool does not answer. -/
def sampleRefusal : List (Action Call Answer) :=
  [.call (.openPool sampleOptions),
    .answer 0 (.newWithConfig (.within (5 * second)) sampleConfig) (.ok 7),
    .answer 0 (.ping (.within (5 * second)) 7) (some (ascii "connection refused")),
    .answer 0 (.close 7) ()]

theorem pools_returned_or_closed_unreachable :
    ∃ t, (play (step (code sampleParse)) [] sampleRefusal).2 = [t] ∧ created t.asked = [7] ∧
      closed t.asked = [7] ∧ strayed t = [] ∧ Opened sampleOptions t.asked
        (.error (ascii "connect to PostgreSQL: " ++ ascii "connection refused")) := by
  have allowed : LegalPlay (step (code sampleParse)) (fun _ _ => True) [] sampleRefusal :=
    legalPlay_of_forall (fun _ _ _ => trivial) []
  have opened := fun t found =>
    ((pools_returned_or_closed (Run.of_play allowed)).2 t (List.mem_of_getElem? (i := 0) found)).2
  exact ⟨_, rfl, rfl, rfl, rfl, opened _ rfl _ _ rfl rfl⟩

end Runs

end PoolTransactions
