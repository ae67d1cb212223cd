import StumpfworksFramework.HealthChecks
import StumpfworksFramework.Runs

/-!
# What a readiness response says

A result is sent once and received once, so at every moment of the loop a check
is pending, or failed, or was received without an error (`Gathered`). From this
the response is read off. The call's own statements use up a number that nothing
else changes, and it waits only while its context lasts and a result is
outstanding. Once the checks are copied, registrations no longer reach it.
-/

namespace Readiness

open ByteStrings FiniteMaps Gathering HealthChecks Runs

universe u
variable {γ : Type u} {may : γ → Outcome → Prop} {got : List Result} {c : Call γ}
  {registered : FiniteMap Bytes γ} {name : Bytes} {outcome : Outcome}

/-! ## What holds between statements -/

/-- The goroutine of a name has sent this outcome. -/
def Sent (c : Call γ) (name : Bytes) (outcome : Outcome) : Prop :=
  c.goroutines.lookup name = some (.sent outcome)

/-- Every check has its goroutine, and names without a result are missing only because the
context has ended. -/
structure Collecting (got : List Result) (c : Call γ) : Prop where
  started : ∀ n ∈ c.checks.keys, c.goroutines.lookup n ≠ none
  gathered : Gathered c.checks.keys got c.pending c.failed
  ended : ∀ n ∈ c.checks.keys, n ∉ got.map Prod.fst → n ∈ c.pending ∨ c.done = true

def InPhase (got : List Result) (c : Call γ) : Phase → Prop
  | .entered => got = [] ∧ c.results = [] ∧ c.goroutines = ∅
  | .starting left => got = [] ∧ ∀ n, n ∈ left ↔ n ∈ c.checks.keys ∧ c.goroutines.lookup n = none
  | .collecting => Collecting got c
  | .responded response => Collecting got c ∧ c.pending = [] ∧ response = respond c.failed

/-- The results received and those in the channel are the ones that were sent. -/
structure Inv (may : γ → Outcome → Prop) (got : List Result) (c : Call γ) : Prop where
  owned : ∀ n p, c.goroutines.lookup n = some p →
    ∃ check, c.checks.lookup n = some check ∧ ∀ o ∈ p.outcome, may check o
  sent_iff : ∀ n e, (n, e) ∈ got ++ c.results ↔ ∃ o, Sent c n o ∧ o.err = e
  once : ((got ++ c.results).map Prod.fst).Nodup
  phase : InPhase got c c.phase

theorem mem_keys_of_lookup {ν : Type u} {m : FiniteMap Bytes ν} {n : Bytes} {x : ν}
    (found : m.lookup n = some x) : n ∈ m.keys := by
  rw [← AList.mem_keys, ← AList.lookup_isSome, found]
  rfl

theorem Inv.received_once (inv : Inv may got c) : (got.map Prod.fst).Nodup := by
  have once := inv.once
  rw [List.map_append] at once
  exact once.of_append_left

/-- A name that is known to the channel or was received has sent. -/
theorem Inv.mem_names (inv : Inv may got c) {n : Bytes} :
    n ∈ (got ++ c.results).map Prod.fst ↔ ∃ o, Sent c n o := by
  constructor
  · intro mem
    obtain ⟨⟨n, e⟩, there, rfl⟩ := List.mem_map.mp mem
    obtain ⟨o, sent, _⟩ := (inv.sent_iff n e).mp there
    exact ⟨o, sent⟩
  · rintro ⟨o, sent⟩
    exact List.mem_map.mpr ⟨(n, o.err), (inv.sent_iff n o.err).mpr ⟨o, sent, rfl⟩, rfl⟩

theorem Inv.known (inv : Inv may got c) {n : Bytes} {e : Option String}
    (mem : (n, e) ∈ got ++ c.results) : n ∈ c.checks.keys := by
  obtain ⟨o, sent, _⟩ := (inv.sent_iff n e).mp mem
  obtain ⟨check, found, _⟩ := inv.owned n _ sent
  exact mem_keys_of_lookup found

/-- The next result in the channel is from a check of the call. -/
theorem Inv.next_known (inv : Inv may got c) {err : Option String} {rest : List Result}
    (next : c.results = (name, err) :: rest) : name ∈ c.checks.keys := by
  refine inv.known (e := err) (List.mem_append_right _ ?_)
  rw [next]
  exact List.mem_cons_self

/-- It has not been received before. -/
theorem Inv.next_fresh (inv : Inv may got c) {err : Option String} {rest : List Result}
    (next : c.results = (name, err) :: rest) : name ∉ got.map Prod.fst := by
  have once := inv.once
  rw [next, List.map_append, List.map_cons] at once
  intro mem
  exact (List.nodup_append.mp once).2.2 name mem name List.mem_cons_self rfl

/-- The channel is never full when a goroutine is about to send. -/
theorem Inv.room (inv : Inv may got c) (ended : c.goroutines.lookup name = some (.ended outcome)) :
    c.results.length < size c.checks := by
  have silent : name ∉ c.results.map Prod.fst := by
    intro mem
    obtain ⟨⟨n, e⟩, there, rfl⟩ := List.mem_map.mp mem
    obtain ⟨o, sent, _⟩ := (inv.sent_iff n e).mp (List.mem_append_right _ there)
    rw [Sent, ended] at sent
    cases sent
  have once := inv.once
  rw [List.map_append] at once
  have distinct : (name :: c.results.map Prod.fst).Nodup :=
    List.nodup_cons.mpr ⟨silent, once.of_append_right⟩
  have within : name :: c.results.map Prod.fst ⊆ c.checks.keys := by
    intro n mem
    rcases List.mem_cons.mp mem with rfl | later
    · obtain ⟨check, found, _⟩ := inv.owned _ _ ended
      exact mem_keys_of_lookup found
    · obtain ⟨⟨n, e⟩, there, rfl⟩ := List.mem_map.mp later
      exact inv.known (List.mem_append_right _ there)
  have shorter := length_le_size distinct within
  rw [List.length_cons, List.length_map] at shorter
  exact shorter

theorem Inv.length_le (inv : Inv may got c) : got.length ≤ size c.checks := by
  have within : got.map Prod.fst ⊆ c.checks.keys := by
    intro n mem
    obtain ⟨⟨n, e⟩, there, rfl⟩ := List.mem_map.mp mem
    exact inv.known (List.mem_append_left _ there)
  have shorter := length_le_size inv.received_once within
  rwa [List.length_map] at shorter

/-! ## Statements -/

/-- All that a statement can do. -/
inductive Stepped (registered : FiniteMap Bytes γ) (c : Call γ) :
    Action γ → Call γ × Option Result → Prop where
  | idle (a : Action γ) : Stepped registered c a (c, none)
  | copyChecks (here : c.phase = .entered) :
      Stepped registered c .copyChecks
        ({ c with phase := .starting (copy registered).keys, checks := copy registered }, none)
  | start {left : List Bytes} {name : Bytes} (here : c.phase = .starting left) (mem : name ∈ left) :
      Stepped registered c (.start name)
        ({ c with phase := .starting (left.filter (· ≠ name))
                  goroutines := c.goroutines.insert name .checking }, none)
  | makePending (here : c.phase = .starting []) :
      Stepped registered c .makePending
        ({ c with phase := .collecting, pending := c.checks.keys, failed := [] }, none)
  | finish {name : Bytes} (checking : c.goroutines.lookup name = some .checking)
      (outcome : Outcome) :
      Stepped registered c (.finish name outcome)
        ({ c with goroutines := c.goroutines.insert name (.ended outcome) }, none)
  | send {name : Bytes} {outcome : Outcome}
      (ended : c.goroutines.lookup name = some (.ended outcome)) :
      Stepped registered c (.send name)
        ({ c with goroutines := c.goroutines.insert name (.sent outcome)
                  results := c.results ++ [(name, outcome.err)] }, none)
  | endContext : Stepped registered c .endContext ({ c with done := true }, none)
  | receive {name : Bytes} {err : Option String} {rest : List Result}
      (here : c.phase = .collecting) (waiting : c.pending ≠ [])
      (next : c.results = (name, err) :: rest) :
      Stepped registered c .receive
        ({ c with results := rest
                  pending := c.pending.filter (· ≠ name)
                  failed := noted c.failed name err }, some (name, err))
  | giveUp {order : List Bytes} (here : c.phase = .collecting) (waiting : c.pending ≠ [])
      (done : c.done = true) (perm : order.Perm c.pending) :
      Stepped registered c (.giveUp order)
        ({ c with pending := [], failed := c.failed ++ order }, none)
  | respond (here : c.phase = .collecting) (none : c.pending = []) :
      Stepped registered c .respond
        ({ c with phase := .responded (respond c.failed) }, Option.none)

theorem advance_stepped (registered : FiniteMap Bytes γ) (c : Call γ) (a : Action γ) :
    Stepped registered c a (advance registered c a) := by
  cases a with
  | register name check => exact Stepped.idle _
  | copyChecks =>
    simp only [advance]
    split
    · exact Stepped.copyChecks ‹_›
    · exact Stepped.idle _
  | start name =>
    simp only [advance]
    split
    · split
      · exact Stepped.start ‹_› ‹_›
      · exact Stepped.idle _
    · exact Stepped.idle _
  | makePending =>
    simp only [advance]
    split
    · exact Stepped.makePending ‹_›
    · exact Stepped.idle _
  | finish name outcome =>
    simp only [advance, finishCheck]
    split
    · exact Stepped.finish ‹_› outcome
    · exact Stepped.idle _
  | send name =>
    simp only [advance, sendResult]
    split
    · split
      · exact Stepped.send ‹_›
      · exact Stepped.idle _
    · exact Stepped.idle _
  | endContext => exact Stepped.endContext
  | receive =>
    simp only [advance]
    split
    · rename_i head tail name err rest here pending next
      refine Stepped.receive here ?_ next
      rw [pending]
      exact List.cons_ne_nil _ _
    · exact Stepped.idle _
  | giveUp order =>
    simp only [advance]
    split
    · rename_i ready
      exact Stepped.giveUp ready.1 ready.2.1 ready.2.2.1 ready.2.2.2
    · exact Stepped.idle _
  | respond =>
    simp only [advance]
    split
    · rename_i ready
      exact Stepped.respond ready.1 ready.2
    · exact Stepped.idle _

theorem Inv.entered (may : γ → Outcome → Prop) (registered : FiniteMap Bytes γ) :
    Inv may [] (enter registered).call where
  owned := fun n p found => by simp [enter] at found
  sent_iff := fun n e => by simp [enter, Sent]
  once := List.nodup_nil
  phase := ⟨rfl, rfl, rfl⟩

/-- The context may end at any time. -/
theorem InPhase.endContext {phase : Phase} (inPhase : InPhase got c phase) :
    InPhase got { c with done := true } phase := by
  have later : Collecting got c → Collecting got { c with done := true } := fun collecting =>
    ⟨collecting.started, collecting.gathered, fun _ _ _ => Or.inr rfl⟩
  cases phase with
  | entered => exact inPhase
  | starting left => exact inPhase
  | collecting => exact later inPhase
  | responded response => exact ⟨later inPhase.1, inPhase.2⟩

theorem Inv.endContext (inv : Inv may got c) : Inv may got { c with done := true } :=
  ⟨inv.owned, inv.sent_iff, inv.once, inv.phase.endContext⟩

/-- A goroutine that moves on keeps what the phase needs to know. -/
theorem InPhase.goroutine {p : Progress} {results : List Result} {phase : Phase}
    (inPhase : InPhase got c phase) {q : Progress} (before : c.goroutines.lookup name = some q) :
    InPhase got { c with goroutines := c.goroutines.insert name p, results := results } phase := by
  have started : ∀ n, (c.goroutines.insert name p).lookup n = none ↔
      c.goroutines.lookup n = none := by
    intro n
    by_cases same : n = name
    · subst same
      simp [before]
    · rw [AList.lookup_insert_ne same]
  have collecting : Collecting got c →
      Collecting got { c with goroutines := c.goroutines.insert name p, results := results } := by
    intro collecting
    refine ⟨fun n mem none => ?_, collecting.gathered, collecting.ended⟩
    exact collecting.started n mem ((started n).mp none)
  cases phase with
  | entered =>
    rw [inPhase.2.2] at before
    simp at before
  | starting left =>
    refine ⟨inPhase.1, fun n => ?_⟩
    rw [inPhase.2 n]
    exact and_congr_right fun _ => (started n).symm
  | collecting => exact collecting inPhase
  | responded response => exact ⟨collecting inPhase.1, inPhase.2⟩

theorem Inv.finish (inv : Inv may got c) (checking : c.goroutines.lookup name = some .checking)
    (honest : ∀ check, c.checks.lookup name = some check → may check outcome) :
    Inv may got { c with goroutines := c.goroutines.insert name (.ended outcome) } := by
  have sent : ∀ n o, Sent { c with goroutines := c.goroutines.insert name (.ended outcome) } n o ↔
      Sent c n o := by
    intro n o
    simp only [Sent, lookup_insert_eq_some_iff, reduceCtorEq, and_false, false_or]
    constructor
    · exact And.right
    · intro sent
      refine ⟨?_, sent⟩
      rintro rfl
      rw [checking] at sent
      cases sent
  refine ⟨?_, ?_, inv.once, inv.phase.goroutine checking⟩
  · intro n p found
    rcases lookup_insert_eq_some_iff.mp found with ⟨rfl, rfl⟩ | ⟨_, old⟩
    · obtain ⟨check, known, _⟩ := inv.owned _ _ checking
      refine ⟨check, known, fun o mem => ?_⟩
      cases mem
      exact honest check known
    · exact inv.owned n p old
  · intro n e
    simp only [sent]
    exact inv.sent_iff n e

theorem Inv.send (inv : Inv may got c)
    (ended : c.goroutines.lookup name = some (.ended outcome)) :
    Inv may got { c with goroutines := c.goroutines.insert name (.sent outcome)
                         results := c.results ++ [(name, outcome.err)] } := by
  have fresh : name ∉ (got ++ c.results).map Prod.fst := by
    rw [inv.mem_names]
    rintro ⟨o, sent⟩
    rw [Sent, ended] at sent
    cases sent
  refine ⟨?_, ?_, ?_, inv.phase.goroutine ended⟩
  · intro n p found
    rcases lookup_insert_eq_some_iff.mp found with ⟨rfl, rfl⟩ | ⟨_, old⟩
    · exact inv.owned _ (.ended outcome) ended
    · exact inv.owned n p old
  · intro n e
    rw [← List.append_assoc, List.mem_append, inv.sent_iff, List.mem_singleton]
    simp only [Sent, lookup_insert_eq_some_iff, Progress.sent.injEq]
    by_cases same : n = name
    · subst same
      simp only [ended, Option.some.injEq, reduceCtorEq, false_and, exists_false, false_or,
        Prod.mk.injEq, true_and, ne_eq, not_true_eq_false, and_false, or_false]
      constructor
      · rintro rfl
        exact ⟨outcome, rfl, rfl⟩
      · rintro ⟨o, rfl, rfl⟩
        rfl
    · simp [same]
  · rw [← List.append_assoc, List.map_append, List.nodup_append]
    refine ⟨inv.once, List.nodup_singleton _, ?_⟩
    intro n mem n' last same
    rw [List.map_singleton, List.mem_singleton] at last
    rw [same, last] at mem
    exact fresh mem

theorem Inv.copyChecks (inv : Inv may got c) (here : c.phase = .entered)
    (checks : FiniteMap Bytes γ) :
    Inv may got { c with phase := .starting checks.keys, checks := checks } := by
  have phase := inv.phase
  rw [here] at phase
  obtain ⟨none, empty, idle⟩ := phase
  refine ⟨?_, inv.sent_iff, inv.once, none, ?_⟩
  · intro n p found
    simp only [idle, AList.lookup_empty] at found
    cases found
  · intro n
    simp [idle]

theorem Inv.start (inv : Inv may got c) {left : List Bytes} (here : c.phase = .starting left)
    (mem : name ∈ left) :
    Inv may got { c with phase := .starting (left.filter (· ≠ name))
                         goroutines := c.goroutines.insert name .checking } := by
  have phase := inv.phase
  rw [here] at phase
  obtain ⟨none, left_iff⟩ := phase
  obtain ⟨listed, idle⟩ := (left_iff name).mp mem
  refine ⟨?_, ?_, inv.once, none, ?_⟩
  · intro n p found
    rcases lookup_insert_eq_some_iff.mp found with ⟨rfl, rfl⟩ | ⟨_, old⟩
    · obtain ⟨check, known⟩ := Option.isSome_iff_exists.mp
        (AList.lookup_isSome.mpr (AList.mem_keys.mpr listed))
      refine ⟨check, known, fun o mem => ?_⟩
      cases mem
    · exact inv.owned n p old
  · intro n e
    rw [inv.sent_iff]
    simp only [Sent, lookup_insert_eq_some_iff, reduceCtorEq, and_false, false_or]
    refine exists_congr fun o => and_congr_left fun _ => ?_
    constructor
    · intro sent
      refine ⟨?_, sent⟩
      rintro rfl
      rw [idle] at sent
      cases sent
    · exact And.right
  · intro n
    simp only [List.mem_filter, decide_eq_true_eq, left_iff]
    by_cases same : n = name
    · subst same
      simp
    · simp [AList.lookup_insert_ne same, same]

theorem Inv.makePending (inv : Inv may got c) (here : c.phase = .starting []) :
    Inv may got { c with phase := .collecting, pending := c.checks.keys, failed := [] } := by
  have phase := inv.phase
  rw [here] at phase
  obtain ⟨none, left_iff⟩ := phase
  subst none
  refine ⟨inv.owned, inv.sent_iff, inv.once, ?_, Gathered.start c.checks.keys_nodup, ?_⟩
  · intro n mem idle
    exact absurd ((left_iff n).mpr ⟨mem, idle⟩) List.not_mem_nil
  · intro n mem _
    exact Or.inl mem

theorem Inv.receive (inv : Inv may got c) (here : c.phase = .collecting) (some : c.pending ≠ [])
    {err : Option String} {rest : List Result} (next : c.results = (name, err) :: rest) :
    Inv may (got ++ [(name, err)]) { c with results := rest
                                            pending := c.pending.filter (· ≠ name)
                                            failed := noted c.failed name err } := by
  have phase := inv.phase
  rw [here] at phase
  have moved : got ++ [(name, err)] ++ rest = got ++ c.results := by
    rw [next, List.append_assoc, List.singleton_append]
  refine ⟨inv.owned, ?_, ?_, ?_⟩
  · intro n e
    simp only [moved]
    exact inv.sent_iff n e
  · simp only [moved]
    exact inv.once
  · rw [here]
    refine ⟨phase.started, ?_, ?_⟩
    · exact phase.gathered.receive some (inv.next_known next) (inv.next_fresh next) err
    · intro n mem silent
      rw [List.map_append, List.mem_append, not_or] at silent
      rcases phase.ended n mem silent.1 with there | done
      · left
        refine List.mem_filter.mpr ⟨there, decide_eq_true ?_⟩
        rintro rfl
        exact silent.2 List.mem_cons_self
      · exact Or.inr done

theorem Inv.giveUp (inv : Inv may got c) (here : c.phase = .collecting) (done : c.done = true)
    {order : List Bytes} (perm : order.Perm c.pending) :
    Inv may got { c with pending := [], failed := c.failed ++ order } := by
  have phase := inv.phase
  rw [here] at phase
  refine ⟨inv.owned, inv.sent_iff, inv.once, ?_⟩
  simp only [here]
  exact ⟨phase.started, phase.gathered.giveUp perm, fun n _ _ => Or.inr done⟩

theorem Inv.respond (inv : Inv may got c) (here : c.phase = .collecting) (none : c.pending = []) :
    Inv may got { c with phase := .responded (respond c.failed) } := by
  have phase := inv.phase
  rw [here] at phase
  exact ⟨inv.owned, inv.sent_iff, inv.once,
    ⟨phase.started, phase.gathered, phase.ended⟩, none, rfl⟩

/-- One step, with the result that it may have received. -/
theorem Inv.advance (inv : Inv may got c) (registered : FiniteMap Bytes γ) (a : Action γ)
    (legal : Legal may ⟨registered, c⟩ a) :
    Inv may (got ++ (advance registered c a).2.toList) (advance registered c a).1 := by
  have stepped := advance_stepped registered c a
  generalize HealthChecks.advance registered c a = result at stepped ⊢
  cases stepped with
  | receive here waiting next => exact inv.receive here waiting next
  | idle => simpa using inv
  | copyChecks here => simpa using inv.copyChecks here _
  | start here mem => simpa using inv.start here mem
  | makePending here => simpa using inv.makePending here
  | finish checking outcome => simpa using inv.finish checking legal
  | send ended => simpa using inv.send ended
  | endContext => simpa using inv.endContext
  | giveUp here waiting done perm => simpa using inv.giveUp here done perm
  | respond here none => simpa using inv.respond here none

/-! ## Runs -/

variable {s : System γ} {h : List (Action γ × Option Result)} {a : Action γ}

theorem received_snoc (h : List (Action γ × Option Result)) (a : Action γ) (r : Option Result) :
    received (h ++ [(a, r)]) = received h ++ r.toList := by
  cases r <;> simp [received]

theorem step_call (s : System γ) (a : Action γ) :
    (step s a).1.call = (HealthChecks.advance s.registered s.call a).1 := by
  cases a with
  | register name check =>
    simp only [step]
    split <;> rfl
  | _ => rfl

theorem step_received (s : System γ) (a : Action γ) :
    (step s a).2 = (HealthChecks.advance s.registered s.call a).2 := by
  cases a with
  | register name check =>
    simp only [step]
    split <;> rfl
  | _ => rfl

theorem inv_step (inv : Inv may got s.call) (legal : Legal may s a) :
    Inv may (got ++ (step s a).2.toList) (step s a).1.call := by
  rw [step_call, step_received]
  exact inv.advance s.registered a legal

theorem inv_of_run (run : Run step (Legal may) (enter registered) h s) :
    Inv may (received h) s.call := by
  refine Run.invariant (P := fun h (s : System γ) => Inv may (received h) s.call) ?_ ?_ run
  · exact Inv.entered may registered
  intro h s a _ inv legal
  rw [received_snoc]
  exact inv_step inv legal

/-! ## The response -/

theorem respond_up : respond [] = ⟨200, "up", none⟩ := rfl

theorem respond_down {failed : List Bytes} (bad : failed ≠ []) :
    respond failed = ⟨503, "down", some (failed.insertionSort (· ≤ ·))⟩ := by
  have counted : (failed.insertionSort (· ≤ ·)).length > 0 := by
    rw [List.length_insertionSort]
    exact List.length_pos_iff.mpr bad
  exact if_pos counted

/-- Names that occur once are sorted strictly. -/
theorem insertionSort_strict {failed : List Bytes} (distinct : failed.Nodup) :
    (failed.insertionSort (· ≤ ·)).Pairwise (· < ·) := by
  have ordered := List.pairwise_insertionSort (fun a b : Bytes => a ≤ b) failed
  have different : (failed.insertionSort fun a b : Bytes => a ≤ b).Nodup :=
    (List.perm_insertionSort _ _).nodup_iff.mpr distinct
  refine (ordered.and different).imp ?_
  rintro a b ⟨le, ne⟩
  by_contra unordered
  exact ne (List.le_antisymm le unordered)

/-- The check has failed, or its result was not received before the context ended. -/
def Failing (got : List Result) (c : Call γ) (name : Bytes) : Prop :=
  name ∈ c.checks.keys ∧
    ((∃ p o, c.goroutines.lookup name = some p ∧ p.outcome = some o ∧ o.err ≠ none) ∨
      (c.done = true ∧ name ∉ got.map Prod.fst))

/-- What a response says about the checks that were copied. -/
inductive Answers (got : List Result) (c : Call γ) : Response → Prop where
  | up (healthy : ∀ n ∈ c.checks.keys, (n, none) ∈ got) : Answers got c ⟨200, "up", none⟩
  | down {failed : List Bytes} (bad : failed ≠ []) (sorted : failed.Pairwise (· < ·))
      (exact : ∀ n, n ∈ failed ↔ Failing got c n) : Answers got c ⟨503, "down", some failed⟩

theorem Inv.failing_iff (inv : Inv may got c) (collecting : Collecting got c)
    (none : c.pending = []) (n : Bytes) : n ∈ c.failed ↔ Failing got c n := by
  have gathered := collecting.gathered
  rw [none] at gathered
  rw [gathered.finished]
  constructor
  · rintro (⟨e, error⟩ | ⟨listed, silent⟩)
    · obtain ⟨o, sent, err⟩ := (inv.sent_iff n (some e)).mp (List.mem_append_left _ error)
      refine ⟨gathered.answers n _ error, Or.inl ⟨_, o, sent, rfl, ?_⟩⟩
      rw [err]
      exact Option.some_ne_none e
    · refine ⟨listed, Or.inr ⟨?_, silent⟩⟩
      rcases collecting.ended n listed silent with there | done
      · rw [none] at there
        cases there
      · exact done
  · rintro ⟨listed, ⟨p, o, found, ended, error⟩ | ⟨_, silent⟩⟩
    · by_cases silent : n ∈ got.map Prod.fst
      · obtain ⟨⟨n, e⟩, there, rfl⟩ := List.mem_map.mp silent
        obtain ⟨o', sent, err⟩ := (inv.sent_iff n e).mp (List.mem_append_left _ there)
        rw [Sent, found] at sent
        cases sent
        cases ended
        obtain ⟨x, here⟩ := Option.ne_none_iff_exists'.mp error
        rw [← err, here] at there
        exact Or.inl ⟨x, there⟩
      · exact Or.inr ⟨listed, silent⟩
    · exact Or.inr ⟨listed, silent⟩

theorem Inv.answers (inv : Inv may got c) {response : Response}
    (here : c.phase = .responded response) : Answers got c response := by
  have phase := inv.phase
  rw [here] at phase
  obtain ⟨collecting, none, rfl⟩ := phase
  have gathered := collecting.gathered
  by_cases empty : c.failed = []
  · rw [empty, respond_up]
    rw [none] at gathered
    exact Answers.up ((gathered.failed_eq_nil_iff inv.received_once).mp empty)
  · rw [respond_down empty]
    refine Answers.down ?_ (insertionSort_strict gathered.failed_nodup) fun n => ?_
    · rw [← List.length_pos_iff, List.length_insertionSort]
      exact List.length_pos_iff.mpr empty
    · rw [(List.perm_insertionSort _ _).mem_iff]
      exact inv.failing_iff collecting none n

/-! ## Progress -/

/-- The statements of the call itself. -/
def Own : Action γ → Prop
  | .copyChecks => True
  | .start _ => True
  | .makePending => True
  | .receive => True
  | .giveUp _ => True
  | .respond => True
  | _ => False

/-- A bound on the statements that a call with its copy still has to run. -/
def statementsLeft (c : Call γ) : Nat :=
  match c.phase with
  | .entered => 0
  | .starting left => left.length + size c.checks + 2
  | .collecting => c.pending.length + 1
  | .responded _ => 0

/-- The call needs nothing from elsewhere: its context has ended, or every result was sent. -/
def Settled (c : Call γ) : Prop :=
  c.done = true ∨ ∀ n ∈ c.checks.keys, ∃ o, Sent c n o

theorem length_filter_ne_lt {l : List Bytes} (mem : name ∈ l) :
    (l.filter (· ≠ name)).length < l.length := by
  refine List.length_filter_lt_length_iff_exists.mpr ⟨name, mem, ?_⟩
  simp

/-- Environment and goroutines leave the number as it is. -/
theorem statementsLeft_of_not_own (c : Call γ) (other : ¬ Own a) :
    statementsLeft (HealthChecks.advance registered c a).1 = statementsLeft c := by
  have stepped := advance_stepped registered c a
  generalize HealthChecks.advance registered c a = result at stepped ⊢
  cases stepped with
  | idle => rfl
  | finish checking outcome => rfl
  | send ended => rfl
  | endContext => rfl
  | _ => exact absurd trivial other

/-- A statement of the call that does anything uses up the number. -/
theorem Inv.own_decreases (inv : Inv may got c) (registered : FiniteMap Bytes γ)
    (copied : c.phase ≠ .entered) (own : Own a) :
    (HealthChecks.advance registered c a).1 = c ∨
      statementsLeft (HealthChecks.advance registered c a).1 < statementsLeft c := by
  have stepped := advance_stepped registered c a
  generalize HealthChecks.advance registered c a = result at stepped ⊢
  cases stepped with
  | idle => exact Or.inl rfl
  | copyChecks here => exact absurd here copied
  | start here mem =>
    right
    have shorter := length_filter_ne_lt mem
    simp only [statementsLeft, here]
    omega
  | makePending here =>
    right
    have keys : c.checks.keys.length = size c.checks := List.length_map _
    simp [statementsLeft, here, keys]
  | receive here waiting next =>
    right
    have phase := inv.phase
    rw [here] at phase
    have there := phase.gathered.whole waiting _ (inv.next_known next) (inv.next_fresh next)
    have shorter := length_filter_ne_lt there
    simp only [statementsLeft, here]
    omega
  | giveUp here waiting done perm =>
    right
    have longer := List.length_pos_iff.mpr waiting
    simp only [statementsLeft, here, List.length_nil]
    omega
  | respond here none =>
    right
    simp only [statementsLeft, here]
    omega
  | finish checking outcome => exact absurd own id
  | send ended => exact absurd own id
  | endContext => exact absurd own id

/-- A settled call that has not responded can run a statement. -/
theorem Inv.can_move (inv : Inv may got c) (registered : FiniteMap Bytes γ)
    (copied : c.phase ≠ .entered) (settled : Settled c) (unanswered : ∀ r, c.phase ≠ .responded r) :
    ∃ a, Own a ∧ (HealthChecks.advance registered c a).1 ≠ c := by
  cases here : c.phase with
  | entered => exact absurd here copied
  | responded response => exact absurd here (unanswered response)
  | starting left =>
    cases left with
    | nil =>
      refine ⟨.makePending, trivial, fun same => ?_⟩
      have phase := congrArg Call.phase same
      simp only [HealthChecks.advance, here] at phase
      cases phase
    | cons name rest =>
      refine ⟨.start name, trivial, fun same => ?_⟩
      have phase := congrArg Call.phase same
      simp only [HealthChecks.advance, here, List.mem_cons_self, if_true] at phase
      have shorter := length_filter_ne_lt (l := name :: rest) List.mem_cons_self
      rw [Phase.starting.inj phase] at shorter
      exact absurd shorter (Nat.lt_irrefl _)
  | collecting =>
    have phase := inv.phase
    rw [here] at phase
    cases pending : c.pending with
    | nil =>
      refine ⟨.respond, trivial, fun same => ?_⟩
      have phase := congrArg Call.phase same
      simp [HealthChecks.advance, here, pending] at phase
    | cons name rest =>
      rcases settled with done | sent
      · refine ⟨.giveUp c.pending, trivial, fun same => ?_⟩
        have left := congrArg Call.pending same
        simp [HealthChecks.advance, here, pending, done] at left
      · -- the result of a pending check is in the channel
        have there : name ∈ c.pending := by
          rw [pending]
          exact List.mem_cons_self
        obtain ⟨listed, silent⟩ := phase.gathered.waiting name there
        have known := inv.mem_names.mpr (sent name listed)
        rw [List.map_append, List.mem_append] at known
        cases next : c.results with
        | nil =>
          rw [next] at known
          exact absurd (known.resolve_left silent) List.not_mem_nil
        | cons result later =>
          refine ⟨.receive, trivial, fun same => ?_⟩
          have results := congrArg (fun c => c.results.length) same
          simp [HealthChecks.advance, here, pending, next] at results

/-- The statements of the call leave it settled. -/
theorem Inv.settled_own (inv : Inv may got c) (copied : c.phase ≠ .entered) (settled : Settled c)
    (own : Own a) : Settled (HealthChecks.advance registered c a).1 := by
  have stepped := advance_stepped registered c a
  generalize HealthChecks.advance registered c a = result at stepped ⊢
  cases stepped with
  | copyChecks here => exact absurd here copied
  | @start left name here mem =>
    rcases settled with done | sent
    · exact Or.inl done
    · -- nothing is left to start where everything was sent
      have phase := inv.phase
      rw [here] at phase
      obtain ⟨listed, idle⟩ := (phase.2 name).mp mem
      obtain ⟨o, here⟩ := sent name listed
      rw [Sent, idle] at here
      cases here
  | idle => exact settled
  | makePending here => exact settled
  | receive here waiting next => exact settled
  | giveUp here waiting done perm => exact settled
  | respond here none => exact settled
  | finish checking outcome => exact absurd own id
  | send ended => exact absurd own id
  | endContext => exact absurd own id

/-- The copy is made once. -/
theorem copied_advance (copied : c.phase ≠ .entered) (a : Action γ) :
    (HealthChecks.advance registered c a).1.phase ≠ .entered ∧
      (HealthChecks.advance registered c a).1.checks = c.checks := by
  have stepped := advance_stepped registered c a
  generalize HealthChecks.advance registered c a = result at stepped ⊢
  cases stepped with
  | copyChecks here => exact absurd here copied
  | start here mem => exact ⟨by simp, rfl⟩
  | makePending here => exact ⟨by simp, rfl⟩
  | respond here none => exact ⟨by simp, rfl⟩
  | _ => exact ⟨copied, rfl⟩

/-- Whatever it chooses, a settled call responds on its own within the number of statements. -/
theorem Inv.responds (inv : Inv may got s.call) (copied : s.call.phase ≠ .entered)
    (settled : Settled s.call) :
    ∃ actions : List (Action γ), (∀ a ∈ actions, Own a) ∧
      actions.length ≤ statementsLeft s.call ∧
      ∃ r, (play step s actions).2.call.phase = .responded r := by
  -- by induction on the number of statements left
  induction left : statementsLeft s.call using Nat.strong_induction_on generalizing s got with
  | _ n ih =>
    by_cases answered : ∃ r, s.call.phase = .responded r
    · exact ⟨[], fun a mem => absurd mem List.not_mem_nil, Nat.zero_le _, answered⟩
    · obtain ⟨a, own, moves⟩ := inv.can_move s.registered copied settled
        (not_exists.mp answered)
      have fewer := (inv.own_decreases s.registered copied own).resolve_left moves
      have legal : Legal may s a := by
        cases a with
        | finish name outcome => exact absurd own id
        | _ => trivial
      have next := inv_step inv legal
      rw [← step_call] at fewer
      have copied' : (step s a).1.call.phase ≠ .entered := by
        rw [step_call]
        exact (copied_advance copied a).1
      have settled' : Settled (step s a).1.call := by
        rw [step_call]
        exact inv.settled_own copied settled own
      obtain ⟨rest, owned, short, r, there⟩ := ih _ (left ▸ fewer) next copied' settled' rfl
      refine ⟨a :: rest, ?_, ?_, r, there⟩
      · intro b mem
        rcases List.mem_cons.mp mem with rfl | later
        · exact own
        · exact owned b later
      · rw [List.length_cons]
        omega

/-! ## Registrations beside the call -/

def isRegistration : Action γ → Bool
  | .register _ _ => true
  | _ => false

/-- Only the copy reads the registered checks. -/
theorem advance_independent (copied : c.phase ≠ .entered)
    (registered registered' : FiniteMap Bytes γ) (a : Action γ) :
    HealthChecks.advance registered c a = HealthChecks.advance registered' c a := by
  cases a with
  | copyChecks => simp only [HealthChecks.advance]
  | _ => rfl

/-- After the copy the call goes on as if there had been no registrations. -/
theorem play_isolated (copied : s.call.phase ≠ .entered) (registered : FiniteMap Bytes γ)
    (actions : List (Action γ)) :
    (play step s actions).2.call =
      (play step ⟨registered, s.call⟩ (actions.filter (!isRegistration ·))).2.call := by
  induction actions generalizing s registered with
  | nil => rfl
  | cons a rest ih =>
    have copied' : (step s a).1.call.phase ≠ .entered := by
      rw [step_call]
      exact (copied_advance copied a).1
    cases registers : isRegistration a with
    | true =>
      have same : (step s a).1.call = s.call := by
        rw [step_call]
        cases a with
        | register name check => rfl
        | _ => cases registers
      rw [List.filter_cons_of_neg (by simp [registers]), play, ih copied' registered, same]
    | false =>
      have same : (step s a).1.call = (step ⟨registered, s.call⟩ a).1.call := by
        rw [step_call, step_call, advance_independent copied s.registered registered]
      rw [List.filter_cons_of_pos (by simp [registers]), play, play,
        ih copied' (step ⟨registered, s.call⟩ a).1.registered, same]

/-- The copy has what is registered when it is made. -/
theorem copyChecks_lookup (here : s.call.phase = .entered) (n : Bytes) :
    (step s .copyChecks).1.call.checks.lookup n = s.registered.lookup n := by
  rw [step_call]
  simp only [HealthChecks.advance, here]
  exact lookup_copy s.registered n

/-- A goroutine whose check has ended is never held up by the channel. -/
theorem Inv.delivers (inv : Inv may got s.call)
    (ended : s.call.goroutines.lookup name = some (.ended outcome)) :
    Sent (step s (.send name)).1.call name outcome := by
  rw [step_call]
  simp only [HealthChecks.advance, sendResult, ended, if_pos (inv.room ended)]
  exact AList.lookup_insert _

/-! ## The whole call -/

/-- The call's statements use up a number that nothing else changes, and a settled call responds
within it; a check that has ended gets its result sent. -/
structure Terminating (s : System γ) : Prop where
  own : ∀ a, Own a → (step s a).1.call = s.call ∨
    statementsLeft (step s a).1.call < statementsLeft s.call
  others : ∀ a, ¬ Own a → statementsLeft (step s a).1.call = statementsLeft s.call
  responds : Settled s.call → ∃ actions : List (Action γ), (∀ a ∈ actions, Own a) ∧
    actions.length ≤ statementsLeft s.call ∧
    ∃ response, (play step s actions).2.call.phase = .responded response
  delivers : ∀ n o, s.call.goroutines.lookup n = some (.ended o) →
    Sent (step s (.send n)).1.call n o

/-- The call works on its copy: outcomes are those of the copied checks, and with or without
registrations it goes on in the same way. -/
structure Isolated (may : γ → Outcome → Prop) (s : System γ) : Prop where
  outcomes : ∀ n p o, s.call.goroutines.lookup n = some p → p.outcome = some o →
    ∃ check, s.call.checks.lookup n = some check ∧ may check o
  kept : ∀ a, (step s a).1.call.checks = s.call.checks
  unaffected : ∀ registered actions, (play step s actions).2.call =
    (play step ⟨registered, s.call⟩ (actions.filter (!isRegistration ·))).2.call

/-- Whatever the timing: at most one result is received for each check that was copied; a response
is up only if each of them answered without an error, and otherwise names exactly the failing
ones, sorted; the call comes to an end; and registrations after the copy make no difference. -/
theorem readiness_exact (may : γ → Outcome → Prop) (registered : FiniteMap Bytes γ)
    {h : List (Action γ × Option Result)} {s : System γ}
    (run : Run step (Legal may) (enter registered) h s) :
    (received h).length ≤ size s.call.checks ∧
    (∀ response, s.call.phase = .responded response → Answers (received h) s.call response) ∧
    (s.call.phase = .entered →
      ∀ n, (step s .copyChecks).1.call.checks.lookup n = s.registered.lookup n) ∧
    (s.call.phase ≠ .entered → Terminating s ∧ Isolated may s) := by
  have inv := inv_of_run run
  refine ⟨inv.length_le, fun response => inv.answers, copyChecks_lookup, fun copied => ⟨?_, ?_⟩⟩
  · constructor
    · intro a own
      rw [step_call]
      exact inv.own_decreases s.registered copied own
    · intro a other
      rw [step_call]
      exact statementsLeft_of_not_own _ other
    · exact inv.responds copied
    · exact fun n o => inv.delivers
  · constructor
    · intro n p o found outcome
      obtain ⟨check, known, honest⟩ := inv.owned n p found
      exact ⟨check, known, honest o outcome⟩
    · intro a
      rw [step_call]
      exact (copied_advance copied a).2
    · exact play_isolated copied

/-! ## A check that fails and one that is late -/

def sampleChecks : FiniteMap Bytes Nat :=
  ((∅ : FiniteMap Bytes Nat).insert [100, 98] 0).insert [99] 1

def sampleActions : List (Action Nat) := [
  .copyChecks, .start [99], .register [122] (some 2), .start [100, 98], .makePending,
  .finish [100, 98] .panicked, .send [100, 98], .receive, .endContext,
  .finish [99] (.returned none), .send [99], .giveUp [[99]], .respond]

/-- `db` panics; `c` answers after the context has ended and before the call looks. -/
theorem readiness_exact_late :
    let reached := play step (enter sampleChecks) sampleActions
    reached.2.call.phase = .responded ⟨503, "down", some [[99], [100, 98]]⟩ ∧
      Answers (received reached.1) reached.2.call ⟨503, "down", some [[99], [100, 98]]⟩ := by
  intro reached
  have here : reached.2.call.phase = .responded ⟨503, "down", some [[99], [100, 98]]⟩ := by
    decide +kernel
  have legal : LegalPlay step (Legal fun _ _ => True) (enter sampleChecks) sampleActions := by
    refine legalPlay_of_forall (fun a _ s => ?_) _
    cases a <;> simp [Legal]
  exact ⟨here, (readiness_exact _ sampleChecks (Run.of_play legal)).2.1 _ here⟩

end Readiness
