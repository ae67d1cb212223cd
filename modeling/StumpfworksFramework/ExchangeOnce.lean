import StumpfworksFramework.LoginSystem
import StumpfworksFramework.SealedLogins

/-!
# A pending login is exchanged at most once

Whoever swaps the flag of a transaction first is the only call that can go on
to the token endpoint. The invariant says of every call what it has achieved so
far, and of every flag which call set it.
-/

namespace ExchangeOnce

open ByteStrings Instants OidcClients OidcTransactions LoginExchange LoginSystem Runs
  SealedLogins TransactionCodec

section Progress

variable (P : Platform) (clients : ClientRef → LoginClient) (txs : TxRef → Transaction)

/-- The tests that a call passed between its swap and its request. -/
def Call.Timely (call : Call) (τ : TxRef) : Prop :=
  ∃ ageReading skewReading, call.readings = some (ageReading, skewReading) ∧
    call.accepted txs τ ageReading skewReading = true

/-- A call that sent a request did so for its own client and transaction, after all tests. -/
def Exchanged (call : Call) (c : ClientRef) (τ : TxRef) : Prop :=
  call.admitted txs = some (c, τ) ∧ call.won = true ∧ Call.Timely txs call τ ∧
    call.request = some (tokenRequest (clients c) (txs τ) call.callback)

/-- What a call has achieved at each stage. -/
def Progress (call : Call) : Prop :=
  match call.stage with
  | .entered => call.won = false ∧ call.request = none
  | .claimed c τ => call.admitted txs = some (c, τ) ∧ call.won = true ∧ call.request = none
  | .matched c τ =>
    call.admitted txs = some (c, τ) ∧ call.won = true ∧ call.request = none ∧
      Call.Timely txs call τ
  | .sent c τ => Exchanged clients txs call c τ
  | .done result =>
    (call.won = true → ∃ c τ, call.admitted txs = some (c, τ)) ∧
    (call.request ≠ none → ∃ c τ, Exchanged clients txs call c τ) ∧
    ∀ r, result = .ok r → ∃ c τ, Exchanged clients txs call c τ ∧
      ∃ now raw, verifyIDToken P (clients c).verifier now raw (txs τ).nonce = .ok r.identity

variable {P clients txs}

theorem Progress.won {call : Call} (progress : Progress P clients txs call)
    (won : call.won = true) : ∃ c τ, call.admitted txs = some (c, τ) := by
  unfold Progress at progress
  split at progress
  · rw [progress.1] at won
    cases won
  · exact ⟨_, _, progress.1⟩
  · exact ⟨_, _, progress.1⟩
  · exact ⟨_, _, progress.1⟩
  · exact progress.1 won

theorem Progress.exchanged {call : Call} (progress : Progress P clients txs call)
    (sent : call.request ≠ none) : ∃ c τ, Exchanged clients txs call c τ := by
  unfold Progress at progress
  split at progress
  · exact absurd progress.2 sent
  · exact absurd progress.2.2 sent
  · exact absurd progress.2.2.1 sent
  · exact ⟨_, _, progress⟩
  · exact progress.2.1 sent

theorem Progress.succeeded {call : Call} (progress : Progress P clients txs call)
    {r : LoginResult} (done : call.stage = .done (.ok r)) :
    ∃ c τ, Exchanged clients txs call c τ ∧
      ∃ now raw, verifyIDToken P (clients c).verifier now raw (txs τ).nonce = .ok r.identity := by
  rw [Progress, done] at progress
  exact progress.2.2 r rfl

/-- A step of a call keeps the account of what it has achieved. -/
theorem Progress.advance {call : Call} (progress : Progress P clients txs call)
    (used : TxRef → Bool) (emitted : Nat) (step : CallStep) :
    Progress P clients txs (LoginExchange.advance P clients txs used emitted call step).1 := by
  rcases advance_cases P clients txs used emitted call step with
    same | ⟨stage, _, same, _⟩ | ⟨c, τ, stage, _, own, _, same⟩ | ⟨c, τ, stage, same⟩ |
    ⟨c, τ, ageReading, skewReading, stage, passed, same⟩ | ⟨c, τ, stage, same⟩ |
    ⟨c, τ, response, now, stage, same⟩ <;> rw [same]
  · exact progress
  · rw [Progress, stage] at progress
    refine ⟨fun won => ?_, fun sent => absurd progress.2 sent, fun r h => by cases h⟩
    rw [show call.fail.won = call.won from rfl, progress.1] at won
    cases won
  · rw [Progress, stage] at progress
    exact ⟨own, rfl, progress.2⟩
  · refine ⟨progress.won, fun sent => ?_, fun r h => by cases h⟩
    exact progress.exchanged sent
  · rw [Progress, stage] at progress
    exact ⟨progress.1, progress.2.1, progress.2.2, ageReading, skewReading, rfl, passed⟩
  · rw [Progress, stage] at progress
    exact ⟨progress.1, progress.2.1, progress.2.2.2, rfl⟩
  · rw [Progress, stage] at progress
    refine ⟨fun _ => ⟨c, τ, progress.1⟩, fun _ => ⟨c, τ, progress⟩, ?_⟩
    intro r concluded
    obtain ⟨raw, verified⟩ := conclude_ok concluded
    exact ⟨c, τ, progress, now, raw, verified⟩

/-- Only the call's own transaction matters. -/
theorem admitted_congr {txs' : TxRef → Transaction} {call : Call}
    (same : ∀ τ, call.transaction = some τ → txs' τ = txs τ) :
    call.admitted txs' = call.admitted txs := by
  unfold Call.admitted
  split
  · rename_i c τ _ given
    rw [same τ given]
  · rfl

theorem Exchanged.congr {txs' : TxRef → Transaction} {call : Call} {c : ClientRef} {τ : TxRef}
    (same : ∀ τ, call.transaction = some τ → txs' τ = txs τ)
    (exchanged : Exchanged clients txs call c τ) : Exchanged clients txs' call c τ := by
  obtain ⟨own, won, ⟨ageReading, skewReading, readings, accepted⟩, request⟩ := exchanged
  have here := same τ (Call.admitted_eq_some.mp own).2.1
  refine ⟨(admitted_congr same).trans own, won, ⟨ageReading, skewReading, readings, ?_⟩, ?_⟩
  · rw [Call.accepted, here]
    exact accepted
  · rw [here]
    exact request

theorem Progress.congr {txs' : TxRef → Transaction} {call : Call}
    (same : ∀ τ, call.transaction = some τ → txs' τ = txs τ)
    (progress : Progress P clients txs call) : Progress P clients txs' call := by
  have own := admitted_congr same
  unfold Progress at progress ⊢
  split at progress
  · exact progress
  · rw [own]
    exact progress
  · rename_i c τ stage
    obtain ⟨admitted, won, request, ageReading, skewReading, readings, accepted⟩ := progress
    have here := same τ (Call.admitted_eq_some.mp admitted).2.1
    refine ⟨own.trans admitted, won, request, ageReading, skewReading, readings, ?_⟩
    rw [Call.accepted, here]
    exact accepted
  · exact Exchanged.congr same progress
  · obtain ⟨won, sent, ok⟩ := progress
    refine ⟨?_, ?_, ?_⟩
    · rw [own]
      exact won
    · intro request
      obtain ⟨c, τ, exchanged⟩ := sent request
      exact ⟨c, τ, exchanged.congr same⟩
    · intro r done
      obtain ⟨c, τ, exchanged, now, raw, verified⟩ := ok r done
      refine ⟨c, τ, exchanged.congr same, now, raw, ?_⟩
      rw [same τ (Call.admitted_eq_some.mp exchanged.1).2.1]
      exact verified

end Progress

/-! ## Flags and winners -/

/-- Used before the run began. -/
def UsedBefore (s₀ : System) (τ : TxRef) : Prop := τ < s₀.heap.length ∧ s₀.used τ = true

/-- The call has made its swap, or was turned away before it. -/
def Call.Past (call : Call) : Prop := call.stage ≠ .entered

structure Inv (P : Platform) (clients : ClientRef → LoginClient) (s₀ s : System) : Prop where
  grown : s₀.heap.length ≤ s.heap.length
  pointers : ∀ (i : Nat) (call : Call) (τ : TxRef), s.calls[i]? = some call →
    call.transaction = some τ → τ < s.heap.length
  progress : ∀ (i : Nat) (call : Call), s.calls[i]? = some call → Progress P clients s.txs call
  kept : ∀ τ, UsedBefore s₀ τ → s.used τ = true
  consumed : ∀ (i : Nat) (call : Call) (c : ClientRef) (τ : TxRef), s.calls[i]? = some call →
    call.admitted s.txs = some (c, τ) → Call.Past call → s.used τ = true
  cause : ∀ τ, τ < s.heap.length → s.used τ = true → UsedBefore s₀ τ ∨
    ∃ (i : Nat) (call : Call) (c : ClientRef), s.calls[i]? = some call ∧
      call.admitted s.txs = some (c, τ) ∧ Call.Past call
  unclaimed : ∀ (i : Nat) (call : Call) (τ : TxRef), s.calls[i]? = some call → call.won = true →
    call.transaction = some τ → ¬ UsedBefore s₀ τ
  exclusive : ∀ (i j : Nat) (a b : Call) (τ : TxRef), s.calls[i]? = some a →
    s.calls[j]? = some b → a.won = true → b.won = true → a.transaction = some τ →
    b.transaction = some τ → i = j

section Preservation

variable {P : Platform} {clients : ClientRef → LoginClient} {s₀ s s' : System}

theorem Inv.start (none : s₀.calls = []) : Inv P clients s₀ s₀ where
  grown := Nat.le_refl _
  pointers := by simp [none]
  progress := by simp [none]
  kept := fun _ before => before.2
  consumed := by simp [none]
  cause := fun _ inside used => Or.inl ⟨inside, used⟩
  unclaimed := by simp [none]
  exclusive := by simp [none]

/-- Only heap, flags and calls matter. -/
theorem Inv.quiet (inv : Inv P clients s₀ s) (heap : s'.heap = s.heap) (used : s'.used = s.used)
    (calls : s'.calls = s.calls) : Inv P clients s₀ s' := by
  cases s
  cases s'
  cases heap
  cases used
  cases calls
  exact ⟨inv.grown, inv.pointers, inv.progress, inv.kept, inv.consumed, inv.cause, inv.unclaimed,
    inv.exclusive⟩

theorem Inv.allocates (inv : Inv P clients s₀ s) {t : Transaction}
    (heap : s'.heap = s.heap ++ [t])
    (used : s'.used = Function.update s.used s.heap.length false) (calls : s'.calls = s.calls) :
    Inv P clients s₀ s' := by
  have size : s'.heap.length = s.heap.length + 1 := by simp [heap]
  have flag : ∀ τ, τ < s.heap.length → s'.used τ = s.used τ := by
    intro τ old
    rw [used, Function.update_of_ne (Nat.ne_of_lt old)]
  have same : ∀ (i : Nat) (call : Call), s.calls[i]? = some call →
      ∀ τ, call.transaction = some τ → s'.txs τ = s.txs τ :=
    fun i call found τ given => System.txs_append heap (inv.pointers i call τ found given)
  have own : ∀ (i : Nat) (call : Call), s.calls[i]? = some call →
      call.admitted s'.txs = call.admitted s.txs :=
    fun i call found => admitted_congr (same i call found)
  refine ⟨?_, ?_, ?_, ?_, ?_, ?_, ?_, ?_⟩
  · have := inv.grown
    omega
  · rw [calls]
    intro i call τ found given
    rw [size]
    exact Nat.lt_succ_of_lt (inv.pointers i call τ found given)
  · rw [calls]
    intro i call found
    exact (inv.progress i call found).congr (same i call found)
  · intro τ before
    rw [flag τ (Nat.lt_of_lt_of_le before.1 inv.grown)]
    exact inv.kept τ before
  · rw [calls]
    intro i call c τ found admitted past
    rw [own i call found] at admitted
    rw [flag τ (inv.pointers i call τ found (Call.admitted_eq_some.mp admitted).2.1)]
    exact inv.consumed i call c τ found admitted past
  · intro τ inside set
    by_cases old : τ < s.heap.length
    · rw [flag τ old] at set
      rcases inv.cause τ old set with before | ⟨i, call, c, found, admitted, past⟩
      · exact Or.inl before
      · exact Or.inr ⟨i, call, c, calls ▸ found, (own i call found).trans admitted, past⟩
    · -- The new transaction is not used.
      rw [size] at inside
      have new : τ = s.heap.length :=
        Nat.le_antisymm (Nat.lt_succ_iff.mp inside) (Nat.le_of_not_lt old)
      rw [used, new, Function.update_self] at set
      cases set
  · rw [calls]
    exact inv.unclaimed
  · rw [calls]
    exact inv.exclusive

theorem Inv.enters (inv : Inv P clients s₀ s) {call : Call}
    (fresh : call.stage = .entered ∧ call.won = false ∧ call.request = none)
    (inside : ∀ τ, call.transaction = some τ → τ < s.heap.length) (heap : s'.heap = s.heap)
    (used : s'.used = s.used) (calls : s'.calls = s.calls ++ [call]) : Inv P clients s₀ s' := by
  have txs : s'.txs = s.txs := by
    funext τ
    rw [System.txs, System.txs, heap]
  have older : ∀ (i : Nat) (x : Call), s'.calls[i]? = some x → x.won = true ∨ Call.Past x →
      s.calls[i]? = some x := by
    intro i x found active
    rw [calls] at found
    rcases getElem?_concat_cases found with old | ⟨_, rfl⟩
    · exact old
    · rcases active with won | past
      · rw [fresh.2.1] at won
        cases won
      · exact absurd fresh.1 past
  refine ⟨?_, ?_, ?_, ?_, ?_, ?_, ?_, ?_⟩
  · rw [heap]
    exact inv.grown
  · intro i x τ found given
    rw [calls] at found
    rw [heap]
    rcases getElem?_concat_cases found with old | ⟨_, rfl⟩
    · exact inv.pointers i x τ old given
    · exact inside τ given
  · intro i x found
    rw [calls] at found
    rw [txs]
    rcases getElem?_concat_cases found with old | ⟨_, rfl⟩
    · exact inv.progress i x old
    · rw [Progress, fresh.1]
      exact fresh.2
  · rw [used]
    exact inv.kept
  · intro i x c τ found admitted past
    rw [txs] at admitted
    rw [used]
    exact inv.consumed i x c τ (older i x found (Or.inr past)) admitted past
  · rw [heap, used, txs]
    intro τ old set
    rcases inv.cause τ old set with before | ⟨i, x, c, found, admitted, past⟩
    · exact Or.inl before
    · refine Or.inr ⟨i, x, c, ?_, admitted, past⟩
      rw [calls, List.getElem?_append_left (List.getElem?_eq_some_iff.mp found).1]
      exact found
  · intro i x τ found won given
    exact inv.unclaimed i x τ (older i x found (Or.inl won)) won given
  · intro i j x y τ hx hy wx wy gx gy
    exact inv.exclusive i j x y τ (older i x hx (Or.inl wx)) (older j y hy (Or.inl wy)) wx wy gx gy

/-- What a step means for ownership, flags and winners. -/
theorem advance_effect (P : Platform) (clients : ClientRef → LoginClient)
    (txs : TxRef → Transaction) (used : TxRef → Bool) (emitted : Nat) (call : Call)
    (step : CallStep) :
    let r := advance P clients txs used emitted call step
    r.1.transaction = call.transaction ∧ r.1.admitted txs = call.admitted txs ∧
    (∀ τ, used τ = true → r.2 τ = true) ∧
    (∀ τ, r.2 τ = true → used τ = true ∨
      ∃ c, call.admitted txs = some (c, τ) ∧ Call.Past r.1) ∧
    (Call.Past r.1 → Call.Past call ∨ ∀ c τ, call.admitted txs = some (c, τ) → r.2 τ = true) ∧
    (Call.Past call → Call.Past r.1) ∧
    (r.1.won = true →
      call.won = true ∨ ∃ c τ, call.admitted txs = some (c, τ) ∧ used τ = false) := by
  intro r
  simp only [r]
  rcases advance_cases P clients txs used emitted call step with
    same | ⟨stage, _, same, taken⟩ | ⟨c, τ, stage, _, own, free, same⟩ | ⟨c, τ, stage, same⟩ |
    ⟨c, τ, ageReading, skewReading, stage, _, same⟩ | ⟨c, τ, stage, same⟩ |
    ⟨c, τ, response, now, stage, same⟩ <;> rw [same]
  · exact ⟨rfl, rfl, fun _ h => h, fun _ h => Or.inl h, Or.inl, id, Or.inl⟩
  · exact ⟨rfl, rfl, fun _ h => h, fun _ h => Or.inl h, fun _ => Or.inr taken,
      fun past => absurd stage past, Or.inl⟩
  · refine ⟨rfl, rfl, ?_, ?_, ?_, fun past => absurd stage past, fun _ => Or.inr ⟨c, τ, own, free⟩⟩
    · intro τ' set
      change Function.update used τ true τ' = true
      by_cases here : τ' = τ
      · rw [here, Function.update_self]
      · rw [Function.update_of_ne here]
        exact set
    · intro τ' set
      change Function.update used τ true τ' = true at set
      by_cases here : τ' = τ
      · exact Or.inr ⟨c, here ▸ own, by simp [Call.Past]⟩
      · rw [Function.update_of_ne here] at set
        exact Or.inl set
    · intro _
      right
      intro c' τ' own'
      rw [own] at own'
      cases own'
      exact Function.update_self ..
  · refine ⟨rfl, rfl, fun _ h => h, fun _ h => Or.inl h, fun _ => Or.inl ?_, ?_, Or.inl⟩
    · rcases stage with stage | stage <;> simp [Call.Past, stage]
    · intro _
      simp [Call.Past, Call.fail]
  all_goals
    refine ⟨rfl, rfl, fun _ h => h, fun _ h => Or.inl h, fun _ => Or.inl ?_, ?_, Or.inl⟩
    · simp [Call.Past, stage]
    · intro _
      simp [Call.Past]

/-- The flag of a transaction is set once a call has won it. -/
theorem Inv.claimed (inv : Inv P clients s₀ s) {j : Nat} {y : Call} {τ : TxRef}
    (found : s.calls[j]? = some y) (won : y.won = true) (given : y.transaction = some τ) :
    s.used τ = true := by
  have progress := inv.progress j y found
  obtain ⟨c, τ', admitted⟩ := progress.won won
  have same := (Call.admitted_eq_some.mp admitted).2.1
  rw [given] at same
  cases same
  refine inv.consumed j y c τ found admitted ?_
  intro entered
  rw [Progress, entered] at progress
  rw [progress.1] at won
  cases won

theorem Inv.advances (inv : Inv P clients s₀ s) {i : Nat} {call : Call} {step : CallStep}
    (here : s.calls[i]? = some call) (heap : s'.heap = s.heap)
    (used : s'.used = (advance P clients s.txs s.used s.urls.length call step).2)
    (calls : s'.calls = s.calls.set i (advance P clients s.txs s.used s.urls.length call step).1) :
    Inv P clients s₀ s' := by
  have txs : s'.txs = s.txs := by
    funext τ
    rw [System.txs, System.txs, heap]
  have next := (inv.progress i call here).advance s.used s.urls.length step
  obtain ⟨target, own, monotone, causes, swaps, stays, wins⟩ :=
    advance_effect P clients s.txs s.used s.urls.length call step
  generalize advance P clients s.txs s.used s.urls.length call step = r at *
  have inside : i < s.calls.length := (List.getElem?_eq_some_iff.mp here).1
  have lookup : s'.calls[i]? = some r.1 := by
    rw [calls, List.getElem?_set_self inside]
  -- A call with the flag won leaves no other call room to win it.
  have winner : ∀ (j : Nat) (x : Call) (τ : TxRef), s'.calls[j]? = some x → x.won = true →
      x.transaction = some τ → (∃ y, s.calls[j]? = some y ∧ y.won = true ∧
        y.transaction = some τ) ∨ (j = i ∧ s.used τ = false) := by
    intro j x τ found won given
    rw [calls] at found
    rcases getElem?_set_cases found with ⟨rfl, rfl⟩ | ⟨_, old⟩
    · rcases wins won with already | ⟨c, τ', admitted, free⟩
      · exact Or.inl ⟨call, here, already, target ▸ given⟩
      · have same := (Call.admitted_eq_some.mp admitted).2.1
        rw [← target, given] at same
        cases same
        exact Or.inr ⟨rfl, free⟩
    · exact Or.inl ⟨x, old, won, given⟩
  refine ⟨?_, ?_, ?_, ?_, ?_, ?_, ?_, ?_⟩
  · rw [heap]
    exact inv.grown
  · intro j x τ found given
    rw [calls] at found
    rw [heap]
    rcases getElem?_set_cases found with ⟨rfl, rfl⟩ | ⟨_, old⟩
    · exact inv.pointers j call τ here (target ▸ given)
    · exact inv.pointers j x τ old given
  · intro j x found
    rw [calls] at found
    rw [txs]
    rcases getElem?_set_cases found with ⟨rfl, rfl⟩ | ⟨_, old⟩
    · exact next
    · exact inv.progress j x old
  · intro τ before
    rw [used]
    exact monotone τ (inv.kept τ before)
  · intro j x c τ found admitted past
    rw [calls] at found
    rw [txs] at admitted
    rw [used]
    rcases getElem?_set_cases found with ⟨rfl, rfl⟩ | ⟨_, old⟩
    · rw [own] at admitted
      rcases swaps past with before | now
      · exact monotone τ (inv.consumed j call c τ here admitted before)
      · exact now c τ admitted
    · exact monotone τ (inv.consumed j x c τ old admitted past)
  · rw [heap, used, txs]
    intro τ old set
    rcases causes τ set with before | ⟨c, admitted, past⟩
    · rcases inv.cause τ old before with initially | ⟨j, x, c, found, admitted, past⟩
      · exact Or.inl initially
      · by_cases moved : j = i
        · subst moved
          rw [here] at found
          cases found
          exact Or.inr ⟨j, r.1, c, lookup, own.trans admitted, stays past⟩
        · refine Or.inr ⟨j, x, c, ?_, admitted, past⟩
          rw [calls, List.getElem?_set_ne (Ne.symm moved)]
          exact found
    · exact Or.inr ⟨i, r.1, c, lookup, own.trans admitted, past⟩
  · intro j x τ found won given before
    rcases winner j x τ found won given with ⟨y, old, won', given'⟩ | ⟨_, free⟩
    · exact inv.unclaimed j y τ old won' given' before
    · rw [inv.kept τ before] at free
      cases free
  · intro j k x y τ hx hy wx wy gx gy
    rcases winner j x τ hx wx gx with ⟨x', oldx, wx', gx'⟩ | ⟨rfl, free⟩
    · rcases winner k y τ hy wy gy with ⟨y', oldy, wy', gy'⟩ | ⟨_, free⟩
      · exact inv.exclusive j k x' y' τ oldx oldy wx' wy' gx' gy'
      · rw [inv.claimed oldx wx' gx'] at free
        cases free
    · rcases winner k y τ hy wy gy with ⟨y', oldy, wy', gy'⟩ | ⟨rfl, _⟩
      · rw [inv.claimed oldy wy' gy'] at free
        cases free
      · rfl

theorem Inv.change (inv : Inv P clients s₀ s) (change : Change P clients s s') :
    Inv P clients s₀ s' := by
  cases change with
  | quiet heap used calls => exact inv.quiet heap used calls
  | allocates t heap used calls => exact inv.allocates heap used calls
  | enters call fresh inside heap used calls => exact inv.enters fresh inside heap used calls
  | advances i call step here heap used calls => exact inv.advances here heap used calls

theorem run_inv {codecs : CodecRef → Codec} (none : s₀.calls = []) {legal : System → Action → Prop}
    (pointers : ∀ s a, legal s a → Pointers s a) {h : List (Action × Outcome)}
    (run : Run (step P clients codecs) legal s₀ h s) : Inv P clients s₀ s := by
  refine run.invariant (P := fun _ s => Inv P clients s₀ s) (Inv.start none) ?_
  intro h s a _ inv allowed
  exact inv.change (step_change (pointers s a allowed))

end Preservation

/-! ## The result -/

def Call.Succeeded (call : Call) : Prop := ∃ r, call.stage = .done (.ok r)

/-- The call was made on the owner of its transaction, with a context. -/
def Call.Reaches (call : Call) (t : Transaction) : Prop :=
  call.hasContext = true ∧ ∃ c, call.receiver = some c ∧ t.owner = some c

/-- What holds of one transaction after any run. -/
structure AtMostOnce (P : Platform) (clients : ClientRef → LoginClient)
    (codecs : CodecRef → Codec) (s₀ s : System) (τ : TxRef) (t : Transaction) : Prop where
  one_request : ∀ (i j : Nat) (a b : Call), s.calls[i]? = some a → s.calls[j]? = some b →
    a.transaction = some τ → b.transaction = some τ → a.request ≠ none → b.request ≠ none → i = j
  one_success : ∀ (i j : Nat) (a b : Call), s.calls[i]? = some a → s.calls[j]? = some b →
    a.transaction = some τ → b.transaction = some τ → Call.Succeeded a → Call.Succeeded b → i = j
  /-- The call that sends has passed every test, at its own clock readings. -/
  sender : ∀ (i : Nat) (a : Call), s.calls[i]? = some a → a.transaction = some τ →
    a.request ≠ none → ¬ UsedBefore s₀ τ ∧ Call.Reaches a t ∧
      (∃ code, a.callback (ascii "code") = [code] ∧ code ≠ [] ∧ code.length ≤ 4096) ∧
      a.callback (ascii "state") = [t.state] ∧ a.callback (ascii "error") = [] ∧
      ∃ ageReading skewReading, a.readings = some (ageReading, skewReading) ∧
        ageReading.ns - t.createdAt.ns ≤ 5 * minute ∧ t.createdAt.ns - skewReading.ns ≤ minute
  success_sent : ∀ (i : Nat) (a : Call), s.calls[i]? = some a → Call.Succeeded a →
    a.request ≠ none
  consumes : ∀ (i : Nat) (a : Call), s.calls[i]? = some a → a.transaction = some τ →
    Call.Reaches a t → Call.Past a → s.used τ = true
  /-- A used flag was set by a call that reached the owner, unless it was set all along. -/
  consumer : s.used τ = true → UsedBefore s₀ τ ∨ ∃ (i : Nat) (a : Call), s.calls[i]? = some a ∧
    a.transaction = some τ ∧ Call.Reaches a t ∧ Call.Past a
  /-- A call elsewhere, or without a context, sets no flag in any of its steps. -/
  usable : ∀ (i : Nat) (a : Call) (st : CallStep), s.calls[i]? = some a →
    a.transaction = some τ → ¬ Call.Reaches a t →
    (step P clients codecs s (.advance i st)).1.used = s.used

theorem reaches_iff {s : System} {τ : TxRef} {t : Transaction} (here : s.heap[τ]? = some t)
    {a : Call} (target : a.transaction = some τ) :
    Call.Reaches a t ↔ ∃ c, a.admitted s.txs = some (c, τ) := by
  have same : s.txs τ = t := by
    rw [System.txs, here, Option.getD_some]
  constructor
  · rintro ⟨context, c, receiver, owner⟩
    exact ⟨c, Call.admitted_eq_some.mpr ⟨receiver, target, context, same ▸ owner⟩⟩
  · rintro ⟨c, admitted⟩
    obtain ⟨receiver, _, context, owner⟩ := Call.admitted_eq_some.mp admitted
    exact ⟨context, c, receiver, same ▸ owner⟩

/-- A pending login is exchanged at most once, whatever calls compete for it. -/
theorem exchanged_at_most_once (P : Platform) (clients : ClientRef → LoginClient)
    (codecs : CodecRef → Codec) {s₀ : System} (none : s₀.calls = [])
    {h : List (Action × Outcome)} {s : System}
    (run : Run (step P clients codecs) Pointers s₀ h s) {τ : TxRef} {t : Transaction}
    (here : s.heap[τ]? = some t) : AtMostOnce P clients codecs s₀ s τ t := by
  have inv := run_inv none (fun _ _ allowed => allowed) run
  have inside : τ < s.heap.length := (List.getElem?_eq_some_iff.mp here).1
  have same : s.txs τ = t := by
    rw [System.txs, here, Option.getD_some]
  refine ⟨?_, ?_, ?_, ?_, ?_, ?_, ?_⟩
  · intro i j a b ha hb ta tb sa sb
    obtain ⟨_, _, _, wa, _⟩ := (inv.progress i a ha).exchanged sa
    obtain ⟨_, _, _, wb, _⟩ := (inv.progress j b hb).exchanged sb
    exact inv.exclusive i j a b τ ha hb wa wb ta tb
  · rintro i j a b ha hb ta tb ⟨ra, da⟩ ⟨rb, db⟩
    obtain ⟨_, _, ⟨_, wa, _⟩, _⟩ := (inv.progress i a ha).succeeded da
    obtain ⟨_, _, ⟨_, wb, _⟩, _⟩ := (inv.progress j b hb).succeeded db
    exact inv.exclusive i j a b τ ha hb wa wb ta tb
  · intro i a ha target sent
    obtain ⟨c, τ', admitted, won, ⟨ageReading, skewReading, readings, accepted⟩, _⟩ :=
      (inv.progress i a ha).exchanged sent
    have own := (Call.admitted_eq_some.mp admitted).2.1
    rw [target] at own
    cases own
    obtain ⟨age, skew, callback⟩ := Call.accepted_iff.mp accepted
    rw [same] at age skew callback
    obtain ⟨code, state, error⟩ := callbackAccepted_iff.mp callback
    exact ⟨inv.unclaimed i a τ ha won target, (reaches_iff here target).mpr ⟨c, admitted⟩, code,
      state, error, ageReading, skewReading, readings, age, skew⟩
  · rintro i a ha ⟨r, done⟩
    obtain ⟨_, _, ⟨_, _, _, request⟩, _⟩ := (inv.progress i a ha).succeeded done
    rw [request]
    exact Option.some_ne_none _
  · intro i a ha target reaches past
    obtain ⟨c, admitted⟩ := (reaches_iff here target).mp reaches
    exact inv.consumed i a c τ ha admitted past
  · intro set
    rcases inv.cause τ inside set with before | ⟨i, a, c, found, admitted, past⟩
    · exact Or.inl before
    · have target := (Call.admitted_eq_some.mp admitted).2.1
      exact Or.inr ⟨i, a, found, target, (reaches_iff here target).mpr ⟨c, admitted⟩, past⟩
  · intro i a st found target elsewhere
    simp only [step, found]
    obtain ⟨_, _, monotone, causes, _⟩ :=
      advance_effect P clients s.txs s.used s.urls.length a st
    funext τ'
    by_cases before : s.used τ' = true
    · rw [before]
      exact monotone τ' before
    · rw [Bool.not_eq_true] at before
      rw [before, Bool.eq_false_iff]
      intro set
      rcases causes τ' set with now | ⟨c, admitted, _⟩
      · rw [before] at now
        cases now
      · have own := (Call.admitted_eq_some.mp admitted).2.1
        rw [target] at own
        cases own
        exact elsewhere ((reaches_iff here target).mpr ⟨c, admitted⟩)

/-- Two callbacks race for one login: both have entered when the first one swaps the flag,
and it goes on to send its request. -/
theorem exchanged_at_most_once_race :
    let callback : Values := fun k =>
      if k = ascii "state" then [sampleLogin.state]
      else if k = ascii "code" then [ascii "code"] else []
    let start : System := ⟨[sampleLogin], fun _ => false, fun _ => ⟨1, ∅, Nat.zero_le _⟩, [], [],
      [], []⟩
    let next := step samplePlatform sampleClients (fun _ => sampleCodec)
    let final := (play next start [
      .enter (.client (some 0)) true (some 0) callback false,
      .enter .transaction true (some 0) callback true,
      .advance 0 .swap,
      .advance 1 .swap,
      .advance 0 (.check (sampleLogin.createdAt.add minute) (sampleLogin.createdAt.add minute)),
      .advance 0 (.send true)]).2
    (∃ a, final.calls[0]? = some a ∧ a.request ≠ none) ∧
      AtMostOnce samplePlatform sampleClients (fun _ => sampleCodec) start final 0 sampleLogin := by
  intro callback start next final
  refine ⟨⟨_, rfl, Option.some_ne_none _⟩, ?_⟩
  refine exchanged_at_most_once samplePlatform sampleClients (fun _ => sampleCodec) rfl
    (Run.of_play ?_) rfl
  exact ⟨Nat.zero_lt_one, Nat.zero_lt_one, trivial, trivial, trivial, trivial, trivial⟩

end ExchangeOnce
