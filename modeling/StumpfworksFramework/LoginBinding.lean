import StumpfworksFramework.ExchangeOnce

/-!
# The values of one login stay together

Every transaction in the system, in memory or in a sealed record, carries the
state, nonce and verifier of exactly one authorization address, and belongs to
a client with the redirect URI and client ID of that address. Assumed are fresh
random draws, a collision-free SHA-256 and a cipher that opens only what was
sealed. No length bound on the strings is needed: client IDs are short and an
issuer has no zero byte, so the hashed lengths cannot be shifted into another
field. For the latter the URL parser has to refuse control bytes, as `net/url`
does outside of a fragment, which an issuer cannot have.
-/

namespace LoginBinding

open AuthenticatedEncryption Base64Url ByteStrings ExchangeOnce Instants LoginExchange LoginSystem
  OidcClients OidcTransactions Runs SealedLogins TransactionCodec

/-! ## Identities from associated data -/

/-- A URL that parses without a fragment has no ASCII control bytes. -/
def RefusesControls (P : Platform) : Prop :=
  ∀ x u, P.parseUrl x = some u → u.fragment = [] → ∀ b ∈ x, ¬(b < 32 ∨ b = 127)

/-- So it is with `url.Parse`, whatever it takes for a host. -/
theorem refusesControls_of_parse {P : Platform} {rules : UrlReferences.Rules}
    (parses : P.parseUrl = UrlReferences.parse rules) : RefusesControls P := by
  intro x u parsed fragment
  rw [parses] at parsed
  exact UrlReferences.parse_printable parsed fragment

theorem built_issuer {P : Platform} (strict : RefusesControls P) {c : LoginClient}
    (built : c.Built P) : 0 ∉ c.verifier.issuer := by
  obtain ⟨⟨clientID, secret, redirectURI, made⟩, _⟩ := built
  obtain ⟨_, _, _, _, valid, _⟩ := newLoginClient_ok made
  intro zero
  unfold validIssuer at valid
  split at valid
  · cases valid
  · rename_i u parsed
    obtain ⟨_, _, _, _, _, _, fragment, _⟩ := of_decide_eq_true valid
    exact strict _ u parsed fragment 0 zero (Or.inl (by decide))

theorem built_clientID {P : Platform} {c : LoginClient} (built : c.Built P) :
    c.clientID.length ≤ 256 := by
  obtain ⟨⟨clientID, secret, redirectURI, made⟩, issuer, clientID', jwks, verifier⟩ := built
  obtain ⟨_, _, _, _, _, same, _⟩ := newLoginClient_ok made
  obtain ⟨_, own, _, _, short⟩ := newVerifier_ok verifier
  rw [same, own]
  exact short

/-- The length field of a client ID starts with a zero byte. -/
theorem bigEndian_short_head {n : Nat} (short : n ≤ 256) : (bigEndian 4 n)[0]? = some 0 := by
  have zero : n / 256 / 256 / 256 % 256 = 0 := by omega
  simp [bigEndian, zero]

theorem issuer_not_shorter {i i' c r : Bytes} {rest : Bytes} (short : c.length ≤ 256)
    (noZero : 0 ∉ i') (same : i ++ delimited 4 [c, r] = i' ++ rest) : i'.length ≤ i.length := by
  by_contra longer
  have inside : i.length < i'.length := by omega
  have left : (i ++ delimited 4 [c, r])[i.length]? = some 0 := by
    rw [List.getElem?_append_right (Nat.le_refl _), Nat.sub_self, delimited_cons,
      List.getElem?_append_left (by simp)]
    exact bigEndian_short_head short
  rw [same, List.getElem?_append_left inside] at left
  exact noZero (List.mem_of_getElem? left)

theorem sameIdentity_of_transactionAAD {P : Platform} (collisionFree : Function.Injective P.sha256)
    (strict : RefusesControls P) {c c' : LoginClient} (built : c.Built P) (built' : c'.Built P)
    (same : transactionAAD P c = transactionAAD P c') : SameIdentity c c' := by
  have bytes := collisionFree same
  have short := built_clientID built
  have short' := built_clientID built'
  have tails : c.verifier.issuer ++ delimited 4 [c.clientID, c.redirectURI] =
      c'.verifier.issuer ++ delimited 4 [c'.clientID, c'.redirectURI] := by
    rw [associatedBytes, associatedBytes, delimited_cons, delimited_cons 4 c'.verifier.issuer]
      at bytes
    exact (List.append_inj bytes (by simp)).2
  have lengths : c.verifier.issuer.length = c'.verifier.issuer.length :=
    Nat.le_antisymm (issuer_not_shorter short' (built_issuer strict built) tails.symm)
      (issuer_not_shorter short (built_issuer strict built') tails)
  obtain ⟨issuer, rest⟩ := List.append_inj tails lengths
  have ids : c.clientID.length = c'.clientID.length :=
    bigEndian_injective (by omega) (by omega) (delimited_head rest)
  obtain ⟨clientID, last⟩ := delimited_cons_inj ids rest
  rw [delimited_cons, delimited_cons 4 c'.redirectURI] at last
  have redirectURI := (List.append_inj last (by simp)).2
  exact ⟨issuer, clientID, by simpa using redirectURI⟩

/-! ## Transactions and authorization addresses -/

section Binding

variable (P : Platform) (clients : ClientRef → LoginClient)

/-- The address carries the values of the transaction and of its client. -/
structure Bound (u : AuthorizationURL) (t : Transaction) : Prop where
  state : u.query (ascii "state") = [t.state]
  nonce : u.query (ascii "nonce") = [t.nonce]
  challenge : u.query (ascii "code_challenge") = [encodeToString (P.sha256 t.verifier)]
  client : ∃ c, t.owner = some c ∧ u.query (ascii "redirect_uri") = [(clients c).redirectURI] ∧
    u.query (ascii "client_id") = [(clients c).clientID]

/-- One of the addresses handed out so far carries the values of the transaction. -/
def HandedOut (urls : List AuthorizationURL) (t : Transaction) : Prop :=
  ∃ u ∈ urls, Bound P clients u t

variable {P clients}

theorem bound_begin {ref : ClientRef} {staleReading createdReading : Time} {draws : Draws}
    {u : AuthorizationURL} {t : Transaction}
    (begun : LoginClient.begin P ref (clients ref) staleReading createdReading draws = .ok (u, t)) :
    Bound P clients u t ∧ ∃ d ∈ Draws.values draws, t.state = encodeToString d.val := by
  obtain ⟨_, state, nonce, verifier, rfl, rfl, rfl⟩ := LoginClient.begin_ok begun
  refine ⟨⟨rfl, rfl, rfl, ref, rfl, rfl, rfl⟩, state, ?_, rfl⟩
  simp [Draws.values]

/-- A transaction that was opened by a client of the same identity stays bound. -/
theorem Bound.reopened {u : AuthorizationURL} {t : Transaction} (bound : Bound P clients u t)
    {c ref : ClientRef} (owner : t.owner = some c) (same : SameIdentity (clients c) (clients ref))
    (createdAt : Time) :
    Bound P clients u { t with owner := some ref, createdAt := createdAt } := by
  obtain ⟨state, nonce, challenge, c', owner', redirect, client⟩ := bound
  rw [owner] at owner'
  cases owner'
  refine ⟨state, nonce, challenge, ref, rfl, ?_, ?_⟩
  · rw [redirect, same.2.2]
  · rw [client, same.2.1]

theorem HandedOut.mono {urls : List AuthorizationURL} {t : Transaction}
    (handed : HandedOut P clients urls t) (more : List AuthorizationURL) :
    HandedOut P clients (urls ++ more) t := by
  obtain ⟨u, mem, bound⟩ := handed
  exact ⟨u, List.mem_append_left _ mem, bound⟩

end Binding

/-! ## The invariant -/

section System

variable (P : Platform) (clients : ClientRef → LoginClient) (codecs : CodecRef → Codec)

/-- The calls of the cipher under one key. -/
def cipherLog (s : System) (codec : CodecRef) : List SealCall :=
  (s.ciphered.filter fun e => e.1 = codec).map Prod.snd

/-- Draws are new and distinct, and what is opened was sealed under the same key. -/
def Honest (s : System) : Action → Prop
  | .begin _ _ _ draws => (Draws.values draws).Nodup ∧ ∀ d ∈ Draws.values draws, d ∉ s.drawn
  | .openRecord codec client record _ =>
    (codecs codec).aead.Authentic (cipherLog s codec) ((record.drop 1).take 12) (record.drop 13)
      (transactionAAD P (clients client))
  | a => Pointers s a

theorem Honest.pointers {P : Platform} {clients : ClientRef → LoginClient}
    {codecs : CodecRef → Codec} {s : System} {a : Action} (honest : Honest P clients codecs s a) :
    Pointers s a := by
  cases a <;> first | exact trivial | exact honest

/-- A system in which nothing has happened yet. -/
def System.fresh (used : TxRef → Bool) (stores : StoreRef → TransactionStore.Store) : System :=
  ⟨[], used, stores, [], [], [], []⟩

/-- A cipher call that holds a transaction of the system. -/
def Carries (urls : List AuthorizationURL) (call : SealCall) : Prop :=
  ∃ t c, t.owner = some c ∧ validTransactionFields t = true ∧ call.plaintext = plaintext t ∧
    call.additionalData = transactionAAD P (clients c) ∧ HandedOut P clients urls t

/-- A request was sent after the address that carries its transaction was handed out. -/
def SentAfter (s : System) (call : Call) : Prop :=
  ∀ c τ, call.admitted s.txs = some (c, τ) →
    ∃ (k : Nat) (u : AuthorizationURL), k < call.emitted ∧ s.urls[k]? = some u ∧
      Bound P clients u (s.txs τ)

structure Linked (s : System) : Prop where
  heap : ∀ t ∈ s.heap, HandedOut P clients s.urls t
  ciphered : ∀ e ∈ s.ciphered, Carries P clients s.urls e.2
  drawn : ∀ u ∈ s.urls, ∃ d ∈ s.drawn, u.query (ascii "state") = [encodeToString d.val]
  distinct : s.urls.Pairwise fun u v => u.query (ascii "state") ≠ v.query (ascii "state")
  sent : ∀ (i : Nat) (call : Call), s.calls[i]? = some call → call.request ≠ none →
    SentAfter P clients s call

variable {P clients codecs}

theorem Carries.mono {urls : List AuthorizationURL} {call : SealCall}
    (carries : Carries P clients urls call) (more : List AuthorizationURL) :
    Carries P clients (urls ++ more) call := by
  obtain ⟨t, c, owner, fields, plain, data, handed⟩ := carries
  exact ⟨t, c, owner, fields, plain, data, handed.mono more⟩

/-- A transaction with an owner is on the heap. -/
theorem txs_mem_heap {s : System} {τ : TxRef} {c : ClientRef} (owner : (s.txs τ).owner = some c) :
    s.txs τ ∈ s.heap := by
  unfold System.txs at owner ⊢
  cases found : s.heap[τ]? with
  | none =>
    rw [found] at owner
    cases owner
  | some t => exact List.mem_of_getElem? found

theorem SentAfter.grow {s s' : System} {call : Call} (sent : SentAfter P clients s call)
    (same : ∀ τ, call.transaction = some τ → s'.txs τ = s.txs τ)
    {more : List AuthorizationURL} (urls : s'.urls = s.urls ++ more) :
    SentAfter P clients s' call := by
  intro c τ admitted
  rw [admitted_congr same] at admitted
  obtain ⟨k, u, early, found, bound⟩ := sent c τ admitted
  refine ⟨k, u, early, ?_, ?_⟩
  · rw [urls, List.getElem?_append_left (List.getElem?_eq_some_iff.mp found).1]
    exact found
  · rw [same τ (Call.admitted_eq_some.mp admitted).2.1]
    exact bound

/-- A bound transaction joins the heap; addresses may be added before. -/
theorem Linked.allocate {s s' : System} {t : Transaction} (linked : Linked P clients s)
    (pointers : ∀ (i : Nat) (call : Call) (τ : TxRef), s.calls[i]? = some call →
      call.transaction = some τ → τ < s.heap.length)
    (heap : s'.heap = s.heap ++ [t]) (calls : s'.calls = s.calls)
    (ciphered : s'.ciphered = s.ciphered) {more : List AuthorizationURL}
    (urls : s'.urls = s.urls ++ more) (handed : HandedOut P clients s'.urls t)
    (drawn : ∀ u ∈ s'.urls, ∃ d ∈ s'.drawn, u.query (ascii "state") = [encodeToString d.val])
    (distinct : s'.urls.Pairwise fun u v => u.query (ascii "state") ≠ v.query (ascii "state")) :
    Linked P clients s' := by
  refine ⟨?_, ?_, drawn, distinct, ?_⟩
  · rw [heap]
    refine forall_mem_concat (fun x old => ?_) handed
    rw [urls]
    exact (linked.heap x old).mono more
  · intro e mem
    rw [ciphered] at mem
    rw [urls]
    exact (linked.ciphered e mem).mono more
  · intro i call found request
    rw [calls] at found
    refine (linked.sent i call found request).grow ?_ urls
    intro τ given
    exact System.txs_append heap (pointers i call τ found given)

theorem Linked.begin {s : System} (linked : Linked P clients s) {s₀ : System}
    (inv : Inv P clients s₀ s) {client : ClientRef} {staleReading createdReading : Time}
    {draws : Draws} (honest : Honest P clients codecs s
      (.begin client staleReading createdReading draws)) :
    Linked P clients
      (step P clients codecs s (.begin client staleReading createdReading draws)).1 := by
  have drawn : ∀ u ∈ s.urls, ∃ d ∈ s.drawn ++ Draws.values draws,
      u.query (ascii "state") = [encodeToString d.val] := by
    intro u mem
    obtain ⟨d, known, same⟩ := linked.drawn u mem
    exact ⟨d, List.mem_append_left _ known, same⟩
  simp only [step]
  split
  · exact ⟨linked.heap, linked.ciphered, drawn, linked.distinct, linked.sent⟩
  · rename_i url t begun
    obtain ⟨bound, d, new, state⟩ := bound_begin begun
    refine linked.allocate inv.pointers rfl rfl rfl rfl ?_ ?_ ?_
    · exact ⟨url, List.mem_append_right _ List.mem_cons_self, bound⟩
    · have last : url.query (ascii "state") = [encodeToString d.val] := by rw [bound.state, state]
      exact forall_mem_concat drawn ⟨d, List.mem_append_right _ new, last⟩
    · -- A new draw gives a state that no earlier address has.
      refine List.pairwise_append.mpr ⟨linked.distinct, List.pairwise_singleton _ _, ?_⟩
      intro u old v last same
      obtain ⟨d', known, query⟩ := linked.drawn u old
      rw [List.mem_singleton.mp last, bound.state, state, query, List.cons.injEq] at same
      have equal : d' = d := Subtype.ext (encodeToString_injective same.1)
      exact honest.2 d new (equal ▸ known)

theorem Linked.sealRecord {s : System} (linked : Linked P clients s) (codec : CodecRef)
    (transaction : Option TxRef) (now : Time) (random : Option {n : Bytes // n.length = 12}) :
    Linked P clients (step P clients codecs s (.sealRecord codec transaction now random)).1 := by
  simp only [step]
  split
  · exact linked
  · rename_i call made
    refine ⟨linked.heap, ?_, linked.drawn, linked.distinct, linked.sent⟩
    refine forall_mem_concat linked.ciphered ?_
    obtain ⟨t, c, nonce, given, owner, _, _, fields, _, rfl⟩ := sealCall_ok made
    obtain ⟨τ, _, rfl⟩ := Option.map_eq_some_iff.mp given
    exact ⟨s.txs τ, c, owner, fields, rfl, rfl, linked.heap _ (txs_mem_heap owner)⟩

theorem Linked.openRecord (collisionFree : Function.Injective P.sha256)
    (strict : RefusesControls P) (built : ∀ ref, (clients ref).Built P) {s : System}
    (linked : Linked P clients s) {s₀ : System} (inv : Inv P clients s₀ s) {codec : CodecRef}
    {client : ClientRef} {record : Bytes} {now : Time}
    (honest : Honest P clients codecs s (.openRecord codec client record now)) :
    Linked P clients (step P clients codecs s (.openRecord codec client record now)).1 := by
  simp only [step]
  split
  · exact linked
  · rename_i t used opened
    obtain ⟨call, logged, _, own, result, _⟩ := open_authentic honest opened
    obtain ⟨e, sealed, rfl⟩ := List.mem_map.mp logged
    obtain ⟨original, c, owner, fields, plain, data, u, mem, bound⟩ :=
      linked.ciphered e (List.mem_of_mem_filter sealed)
    have same : SameIdentity (clients c) (clients client) :=
      sameIdentity_of_transactionAAD collisionFree strict (built c) (built client)
        (data.symm.trans own)
    obtain ⟨rfl, rfl⟩ := Prod.mk.inj result
    rw [plain, restore_plaintext fields]
    refine linked.allocate inv.pointers rfl rfl rfl (List.append_nil _).symm ?_ linked.drawn
      linked.distinct
    exact ⟨u, mem, bound.reopened owner same _⟩

theorem Linked.enter {s : System} (linked : Linked P clients s) (entry : Entry)
    (hasContext : Bool) (transaction : Option TxRef) (callback : Values)
    (requireAccessToken : Bool) :
    Linked P clients (step P clients codecs s
      (.enter entry hasContext transaction callback requireAccessToken)).1 := by
  refine ⟨linked.heap, linked.ciphered, linked.drawn, linked.distinct, ?_⟩
  intro i call found request
  rcases getElem?_concat_cases found with old | ⟨_, rfl⟩
  · exact linked.sent i call old request
  · exact absurd rfl request

/-- Only `send` gives a call a request, and then counts the addresses handed out so far. -/
theorem advance_request (P : Platform) (clients : ClientRef → LoginClient)
    (txs : TxRef → Transaction) (used : TxRef → Bool) (emitted : Nat) (call : Call)
    (st : CallStep) :
    let r := advance P clients txs used emitted call st
    r.1.request ≠ none →
      (call.request ≠ none ∧ r.1.emitted = call.emitted) ∨ r.1.emitted = emitted := by
  intro r
  simp only [r]
  rcases advance_cases P clients txs used emitted call st with
    same | ⟨_, _, same, _⟩ | ⟨c, τ, _, _, _, _, same⟩ | ⟨c, τ, _, same⟩ |
    ⟨c, τ, ageReading, skewReading, _, _, same⟩ | ⟨c, τ, _, same⟩ |
    ⟨c, τ, response, now, _, same⟩ <;> rw [same] <;> intro request
  case inr.inr.inr.inr.inr.inl => exact Or.inr rfl
  all_goals exact Or.inl ⟨request, rfl⟩

theorem Linked.advance {s : System} (linked : Linked P clients s) (i : Nat) (st : CallStep) :
    Linked P clients (step P clients codecs s (.advance i st)).1 := by
  simp only [step]
  split
  · exact linked
  · rename_i call here
    refine ⟨linked.heap, linked.ciphered, linked.drawn, linked.distinct, ?_⟩
    intro j x found request
    rcases getElem?_set_cases found with ⟨rfl, rfl⟩ | ⟨_, old⟩
    · obtain ⟨_, own, _⟩ := advance_effect P clients s.txs s.used s.urls.length call st
      intro c τ admitted
      change (LoginExchange.advance P clients s.txs s.used s.urls.length call st).1.admitted
        s.txs = _ at admitted
      rw [own] at admitted
      rcases advance_request P clients s.txs s.used s.urls.length call st request with
        ⟨before, same⟩ | now
      · rw [same]
        exact linked.sent j call here before c τ admitted
      · obtain ⟨_, _, _, owner⟩ := Call.admitted_eq_some.mp admitted
        obtain ⟨u, mem, bound⟩ := linked.heap _ (txs_mem_heap owner)
        obtain ⟨k, inside, rfl⟩ := List.mem_iff_getElem.mp mem
        rw [now]
        exact ⟨k, _, inside, List.getElem?_eq_getElem inside, bound⟩
    · exact linked.sent j x old request

theorem run_linked (collisionFree : Function.Injective P.sha256) (strict : RefusesControls P)
    (built : ∀ ref, (clients ref).Built P) {used : TxRef → Bool}
    {stores : StoreRef → TransactionStore.Store} {h : List (Action × Outcome)} {s : System}
    (run : Run (step P clients codecs) (Honest P clients codecs) (System.fresh used stores) h s) :
    Linked P clients s := by
  refine run.invariant (P := fun _ s => Linked P clients s) ?_ ?_
  · exact ⟨by simp [System.fresh], by simp [System.fresh], by simp [System.fresh],
      List.Pairwise.nil, by simp [System.fresh]⟩
  · intro h s a before linked honest
    have inv : Inv P clients (System.fresh used stores) s :=
      run_inv rfl (fun _ _ => Honest.pointers) before
    cases a with
    | begin client staleReading createdReading draws => exact linked.begin inv honest
    | put store transaction browserBinding sawUsed pruneReading now =>
      exact ⟨linked.heap, linked.ciphered, linked.drawn, linked.distinct, linked.sent⟩
    | take store state browserBinding now raced =>
      exact ⟨linked.heap, linked.ciphered, linked.drawn, linked.distinct, linked.sent⟩
    | sealRecord codec transaction now random =>
      exact linked.sealRecord codec transaction now random
    | openRecord codec client record now =>
      exact linked.openRecord collisionFree strict built inv honest
    | enter entry hasContext transaction callback requireAccessToken =>
      exact linked.enter entry hasContext transaction callback requireAccessToken
    | advance i st => exact linked.advance i st

end System

/-- Exactly one authorization address has the state that the callback names. It was handed out
before the request was sent, and verifier, redirect URI, client ID and nonce are those of it. -/
def OfOneLogin (P : Platform) (clients : ClientRef → LoginClient) (s : System) (call : Call)
    (q : TokenRequest) : Prop :=
  ∃ (k : Nat) (u : AuthorizationURL), k < call.emitted ∧ s.urls[k]? = some u ∧
    u.query (ascii "state") = call.callback (ascii "state") ∧
    (∀ (k' : Nat) (u' : AuthorizationURL), s.urls[k']? = some u' →
      u'.query (ascii "state") = call.callback (ascii "state") → k' = k) ∧
    (∃ verifier, q.form (ascii "code_verifier") = [verifier] ∧
      ∀ v, u.query (ascii "code_challenge") = [encodeToString (P.sha256 v)] ↔ v = verifier) ∧
    q.form (ascii "redirect_uri") = u.query (ascii "redirect_uri") ∧
    u.query (ascii "client_id") = [q.username] ∧
    ∀ r, call.stage = .done (.ok r) → ∃ c now raw nonce, call.receiver = some c ∧
      u.query (ascii "nonce") = [nonce] ∧
      verifyIDToken P (clients c).verifier now raw nonce = .ok r.identity

/-- Whenever a completion has sent a token request, all of it belongs to one login. -/
theorem logins_never_mix (P : Platform) (collisionFree : Function.Injective P.sha256)
    (strict : RefusesControls P) (clients : ClientRef → LoginClient)
    (built : ∀ ref, (clients ref).Built P) (codecs : CodecRef → Codec) {used : TxRef → Bool}
    {stores : StoreRef → TransactionStore.Store} {h : List (Action × Outcome)} {s : System}
    (run : Run (step P clients codecs) (Honest P clients codecs) (System.fresh used stores) h s)
    {i : Nat} {call : Call} (found : s.calls[i]? = some call) {q : TokenRequest}
    (sent : call.request = some q) : OfOneLogin P clients s call q := by
  have linked := run_linked collisionFree strict built run
  have inv : Inv P clients (System.fresh used stores) s :=
    run_inv rfl (fun _ _ => Honest.pointers) run
  have progress := inv.progress i call found
  have request : call.request ≠ none := by
    rw [sent]
    exact Option.some_ne_none q
  obtain ⟨c, τ, admitted, _, ⟨_, _, _, accepted⟩, made⟩ := progress.exchanged request
  obtain ⟨receiver, _, _, owner⟩ := Call.admitted_eq_some.mp admitted
  obtain ⟨_, state, _⟩ := callbackAccepted_iff.mp (Call.accepted_iff.mp accepted).2.2
  obtain ⟨k, u, early, here, bound⟩ := linked.sent i call found request c τ admitted
  obtain ⟨c', owner', redirect, client⟩ := bound.client
  rw [owner] at owner'
  cases owner'
  rw [sent] at made
  cases made
  refine ⟨k, u, early, here, bound.state.trans state.symm, ?_, ?_, redirect.symm, client, ?_⟩
  · intro k' u' here' named
    -- Two addresses at different places have different states.
    by_contra apart
    have same : u'.query (ascii "state") = u.query (ascii "state") := by
      rw [named, state, bound.state]
    obtain ⟨inside, rfl⟩ := List.getElem?_eq_some_iff.mp here
    obtain ⟨inside', rfl⟩ := List.getElem?_eq_some_iff.mp here'
    have distinct := List.pairwise_iff_getElem.mp linked.distinct
    rcases Nat.lt_or_gt_of_ne apart with before | after
    · exact distinct k' k inside' inside before same
    · exact distinct k k' inside inside' after same.symm
  · refine ⟨(s.txs τ).verifier, rfl, ?_⟩
    intro v
    rw [bound.challenge, List.cons.injEq]
    constructor
    · rintro ⟨same, _⟩
      exact (collisionFree (encodeToString_injective same)).symm
    · rintro rfl
      exact ⟨rfl, rfl⟩
  · intro r done
    obtain ⟨c', τ', ⟨admitted', _⟩, now, raw, verified⟩ := progress.succeeded done
    rw [admitted] at admitted'
    cases admitted'
    exact ⟨c, now, raw, (s.txs τ).nonce, receiver, bound.nonce, verified⟩

/-! ## A login that changes replicas -/

theorem samplePlatform_strict : RefusesControls samplePlatform := refusesControls_of_parse rfl

theorem sampleClients_built (ref : ClientRef) : (sampleClients ref).Built samplePlatform := by
  have verifier : newVerifier samplePlatform (ascii "https://id.example") (ascii "app") sampleJwks =
      .ok sampleVerifier := by
    decide +kernel
  have issuer : validIssuer samplePlatform sampleVerifier.issuer = true := by decide +kernel
  have authorize : sameOriginEndpoint samplePlatform sampleVerifier.issuer
      (ascii "https://id.example/authorize") = true := by
    decide +kernel
  have token : sameOriginEndpoint samplePlatform sampleVerifier.issuer
      (ascii "https://id.example/token") = true := by
    decide +kernel
  have redirect : validRedirect samplePlatform (ascii "https://app.example/cb") = true := by
    decide +kernel
  have clientID : ascii "app" ≠ [] ∧ sampleVerifier.clientID = ascii "app" := by decide +kernel
  refine ⟨⟨ascii "app", [UInt8.ofNat ref], ascii "https://app.example/cb", ?_⟩, _, _, _, verifier⟩
  simp [newLoginClient, sampleClients, sampleClient, issuer, authorize, token, redirect, clientID]

/-- A login begins at one replica, is sealed there, and is opened and completed at another. -/
theorem logins_never_mix_replicas :
    let callback : Values := fun k =>
      if k = ascii "state" then [sampleLogin.state]
      else if k = ascii "code" then [ascii "code"] else []
    let later := sampleLogin.createdAt.add minute
    let start := System.fresh (fun _ => false) (fun _ => ⟨1, ∅, Nat.zero_le _⟩)
    let next := step samplePlatform sampleClients (fun _ => sampleCodec)
    let actions : List Action := [
      .begin 0 sampleLogin.createdAt sampleLogin.createdAt
        ⟨some ⟨List.replicate 32 0, rfl⟩, some ⟨List.replicate 32 1, rfl⟩,
          some ⟨List.replicate 32 2, rfl⟩⟩,
      .sealRecord 0 (some 0) later (some sampleNonce),
      .openRecord 0 1 sampleRecord later,
      .enter .transaction true (some 1) callback false,
      .advance 0 .swap,
      .advance 0 (.check later later),
      .advance 0 (.send true)]
    let final := (play next start actions).2
    ∃ call q, final.calls[0]? = some call ∧ call.request = some q ∧
      OfOneLogin samplePlatform sampleClients final call q := by
  intro callback later start next actions final
  have legal : LegalPlay next (Honest samplePlatform sampleClients (fun _ => sampleCodec)) start
      actions := by
    refine ⟨⟨by decide, by simp [start, System.fresh]⟩, trivial, ?_, ?_, trivial, trivial, trivial,
      trivial⟩
    · intro p _
      exact ⟨⟨List.replicate 12 0, plaintext sampleLogin, sampleDigest⟩, by decide +kernel,
        by decide +kernel, by decide +kernel, by decide +kernel⟩
    · change 1 < (System.heap _).length
      decide +kernel
  have run := Run.of_play legal
  have requested : (final.calls[0]?.bind Call.request).isSome = true := by decide +kernel
  change Run _ _ _ _ final at run
  clear_value final
  obtain ⟨q, sent⟩ := Option.isSome_iff_exists.mp requested
  obtain ⟨call, found, sent⟩ := Option.bind_eq_some_iff.mp sent
  exact ⟨call, q, found, sent, logins_never_mix samplePlatform samplePlatform_collisionFree
    samplePlatform_strict sampleClients sampleClients_built (fun _ => sampleCodec)
    run found sent⟩

end LoginBinding
