import StumpfworksFramework.LoginExchange
import StumpfworksFramework.Runs
import StumpfworksFramework.TransactionCodec
import StumpfworksFramework.TransactionStore

/-!
# The login system

Any number of logins in one run: `Begin`, `Put` and `Take` on any number of
stores, `Seal` and `Open` under any number of keys, and calls of `Complete` and
`CompleteWithToken`, interleaved step by step. Transactions live on a heap that
only grows; a client is never nil in `Begin` and `Open`. Codecs are told apart
by their keys, so that replicas with one key share a codec. The system also
keeps what the outside world has seen: the authorization addresses handed out,
the random strings drawn, and the calls of the cipher.
-/

namespace LoginSystem

open AuthenticatedEncryption ByteStrings Instants OidcClients OidcTransactions LoginExchange
  TransactionCodec TransactionStore

abbrev StoreRef := Nat
abbrev CodecRef := Nat

structure System where
  heap : List Transaction
  used : TxRef → Bool
  stores : StoreRef → Store
  calls : List Call
  urls : List AuthorizationURL
  drawn : List Draw
  ciphered : List (CodecRef × SealCall)

/-- No transaction: what a reference outside the heap is taken for. -/
def nowhere : Transaction := ⟨none, [], [], [], ⟨0⟩⟩

def System.txs (s : System) (τ : TxRef) : Transaction := s.heap[τ]?.getD nowhere

/-- A new transaction with its flag. -/
def System.allocate (s : System) (t : Transaction) (used : Bool) : System :=
  { s with heap := s.heap ++ [t], used := Function.update s.used s.heap.length used }

inductive Action where
  | begin (client : ClientRef) (staleReading createdReading : Time) (draws : Draws)
  | put (store : StoreRef) (transaction : Option TxRef) (browserBinding : Bytes) (sawUsed : Bool)
      (pruneReading now : Time)
  | take (store : StoreRef) (state browserBinding : Bytes) (now : Time) (raced : Bool)
  | sealRecord (codec : CodecRef) (transaction : Option TxRef) (now : Time)
      (random : Option {n : Bytes // n.length = 12})
  | openRecord (codec : CodecRef) (client : ClientRef) (record : Bytes) (now : Time)
  | enter (entry : Entry) (hasContext : Bool) (transaction : Option TxRef) (callback : Values)
      (requireAccessToken : Bool)
  | advance (call : Nat) (step : CallStep)

/-- What an action returns to its caller. -/
inductive Outcome where
  | begun (url : AuthorizationURL) (transaction : TxRef)
  | stored
  | taken (transaction : TxRef)
  | sealed (record : Bytes)
  | opened (transaction : TxRef)
  | failed (error : OidcError)
  | progressed

def Draws.values (draws : Draws) : List Draw :=
  draws.state.toList ++ draws.nonce.toList ++ draws.verifier.toList

section Step

variable (P : Platform) (clients : ClientRef → LoginClient) (codecs : CodecRef → Codec)

/-- In `take`, a flag set by a racing call is set by that call's own swap, which is another
action; only what `Take` makes of it is done here. -/
def step (s : System) : Action → System × Outcome
  | .begin client staleReading createdReading draws =>
    let s := { s with drawn := s.drawn ++ Draws.values draws }
    match LoginClient.begin P client (clients client) staleReading createdReading draws with
    | .error e => (s, .failed e)
    | .ok (url, t) =>
      ({ s.allocate t false with urls := s.urls ++ [url] }, .begun url s.heap.length)
  | .put store transaction browserBinding sawUsed pruneReading now =>
    let r := (s.stores store).put P s.txs s.used transaction browserBinding sawUsed pruneReading now
    ({ s with stores := Function.update s.stores store r.1 },
      match r.2 with
      | .error e => .failed e
      | .ok () => .stored)
  | .take store state browserBinding now raced =>
    let r := (s.stores store).take P s.txs s.used state browserBinding now raced
    ({ s with stores := Function.update s.stores store r.1 },
      match r.2.2 with
      | .error e => .failed e
      | .ok τ => .taken τ)
  | .sealRecord codec transaction now random =>
    let used := match transaction with
      | none => false
      | some τ => s.used τ
    match sealCall P clients (transaction.map s.txs) used now random with
    | .error e => (s, .failed e)
    | .ok call =>
      ({ s with ciphered := s.ciphered ++ [(codec, call)] }, .sealed ((codecs codec).record call))
  | .openRecord codec client record now =>
    match (codecs codec).open P clients client record now with
    | .error e => (s, .failed e)
    | .ok (t, used) => (s.allocate t used, .opened s.heap.length)
  | .enter entry hasContext transaction callback requireAccessToken =>
    ({ s with
        calls := s.calls ++
          [LoginExchange.enter s.txs entry hasContext transaction callback requireAccessToken] },
      .progressed)
  | .advance i step =>
    match s.calls[i]? with
    | none => (s, .progressed)
    | some call =>
      let r := LoginExchange.advance P clients s.txs s.used s.urls.length call step
      ({ s with calls := s.calls.set i r.1, used := r.2 }, .progressed)

end Step

/-- Callers hold references to transactions that exist. -/
def Pointers (s : System) : Action → Prop
  | .enter _ _ (some τ) _ _ => τ < s.heap.length
  | _ => True

theorem System.txs_append {s s' : System} {t : Transaction} (heap : s'.heap = s.heap ++ [t])
    {τ : TxRef} (old : τ < s.heap.length) : s'.txs τ = s.txs τ := by
  rw [System.txs, System.txs, heap, List.getElem?_append_left old]

/-- What an action does to heap, flags and calls. -/
inductive Change (P : Platform) (clients : ClientRef → LoginClient) (s s' : System) : Prop where
  | quiet (heap : s'.heap = s.heap) (used : s'.used = s.used) (calls : s'.calls = s.calls)
  | allocates (t : Transaction) (heap : s'.heap = s.heap ++ [t])
      (used : s'.used = Function.update s.used s.heap.length false) (calls : s'.calls = s.calls)
  | enters (call : Call) (fresh : call.stage = .entered ∧ call.won = false ∧ call.request = none)
      (exists_ : ∀ τ, call.transaction = some τ → τ < s.heap.length)
      (heap : s'.heap = s.heap) (used : s'.used = s.used) (calls : s'.calls = s.calls ++ [call])
  | advances (i : Nat) (call : Call) (step : CallStep) (at_ : s.calls[i]? = some call)
      (heap : s'.heap = s.heap)
      (used : s'.used = (advance P clients s.txs s.used s.urls.length call step).2)
      (calls : s'.calls =
        s.calls.set i (advance P clients s.txs s.used s.urls.length call step).1)

theorem step_change {P : Platform} {clients : ClientRef → LoginClient}
    {codecs : CodecRef → Codec} {s : System} {a : Action} (pointers : Pointers s a) :
    Change P clients s (step P clients codecs s a).1 := by
  cases a with
  | begin client staleReading createdReading draws =>
    simp only [step]
    split
    · exact .quiet rfl rfl rfl
    · rename_i url t _
      exact .allocates t rfl rfl rfl
  | put store transaction browserBinding sawUsed pruneReading now => exact .quiet rfl rfl rfl
  | take store state browserBinding now raced => exact .quiet rfl rfl rfl
  | sealRecord codec transaction now random =>
    simp only [step]
    split <;> exact .quiet rfl rfl rfl
  | openRecord codec client record now =>
    simp only [step]
    split
    · exact .quiet rfl rfl rfl
    · rename_i t used opened
      obtain ⟨_, _, plain, _, _, _, _, same⟩ := open_ok_iff.mp opened
      obtain ⟨rfl, rfl⟩ := Prod.mk.inj same
      exact .allocates _ rfl rfl rfl
  | enter entry hasContext transaction callback requireAccessToken =>
    refine .enters _ ⟨rfl, rfl, rfl⟩ ?_ rfl rfl rfl
    intro τ given
    change transaction = some τ at given
    subst given
    exact pointers
  | advance i st =>
    simp only [step]
    split
    · exact .quiet rfl rfl rfl
    · rename_i call at_
      exact .advances i call st at_ rfl rfl rfl

end LoginSystem
