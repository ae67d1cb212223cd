import StumpfworksFramework.OneShotMaps
import StumpfworksFramework.Runs
import StumpfworksFramework.TransactionStore

/-!
# The store of pending logins is a bounded one-shot map

The ledger of a store holds, for every state, the transaction and the browser
secret it was stored with; the store keeps only a hash of that secret. Every
action on the store is one step of the one-shot map, whatever the clock shows
and whenever flags are set. Hashing is assumed injective on 32-byte secrets.
-/

namespace StoreRefinement

open ByteStrings FiniteMaps Instants OidcClients OidcTransactions OneShotMaps Runs TransactionStore

section Refinement

variable (P : Platform) (txs : TxRef → Transaction)

/-- An entry stands for a transaction and the browser secret it was stored with. -/
def Files (e : PendingEntry) (p : TxRef × Bytes) : Prop :=
  e.transaction = p.1 ∧ ∃ decoded, decodeBinding p.2 = some decoded ∧
    e.bindingHash = P.sha256 decoded

/-- The store's entries, seen as a ledger of transactions and browser secrets. -/
def Agrees (store : Store) (l : Ledger Bytes TxRef Bytes) : Prop :=
  ∀ k, Option.Rel (Files P) (store.entries.lookup k) (l k)

/-- Every entry is filed under its own transaction's 43-byte state. -/
def FiledByState (store : Store) : Prop :=
  ∀ k e, store.entries.lookup k = some e → (txs e.transaction).state = k ∧ k.length = 43

/-- What an action with its result does to the ledger. -/
def label : Action × Outcome → Option (Label Bytes TxRef Bytes)
  | (.put (some t) browserBinding _ _ _, .stored) =>
    some (.deposit (txs t).state t browserBinding)
  | (.take state browserBinding _ _, .returned t) => some (.redeem state t browserBinding)
  | _ => none

/-- The exact age of a transaction exceeds its lifetime at the reading an action prunes by. -/
def OutlivedAt : Action → TxRef → Prop
  | .put _ _ _ pruneReading _, t =>
    transactionLifetime < pruneReading.ns - (txs t).createdAt.ns
  | .take _ _ now _, t => transactionLifetime < now.ns - (txs t).createdAt.ns
  | .markUsed _, _ => False

/-- Expired at the action's reading, or used by the time it ends. -/
def DeadAt (a : Action) (after : State) (t : TxRef) : Prop :=
  OutlivedAt txs a t ∨ after.used t = true

variable {P txs}

theorem expired_iff (now : Time) (t : TxRef) :
    expired txs now t = true ↔ transactionLifetime < now.ns - (txs t).createdAt.ns := by
  have exact_age := Time.sub_le_iff now (txs t).createdAt
    (d := transactionLifetime) (by decide) (by decide)
  simp only [expired, gt_iff_lt, decide_eq_true_eq]
  omega

theorem Agrees.entry {store : Store} {l : Ledger Bytes TxRef Bytes} (agrees : Agrees P store l)
    {k : Bytes} {e : PendingEntry} (found : store.entries.lookup k = some e) :
    ∃ b, l k = some (e.transaction, b) ∧ Files P e (e.transaction, b) := by
  have related := agrees k
  rw [found] at related
  cases held : l k with
  | none =>
    rw [held] at related
    cases related
  | some p =>
    rw [held] at related
    obtain ⟨t, b⟩ := p
    cases related with
    | some files =>
      obtain ⟨rfl, rest⟩ := files
      exact ⟨b, rfl, rfl, rest⟩

theorem Agrees.absent {store : Store} {l : Ledger Bytes TxRef Bytes} (agrees : Agrees P store l)
    {k : Bytes} : l k = none ↔ store.entries.lookup k = none := by
  have related := agrees k
  constructor
  · intro held
    rw [held] at related
    generalize store.entries.lookup k = found at related
    cases related
    rfl
  · intro found
    rw [found] at related
    generalize l k = held at related
    cases related
    rfl

theorem Agrees.held {store : Store} {l : Ledger Bytes TxRef Bytes} (agrees : Agrees P store l)
    {k : Bytes} {t : TxRef} {b : Bytes} (held : l k = some (t, b)) :
    ∃ e, store.entries.lookup k = some e ∧ Files P e (t, b) := by
  cases found : store.entries.lookup k with
  | none =>
    rw [agrees.absent.mpr found] at held
    cases held
  | some e =>
    obtain ⟨b', held', files⟩ := agrees.entry found
    rw [held'] at held
    cases held
    exact ⟨e, rfl, files⟩

theorem Agrees.encard {store : Store} {l : Ledger Bytes TxRef Bytes} (agrees : Agrees P store l) :
    {k | l k ≠ none}.encard = size store.entries := by
  rw [← encard_keys]
  congr 1
  ext k
  exact not_congr agrees.absent

theorem Agrees.delete {store : Store} {l : Ledger Bytes TxRef Bytes} (agrees : Agrees P store l)
    (k : Bytes) : Agrees P (store.delete k) (Function.update l k none) := by
  intro k'
  by_cases same : k' = k
  · subst same
    simp only [Store.delete, AList.lookup_erase, Function.update_self]
    exact Option.Rel.none
  · simp only [Store.delete, AList.lookup_erase_ne same, Function.update_of_ne same]
    exact agrees k'

theorem Agrees.insert {store store' : Store} {l : Ledger Bytes TxRef Bytes}
    (agrees : Agrees P store l) {k : Bytes} {e : PendingEntry} {b : Bytes}
    (files : Files P e (e.transaction, b)) (entries : store'.entries = store.entries.insert k e) :
    Agrees P store' (Function.update l k (some (e.transaction, b))) := by
  intro k'
  rw [entries]
  by_cases same : k' = k
  · subst same
    simp only [AList.lookup_insert, Function.update_self]
    exact Option.Rel.some files
  · simp only [AList.lookup_insert_ne same, Function.update_of_ne same]
    exact agrees k'

/-- Pruning forgets only entries that are expired at the reading or used. -/
theorem Agrees.makeRoom {store : Store} {l : Ledger Bytes TxRef Bytes}
    (agrees : Agrees P store l) (txs : TxRef → Transaction) (used : TxRef → Bool) (now : Time) :
    ∃ l', Forgets (fun t => expired txs now t = true ∨ used t = true) l l' ∧
      Agrees P (store.makeRoom txs used now) l' := by
  unfold Store.makeRoom
  split
  · let kept := (store.pruneExpired txs used now).entries
    refine ⟨fun k => if kept.lookup k = none then none else l k, ?_, ?_⟩
    · intro k
      by_cases gone : kept.lookup k = none
      · cases held : l k with
        | none => exact Or.inl (if_pos gone)
        | some p =>
          obtain ⟨t, b⟩ := p
          obtain ⟨e, found, same, _⟩ := agrees.held held
          refine Or.inr ⟨if_pos gone, t, b, rfl, ?_⟩
          by_contra alive
          have stays : kept.lookup k = some e := by
            refine lookup_keepIf_eq_some_iff.mpr ⟨found, ?_⟩
            rw [same]
            simpa using alive
          rw [gone] at stays
          cases stays
      · exact Or.inl (if_neg gone)
    · intro k
      change Option.Rel _ (kept.lookup k) (if kept.lookup k = none then none else l k)
      cases still : kept.lookup k with
      | none => exact Option.Rel.none
      | some e =>
        have related := agrees k
        rw [(lookup_keepIf_eq_some_iff.mp still).1] at related
        simpa using related
  · exact ⟨l, Forgets.refl _ _, agrees⟩

/-- SHA-256 has no collision among 32-byte secrets. -/
def SecretsHashApart (P : Platform) : Prop :=
  ∀ x y : Bytes, x.length = 32 → y.length = 32 → P.sha256 x = P.sha256 y → x = y

/-- The one string that opens an entry is the secret it was filed with. -/
theorem Files.opens_iff (apart : SecretsHashApart P) {e : PendingEntry} {t : TxRef}
    {b b' decoded : Bytes} (files : Files P e (t, b)) (valid : decodeBinding b' = some decoded) :
    P.sha256 decoded = e.bindingHash ↔ b' = b := by
  obtain ⟨_, own, canonical, hash⟩ := files
  constructor
  · intro same
    have bytes : decoded = own :=
      apart _ _ (decodeBinding_eq_some_iff.mp valid).1 (decodeBinding_eq_some_iff.mp canonical).1
        (same.trans hash)
    subst bytes
    exact decodeBinding_injective valid canonical
  · rintro rfl
    rw [canonical] at valid
    cases valid
    exact hash.symm

/-- An action on the store is one step of the one-shot map. -/
theorem step_simulates (txs : TxRef → Transaction) (apart : SecretsHashApart P) {s : State}
    {l : Ledger Bytes TxRef Bytes}
    (agrees : Agrees P s.store l) (a : Action) :
    ∃ l', Step s.store.capacity (DeadAt txs a (step P txs s a).1) l
        (label txs (a, (step P txs s a).2)) l' ∧ Agrees P (step P txs s a).1.store l' := by
  cases a with
  | put transaction b sawUsed pruneReading now =>
    obtain ⟨room, forgets, roomy⟩ := agrees.makeRoom txs s.used pruneReading
    have prunes : Forgets (DeadAt txs (.put transaction b sawUsed pruneReading now)
        (step P txs s (.put transaction b sawUsed pruneReading now)).1) l room :=
      forgets.mono fun t dead => dead.imp (expired_iff _ _).mp id
    rcases s.store.put_cases P txs s.used transaction b sawUsed pruneReading now
      with ⟨failed, same | pruned⟩ |
        ⟨t, decoded, _, rfl, rfl, valid, _, free, space, stored, _, entries⟩
    · refine ⟨l, ⟨l, Forgets.refl _ _, ?_⟩, ?_⟩
      · simp only [step, failed, putOutcome, label]
        exact Does.nothing l
      · simpa only [step, same] using agrees
    · refine ⟨room, ⟨room, prunes, ?_⟩, ?_⟩
      · simp only [step, failed, putOutcome, label]
        exact Does.nothing room
      · simpa only [step, pruned] using roomy
    · refine ⟨Function.update room (txs t).state (some (t, b)), ⟨room, prunes, ?_⟩, ?_⟩
      · simp only [step, stored, putOutcome, label]
        refine Does.deposit t b (roomy.absent.mpr free) ?_
        rw [roomy.encard, ← s.store.makeRoom_capacity txs s.used pruneReading]
        exact_mod_cast space
      · exact roomy.insert ⟨rfl, decoded, valid, rfl⟩ entries
  | take state b now raced =>
    rcases s.store.take_cases P txs s.used state b now raced with
      unchanged | ⟨e, found, _, dead, gone⟩ |
        ⟨e, decoded, found, valid, same, ⟨_, gone⟩ | ⟨_, returned⟩⟩
    · refine ⟨l, ⟨l, Forgets.refl _ _, ?_⟩, ?_⟩
      · simp only [step, unchanged, takeOutcome, label]
        exact Does.nothing l
      · simpa only [step, unchanged] using agrees
    · obtain ⟨b', held, _⟩ := agrees.entry found
      refine ⟨Function.update l state none, ⟨_, Forgets.erase held ?_, ?_⟩, ?_⟩
      · simp only [step, gone]
        exact dead.imp (expired_iff _ _).mp id
      · simp only [step, gone, takeOutcome, label]
        exact Does.nothing _
      · simpa only [step, gone] using agrees.delete state
    · obtain ⟨b', held, _⟩ := agrees.entry found
      refine ⟨Function.update l state none, ⟨_, Forgets.erase held ?_, ?_⟩, ?_⟩
      · simp only [step, gone]
        exact Or.inr (Function.update_self ..)
      · simp only [step, gone, takeOutcome, label]
        exact Does.nothing _
      · simpa only [step, gone] using agrees.delete state
    · obtain ⟨b', held, files⟩ := agrees.entry found
      obtain rfl := (files.opens_iff apart valid).mp same
      refine ⟨Function.update l state none, ⟨l, Forgets.refl _ _, ?_⟩, ?_⟩
      · simp only [step, returned, takeOutcome, label]
        exact Does.redeem held
      · simpa only [step, returned] using agrees.delete state
  | markUsed t =>
    exact ⟨l, ⟨l, Forgets.refl _ _, Does.nothing l⟩, agrees⟩

theorem step_capacity (s : State) (a : Action) :
    (step P txs s a).1.store.capacity = s.store.capacity := by
  cases a with
  | put transaction b sawUsed pruneReading now =>
    rcases s.store.put_cases P txs s.used transaction b sawUsed pruneReading now
      with ⟨_, same | pruned⟩ | ⟨_, _, _, rfl, _, _, _, _, _, _, same, _⟩
    · simp only [step, same]
    · simp only [step, pruned, Store.makeRoom_capacity]
    · simp only [step, same, Store.makeRoom_capacity]
  | take state b now raced =>
    rcases s.store.take_cases P txs s.used state b now raced with
      same | ⟨_, _, _, _, same⟩ | ⟨_, _, _, _, _, ⟨_, same⟩ | ⟨_, same⟩⟩ <;>
      simp only [step, same] <;> rfl
  | markUsed t => rfl

theorem step_filed {s : State} (filed : FiledByState txs s.store) (a : Action) :
    FiledByState txs (step P txs s a).1.store := by
  have deleted : ∀ state, FiledByState txs (s.store.delete state) := by
    intro state k e found
    exact filed k e (lookup_erase_eq_some_iff.mp found).2
  cases a with
  | put transaction b sawUsed pruneReading now =>
    rcases s.store.put_cases P txs s.used transaction b sawUsed pruneReading now
      with ⟨_, same | pruned⟩ | ⟨t, _, _, rfl, _, _, width, _, _, _, _, entries⟩
    · simpa only [step, same] using filed
    · simp only [step, pruned]
      intro k e found
      exact filed k e (Store.makeRoom_lookup found)
    · intro k e found
      simp only [step, entries] at found
      rcases lookup_insert_eq_some_iff.mp found with ⟨rfl, rfl⟩ | ⟨_, old⟩
      · exact ⟨rfl, width⟩
      · exact filed k e (Store.makeRoom_lookup old)
  | take state b now raced =>
    rcases s.store.take_cases P txs s.used state b now raced with
      same | ⟨_, _, _, _, same⟩ | ⟨_, _, _, _, _, ⟨_, same⟩ | ⟨_, same⟩⟩ <;>
      simp only [step, same]
    · exact filed
    all_goals exact deleted state
  | markUsed t => exact filed

/-! ## Whole runs -/

/-- A successful `Put` of a transaction under a state, with no successful `Take` of it since. -/
def StoredWith (txs : TxRef → Transaction) (h : List (Action × Outcome)) (state : Bytes)
    (t : TxRef) (b : Bytes) : Prop :=
  ∃ h₁ h₂ sawUsed pruneReading now,
    h = h₁ ++ (.put (some t) b sawUsed pruneReading now, .stored) :: h₂ ∧ (txs t).state = state ∧
      ∀ b' now' raced t', (Action.take state b' now' raced, Outcome.returned t') ∉ h₂

theorem label_eq_deposit {e : Action × Outcome} {state b : Bytes} {t : TxRef}
    (deposit : label txs e = some (.deposit state t b)) :
    ∃ sawUsed pruneReading now, e = (.put (some t) b sawUsed pruneReading now, .stored) ∧
      (txs t).state = state := by
  unfold label at deposit
  split at deposit
  · cases deposit
    exact ⟨_, _, _, rfl, rfl⟩
  · cases deposit
  · cases deposit

theorem storedWith_of_outstanding {h : List (Action × Outcome)}
    {events : List ((TxRef → Prop) × Option (Label Bytes TxRef Bytes))}
    (labels : events.map Prod.snd = h.map (label txs)) {state b : Bytes} {t : TxRef}
    (outstanding : Outstanding events state t b) : StoredWith txs h state t b := by
  obtain ⟨e₁, e₂, dead, rfl, quiet⟩ := outstanding
  rw [List.map_append, List.map_cons, eq_comm, List.map_eq_append_iff] at labels
  obtain ⟨h₁, rest, rfl, _, tail⟩ := labels
  obtain ⟨e, h₂, rfl, deposit, later⟩ := List.map_eq_cons_iff.mp tail
  obtain ⟨sawUsed, pruneReading, now, rfl, own⟩ := label_eq_deposit deposit
  refine ⟨h₁, h₂, sawUsed, pruneReading, now, rfl, own, ?_⟩
  intro b' now' raced t' taken
  have redeemed : some (.redeem state t' b') ∈ e₂.map Prod.snd := by
    rw [← later]
    exact List.mem_map_of_mem taken
  obtain ⟨e', he', same⟩ := List.mem_map.mp redeemed
  exact quiet e' he' t' b' same

/-- The ledger behind a store after the history `h`. -/
structure Behind (P : Platform) (txs : TxRef → Transaction) (capacity : Nat)
    (h : List (Action × Outcome)) (s : State) (l : Ledger Bytes TxRef Bytes) : Prop where
  traced : ∃ events, Trace capacity events l ∧ events.map Prod.snd = h.map (label txs)
  agrees : Agrees P s.store l

theorem Behind.stored {capacity : Nat} {h : List (Action × Outcome)} {s : State}
    {l : Ledger Bytes TxRef Bytes} (behind : Behind P txs capacity h s l) {state b : Bytes}
    {t : TxRef} (held : l state = some (t, b)) : StoredWith txs h state t b := by
  obtain ⟨events, trace, labels⟩ := behind.traced
  exact storedWith_of_outstanding labels (trace.outstanding held)

/-- The store is as full as the map it stands for. -/
theorem Behind.bounded {capacity : Nat} {h : List (Action × Outcome)} {s : State}
    {l : Ledger Bytes TxRef Bytes} (behind : Behind P txs capacity h s l) :
    size s.store.entries ≤ capacity := by
  obtain ⟨events, trace, _⟩ := behind.traced
  have bound := trace.bounded
  rw [behind.agrees.encard] at bound
  exact_mod_cast bound

theorem Behind.step {capacity : Nat} {h : List (Action × Outcome)} {s : State}
    {l : Ledger Bytes TxRef Bytes} (behind : Behind P txs capacity h s l)
    (apart : SecretsHashApart P) (room : s.store.capacity = capacity) (a : Action) :
    ∃ l', Step capacity (DeadAt txs a (step P txs s a).1) l (label txs (a, (step P txs s a).2)) l' ∧
      Behind P txs capacity (h ++ [(a, (step P txs s a).2)]) (step P txs s a).1 l' := by
  obtain ⟨⟨events, trace, labels⟩, agrees⟩ := behind
  obtain ⟨l', simulated, agrees'⟩ := step_simulates txs apart agrees a
  rw [room] at simulated
  refine ⟨l', simulated, ⟨events ++ [_], trace.snoc simulated, ?_⟩, agrees'⟩
  rw [List.map_append, List.map_append, labels]
  rfl

theorem run_behind (apart : SecretsHashApart P) {capacity : Int} {store : Store}
    (made : newTransactionStore capacity = .ok store) (used : TxRef → Bool)
    {h : List (Action × Outcome)} {s : State}
    (run : Run (step P txs) (fun _ _ => True) ⟨store, used⟩ h s) :
    s.store.capacity = capacity.toNat ∧ FiledByState txs s.store ∧
      ∃ l, Behind P txs capacity.toNat h s l := by
  have fresh : store = ⟨capacity.toNat, ∅, Nat.zero_le _⟩ := by
    unfold newTransactionStore at made
    split at made
    · cases made
    · cases made
      rfl
  subst fresh
  refine run.invariant (P := fun h s => s.store.capacity = capacity.toNat ∧
    FiledByState txs s.store ∧ ∃ l, Behind P txs capacity.toNat h s l) ?_ ?_
  · refine ⟨rfl, ?_, Ledger.empty, ⟨[], Trace.nil, rfl⟩, ?_⟩
    · intro k e found
      simp at found
    · intro k
      simp only [AList.lookup_empty]
      exact Option.Rel.none
  · rintro h s a _ ⟨room, filed, l, behind⟩ _
    obtain ⟨l', _, behind'⟩ := behind.step apart room a
    exact ⟨(step_capacity s a).trans room, step_filed filed a, l', behind'⟩

theorem label_eq_redeem {e : Action × Outcome} {state b : Bytes} {t : TxRef}
    (redeem : label txs e = some (.redeem state t b)) :
    ∃ now raced, e = (.take state b now raced, .returned t) := by
  unfold label at redeem
  split at redeem
  · cases redeem
  · cases redeem
    exact ⟨_, _, rfl⟩
  · cases redeem

/-- A flag is found set after an action if it was set before, if the action marks it, or if
another party marks it while a `Take` has already matched its entry. -/
theorem step_used {s : State} {a : Action} {t : TxRef}
    (set : (step P txs s a).1.used t = true) :
    s.used t = true ∨ a = .markUsed t ∨
      ∃ state b now e decoded, a = .take state b now true ∧
        s.store.entries.lookup state = some e ∧ e.transaction = t ∧
        decodeBinding b = some decoded ∧ P.sha256 decoded = e.bindingHash := by
  cases a with
  | put transaction b sawUsed pruneReading now => exact Or.inl set
  | take state b now raced =>
    rcases s.store.take_cases P txs s.used state b now raced with
      same | ⟨_, _, _, _, same⟩ | ⟨e, decoded, found, valid, hash, ⟨rfl, same⟩ | ⟨_, same⟩⟩ <;>
      simp only [step, same] at set
    · exact Or.inl set
    · exact Or.inl set
    · by_cases own : e.transaction = t
      · exact Or.inr (Or.inr ⟨state, b, now, e, decoded, rfl, found, own, valid, hash⟩)
      · rw [Function.update_of_ne (Ne.symm own)] at set
        exact Or.inl set
    · exact Or.inl set
  | markUsed t' =>
    by_cases own : t' = t
    · exact Or.inr (Or.inl (by rw [own]))
    · simp only [step, Function.update_of_ne (Ne.symm own)] at set
      exact Or.inl set

/-- Two entries that stand for the same transaction and secret are equal. -/
theorem Files.unique {e e' : PendingEntry} {p : TxRef × Bytes} (files : Files P e p)
    (files' : Files P e' p) : e = e' := by
  obtain ⟨t, decoded, valid, hash⟩ := files
  obtain ⟨t', decoded', valid', hash'⟩ := files'
  rw [valid] at valid'
  cases valid'
  cases e
  cases e'
  simp_all

/-- What holds of a store after any history, and of the next action on it. -/
structure Guarantees (P : Platform) (txs : TxRef → Transaction) (capacity : Int)
    (h : List (Action × Outcome)) (s : State) : Prop where
  bounded : (size s.store.entries : Int) ≤ capacity
  filed : FiledByState txs s.store
  /-- The ledger follows the history, and every action is one step of the one-shot map. -/
  refines : ∃ l, Behind P txs capacity.toNat h s l ∧ ∀ a, ∃ l',
    Step capacity.toNat (DeadAt txs a (step P txs s a).1) l (label txs (a, (step P txs s a).2)) l' ∧
      Behind P txs capacity.toNat (h ++ [(a, (step P txs s a).2)]) (step P txs s a).1 l'
  /-- One string opens an entry: the one it was stored with. -/
  own_binding : ∀ k e, s.store.entries.lookup k = some e →
    ∃ b, StoredWith txs h k e.transaction b ∧ ∀ b' decoded, decodeBinding b' = some decoded →
      (P.sha256 decoded = e.bindingHash ↔ b' = b)
  take_returns : ∀ state b now raced t,
    (step P txs s (.take state b now raced)).2 = .returned t →
    StoredWith txs h state t b ∧ (s.store.entries.lookup state).isSome = true ∧
      (step P txs s (.take state b now raced)).1.store.entries.lookup state = none
  /-- A malformed binding, or one that does not open the entry, harms no live entry. -/
  take_refuses : ∀ state b now raced,
    (∀ e decoded, s.store.entries.lookup state = some e → decodeBinding b = some decoded →
      P.sha256 decoded ≠ e.bindingHash) →
    (step P txs s (.take state b now raced)).2 = .failed .errLoginFailed ∧
      ∀ k e, s.store.entries.lookup k = some e →
        ¬ OutlivedAt txs (.take state b now raced) e.transaction →
        s.used e.transaction = false →
        (step P txs s (.take state b now raced)).1.store.entries.lookup k = some e
  put_fails : ∀ transaction b sawUsed pruneReading now error,
    (step P txs s (.put transaction b sawUsed pruneReading now)).2 = .failed error →
    ∀ k e, (step P txs s (.put transaction b sawUsed pruneReading now)).1.store.entries.lookup k =
      some e → s.store.entries.lookup k = some e
  /-- An entry goes only when it is expired or used, or by a `Take` with its state and its
  binding, which then returns it unless another party marked it meanwhile. -/
  removes : ∀ a k e, s.store.entries.lookup k = some e →
    (step P txs s a).1.store.entries.lookup k ≠ some e →
    OutlivedAt txs a e.transaction ∨ s.used e.transaction = true ∨
      ∃ b now raced, a = .take k b now raced ∧ StoredWith txs h k e.transaction b ∧
        ((step P txs s a).2 = .returned e.transaction ∨
          (raced = true ∧ (step P txs s a).1.used e.transaction = true))

section Assembly

variable {capacity : Int} {h : List (Action × Outcome)} {s : State}
  {l : Ledger Bytes TxRef Bytes}

theorem take_returns_of_behind (behind : Behind P txs capacity.toNat h s l)
    (apart : SecretsHashApart P) (room : s.store.capacity = capacity.toNat) {state b : Bytes}
    {now : Time} {raced : Bool} {t : TxRef}
    (returned : (step P txs s (.take state b now raced)).2 = .returned t) :
    StoredWith txs h state t b ∧ (s.store.entries.lookup state).isSome = true ∧
      (step P txs s (.take state b now raced)).1.store.entries.lookup state = none := by
  obtain ⟨l', ⟨middle, forgets, does⟩, behind'⟩ :=
    behind.step apart room (.take state b now raced)
  rw [returned] at does
  cases does with
  | redeem held =>
    have before := forgets.of_some held
    obtain ⟨e, found, _⟩ := behind.agrees.held before
    refine ⟨behind.stored before, by rw [found]; rfl, ?_⟩
    exact behind'.agrees.absent.mp (Function.update_self ..)

theorem take_refuses_live {state b : Bytes} {now : Time} {raced : Bool}
    (refused : ∀ e decoded, s.store.entries.lookup state = some e →
      decodeBinding b = some decoded → P.sha256 decoded ≠ e.bindingHash) :
    (step P txs s (.take state b now raced)).2 = .failed .errLoginFailed ∧
      ∀ k e, s.store.entries.lookup k = some e →
        ¬ OutlivedAt txs (.take state b now raced) e.transaction →
        s.used e.transaction = false →
        (step P txs s (.take state b now raced)).1.store.entries.lookup k = some e := by
  rcases s.store.take_cases P txs s.used state b now raced with
    same | ⟨e₀, found₀, _, dead, same⟩ | ⟨e₀, decoded, found₀, valid, hash, _⟩
  · simp only [step, same, takeOutcome]
    exact ⟨trivial, fun k e found _ _ => found⟩
  · simp only [step, same, takeOutcome]
    refine ⟨trivial, ?_⟩
    intro k e found young unused
    refine lookup_erase_eq_some_iff.mpr ⟨?_, found⟩
    rintro rfl
    rw [found₀] at found
    cases found
    rcases dead with old | marked
    · exact young ((expired_iff _ _).mp old)
    · rw [unused] at marked
      cases marked
  · exact absurd hash (refused e₀ decoded found₀ valid)

theorem put_fails_inserts_nothing {transaction : Option TxRef} {b : Bytes} {sawUsed : Bool}
    {pruneReading now : Time} {error : OidcError}
    (failed : (step P txs s (.put transaction b sawUsed pruneReading now)).2 = .failed error)
    {k : Bytes} {e : PendingEntry}
    (found : (step P txs s (.put transaction b sawUsed pruneReading now)).1.store.entries.lookup k =
      some e) : s.store.entries.lookup k = some e := by
  rcases s.store.put_cases P txs s.used transaction b sawUsed pruneReading now
    with ⟨_, same | pruned⟩ | ⟨_, _, _, _, _, _, _, _, _, stored, _⟩
  · simpa only [step, same] using found
  · simp only [step, pruned] at found
    exact Store.makeRoom_lookup found
  · simp only [step, stored, putOutcome] at failed
    cases failed

theorem removes_of_behind (behind : Behind P txs capacity.toNat h s l)
    (apart : SecretsHashApart P) (room : s.store.capacity = capacity.toNat)
    (filed : FiledByState txs s.store) {a : Action} {k : Bytes} {e : PendingEntry}
    (found : s.store.entries.lookup k = some e)
    (gone : (step P txs s a).1.store.entries.lookup k ≠ some e) :
    OutlivedAt txs a e.transaction ∨ s.used e.transaction = true ∨
      ∃ b now raced, a = .take k b now raced ∧ StoredWith txs h k e.transaction b ∧
        ((step P txs s a).2 = .returned e.transaction ∨
          (raced = true ∧ (step P txs s a).1.used e.transaction = true)) := by
  obtain ⟨b, held, files⟩ := behind.agrees.entry found
  obtain ⟨l', simulated, behind'⟩ := behind.step apart room a
  by_cases redeemed : label txs (a, (step P txs s a).2) = some (.redeem k e.transaction b)
  · obtain ⟨now, raced, same⟩ := label_eq_redeem redeemed
    obtain ⟨rfl, returned⟩ := Prod.mk.inj same
    exact Or.inr (Or.inr ⟨b, now, raced, rfl, behind.stored held, Or.inl returned⟩)
  · -- Otherwise the one-shot map forgot the entry, so its transaction is dead.
    have dead : DeadAt txs a (step P txs s a).1 e.transaction := by
      by_contra alive
      obtain ⟨e', found', files'⟩ := behind'.agrees.held (simulated.keeps held alive redeemed)
      rw [files'.unique files] at found'
      exact gone found'
    rcases dead with old | set
    · exact Or.inl old
    · rcases step_used set with
        before | rfl | ⟨state, b', now, e', decoded, rfl, found', own, valid, hash⟩
      · exact Or.inr (Or.inl before)
      · exact absurd found gone
      · have same : state = k := (filed _ _ found').1.symm.trans (own ▸ (filed _ _ found).1)
        subst same
        rw [found] at found'
        cases found'
        obtain rfl := (files.opens_iff apart valid).mp hash
        exact Or.inr (Or.inr ⟨b', now, true, rfl, behind.stored held, Or.inr ⟨rfl, set⟩⟩)

end Assembly

/-- Every store made by `NewTransactionStore` is a bounded one-shot map of
transactions, keyed by state and opened by the browser's secret. -/
theorem store_is_one_shot_map (P : Platform) (apart : SecretsHashApart P)
    (txs : TxRef → Transaction) {capacity : Int} {store : Store}
    (made : newTransactionStore capacity = .ok store) (used : TxRef → Bool)
    {h : List (Action × Outcome)} {s : State}
    (run : Run (step P txs) (fun _ _ => True) ⟨store, used⟩ h s) :
    Guarantees P txs capacity h s := by
  obtain ⟨room, filed, l, behind⟩ := run_behind apart made used run
  have positive : 1 ≤ capacity := by
    unfold newTransactionStore at made
    split at made
    · cases made
    · omega
  refine ⟨?_, filed, ⟨l, behind, behind.step apart room⟩, ?_, ?_, ?_, ?_, ?_⟩
  · have within := behind.bounded
    omega
  · intro k e found
    obtain ⟨b, held, files⟩ := behind.agrees.entry found
    exact ⟨b, behind.stored held, fun b' decoded valid => files.opens_iff apart valid⟩
  · intro state b now raced t returned
    exact take_returns_of_behind behind apart room returned
  · intro state b now raced refused
    exact take_refuses_live refused
  · intro transaction b sawUsed pruneReading now error failed k e found
    exact put_fails_inserts_nothing failed found
  · intro a k e found gone
    exact removes_of_behind behind apart room filed found gone

/-- One browser whose secret is 32 zero bytes: there the digest is SHA-256's own, and the
rest of the platform, which the store never asks, is left empty. -/
def zeroSecretPlatform : Platform where
  parseUrl := fun _ => none
  renderUrl := fun _ => []
  parseQuery := fun _ _ => []
  encodeQuery := fun _ => []
  trimSpace := id
  equalFold := fun a b => a = b
  sha256 := pinnedDigest [(List.replicate 32 0,
       [102, 104, 122, 173, 248, 98, 189, 119, 108, 143, 193, 139, 142, 159, 142, 32, 8,
        151, 20, 133, 110, 226, 51, 179, 144, 42, 89, 29, 13, 95, 41, 37])] 32
  parseJwks := fun _ => none
  parseSigned := fun _ => none
  unmarshalToken := fun _ => none

theorem zeroSecretPlatform_apart : SecretsHashApart zeroSecretPlatform := by
  intro x y _ _ same
  refine pinnedDigest_injective ?_ ?_ same
  · simp only [List.forall_mem_cons, List.not_mem_nil, false_imp_iff, implies_true, and_true]
    decide
  · simp

def pendingLogin : Transaction :=
  ⟨some 0, List.replicate 43 66, List.replicate 43 67, List.replicate 43 68, ⟨0⟩⟩

/-- A login is stored with the secret `AAA…`, and taken with it two minutes later. -/
theorem store_is_one_shot_map_login :
    let put := Action.put (some 0) (List.replicate 43 65) false ⟨0⟩ ⟨minute⟩
    let take := Action.take (List.replicate 43 66) (List.replicate 43 65) ⟨3 * minute⟩ false
    let start : State := ⟨⟨1, ∅, Nat.zero_le _⟩, fun _ => false⟩
    let next := step zeroSecretPlatform (fun _ => pendingLogin)
    Guarantees zeroSecretPlatform (fun _ => pendingLogin) 1
      [(put, .stored), (take, .returned 0)] (next (next start put).1 take).1 := by
  intro put take start next
  have stored : (next start put).2 = .stored := by decide +kernel
  have returned : (next (next start put).1 take).2 = .returned 0 := by decide +kernel
  have run : Run next (fun _ _ => True) start
      [(put, (next start put).2), (take, (next (next start put).1 take).2)]
      (next (next start put).1 take).1 :=
    Run.snoc (Run.snoc Run.nil put trivial) take trivial
  rw [stored, returned] at run
  exact store_is_one_shot_map _ zeroSecretPlatform_apart _ rfl _ run

end Refinement

end StoreRefinement
