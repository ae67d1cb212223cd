import StumpfworksFramework.FiniteMaps
import StumpfworksFramework.OidcTransactions

/-!
# The store of pending logins

`Put`, `Take` and the lazy `pruneExpired`, each atomic under the store's mutex.
The `used` flags belong to the transactions and change from outside the lock:
`Put` reads its flag before it takes the lock, so what it saw may be out of
date, and another party may set the flag between the two reads in `Take`.
Clock readings are arbitrary. A store is never nil here.

The strength of the browser secret is not modelled, and its cookie not here.
-/

namespace TransactionStore

open ByteStrings FiniteMaps Instants OidcClients OidcTransactions

def maxPendingTransactions : Int := 10000

structure PendingEntry where
  transaction : TxRef
  bindingHash : Bytes
  deriving DecidableEq, Repr

/-- A store within its capacity. -/
structure Store where
  capacity : Nat
  entries : FiniteMap Bytes PendingEntry
  within : size entries ≤ capacity

def newTransactionStore (capacity : Int) : Except OidcError Store :=
  if capacity < 1 ∨ capacity > maxPendingTransactions then
    .error (.other "invalid OIDC transaction capacity")
  else .ok ⟨capacity.toNat, ∅, Nat.zero_le _⟩

section Operations

variable (P : Platform) (txs : TxRef → Transaction)

def expired (now : Time) (t : TxRef) : Bool :=
  now.sub (txs t).createdAt > transactionLifetime

def Store.delete (store : Store) (state : Bytes) : Store :=
  { store with
    entries := store.entries.erase state
    within := (size_erase_le _ _).trans store.within }

def Store.pruneExpired (used : TxRef → Bool) (now : Time) (store : Store) : Store :=
  { store with
    entries :=
      keepIf (fun e => !(expired txs now e.transaction || used e.transaction)) store.entries
    within := (size_keepIf_le _ _).trans store.within }

/-- A full store is pruned before an insertion. -/
def Store.makeRoom (used : TxRef → Bool) (now : Time) (store : Store) : Store :=
  if size store.entries ≥ store.capacity then store.pruneExpired txs used now else store

/-- `Put`, which saw the flag of its transaction as `sawUsed` before it took the lock. -/
def Store.put (used : TxRef → Bool) (store : Store) (transaction : Option TxRef)
    (browserBinding : Bytes) (sawUsed : Bool) (pruneReading now : Time) :
    Store × Except OidcError Unit :=
  match decodeBinding browserBinding, transaction with
  | some decoded, some t =>
    if (txs t).owner = none ∨ (txs t).state.length ≠ 43 ∨ sawUsed = true then
      (store, .error .errLoginFailed)
    else
      let room := store.makeRoom txs used pruneReading
      if expired txs now t = true ∨ (txs t).createdAt.after (now.add clockSkew) = true then
        (room, .error .errLoginFailed)
      else if full : (room.entries.lookup (txs t).state).isSome = true ∨
          size room.entries ≥ room.capacity then
        (room, .error .errLoginFailed)
      else
        ({ room with
            entries := room.entries.insert (txs t).state ⟨t, P.sha256 decoded⟩
            within := by
              simp only [Option.isSome_iff_ne_none, ne_eq, not_or, not_not] at full
              rw [size_insert full.1]
              omega },
          .ok ())
  | _, _ => (store, .error .errLoginFailed)

/-- `Take`; `raced` says that another party marks the found transaction between
the two reads of its flag. -/
def Store.take (used : TxRef → Bool) (store : Store) (state browserBinding : Bytes) (now : Time)
    (raced : Bool) : Store × (TxRef → Bool) × Except OidcError TxRef :=
  match decodeBinding browserBinding with
  | none => (store, used, .error .errLoginFailed)
  | some decoded =>
    if state.length ≠ 43 then (store, used, .error .errLoginFailed)
    else
      match store.entries.lookup state with
      | none => (store, used, .error .errLoginFailed)
      | some entry =>
        if expired txs now entry.transaction = true ∨ used entry.transaction = true then
          (store.delete state, used, .error .errLoginFailed)
        else if P.sha256 decoded ≠ entry.bindingHash then
          (store, used, .error .errLoginFailed)
        else if raced = true then
          (store.delete state, Function.update used entry.transaction true, .error .errLoginFailed)
        else (store.delete state, used, .ok entry.transaction)

end Operations

/-- What the parties do: use the store, or consume a transaction by completing its login. -/
inductive Action where
  | put (transaction : Option TxRef) (browserBinding : Bytes) (sawUsed : Bool)
      (pruneReading now : Time)
  | take (state browserBinding : Bytes) (now : Time) (raced : Bool)
  | markUsed (transaction : TxRef)

inductive Outcome where
  | stored
  | returned (transaction : TxRef)
  | failed (error : OidcError)
  | marked
  deriving DecidableEq

structure State where
  store : Store
  used : TxRef → Bool

def putOutcome : Except OidcError Unit → Outcome
  | .ok () => .stored
  | .error e => .failed e

def takeOutcome : Except OidcError TxRef → Outcome
  | .ok t => .returned t
  | .error e => .failed e

def step (P : Platform) (txs : TxRef → Transaction) (s : State) : Action → State × Outcome
  | .put transaction browserBinding sawUsed pruneReading now =>
    let r := s.store.put P txs s.used transaction browserBinding sawUsed pruneReading now
    (⟨r.1, s.used⟩, putOutcome r.2)
  | .take state browserBinding now raced =>
    let r := s.store.take P txs s.used state browserBinding now raced
    (⟨r.1, r.2.1⟩, takeOutcome r.2.2)
  | .markUsed t => (⟨s.store, Function.update s.used t true⟩, .marked)

section Inversion

variable (P : Platform) (txs : TxRef → Transaction)

/-- What `Put` can do: fail after at most a prune, or file its transaction. -/
theorem Store.put_cases (used : TxRef → Bool) (store : Store) (transaction : Option TxRef)
    (browserBinding : Bytes) (sawUsed : Bool) (pruneReading now : Time) :
    let r := store.put P txs used transaction browserBinding sawUsed pruneReading now
    (r.2 = .error .errLoginFailed ∧ (r.1 = store ∨ r.1 = store.makeRoom txs used pruneReading)) ∨
    ∃ t decoded room, room = store.makeRoom txs used pruneReading ∧ transaction = some t ∧
      decodeBinding browserBinding = some decoded ∧ (txs t).state.length = 43 ∧
      room.entries.lookup (txs t).state = none ∧ size room.entries < room.capacity ∧
      r.2 = .ok () ∧ r.1.capacity = room.capacity ∧
      r.1.entries = room.entries.insert (txs t).state ⟨t, P.sha256 decoded⟩ := by
  intro r
  simp only [r]
  unfold Store.put
  split
  · rename_i decoded t valid
    split
    · exact Or.inl ⟨rfl, Or.inl rfl⟩
    · rename_i proper
      simp only [not_or, ne_eq, not_not] at proper
      dsimp only
      split
      · exact Or.inl ⟨rfl, Or.inr rfl⟩
      · split
        · exact Or.inl ⟨rfl, Or.inr rfl⟩
        · rename_i full
          simp only [Option.isSome_iff_ne_none, ne_eq, not_or, not_not, ge_iff_le, not_le] at full
          exact Or.inr ⟨t, decoded, _, rfl, rfl, valid, proper.2.1, full.1, full.2, rfl, rfl, rfl⟩
  · exact Or.inl ⟨rfl, Or.inl rfl⟩

/-- What `Take` can do. -/
theorem Store.take_cases (used : TxRef → Bool) (store : Store) (state browserBinding : Bytes)
    (now : Time) (raced : Bool) :
    let r := store.take P txs used state browserBinding now raced
    (r = (store, used, .error .errLoginFailed)) ∨
    (∃ entry, store.entries.lookup state = some entry ∧ (decodeBinding browserBinding).isSome ∧
      ((expired txs now entry.transaction = true ∨ used entry.transaction = true) ∧
        r = (store.delete state, used, .error .errLoginFailed))) ∨
    ∃ entry decoded, store.entries.lookup state = some entry ∧
      decodeBinding browserBinding = some decoded ∧ P.sha256 decoded = entry.bindingHash ∧
      ((raced = true ∧ r = (store.delete state, Function.update used entry.transaction true,
          .error .errLoginFailed)) ∨
        (raced = false ∧ r = (store.delete state, used, .ok entry.transaction))) := by
  intro r
  simp only [r]
  unfold Store.take
  split
  · exact Or.inl rfl
  · rename_i decoded valid
    split
    · exact Or.inl rfl
    · split
      · exact Or.inl rfl
      · rename_i entry found
        split
        · rename_i dead
          exact Or.inr (Or.inl ⟨entry, found, by simp [valid], dead, rfl⟩)
        · split
          · exact Or.inl rfl
          · rename_i same
            refine Or.inr (Or.inr ⟨entry, decoded, found, valid, not_not.mp same, ?_⟩)
            split
            · rename_i race
              exact Or.inl ⟨race, rfl⟩
            · rename_i race
              exact Or.inr ⟨by simpa using race, rfl⟩

theorem Store.makeRoom_lookup {txs : TxRef → Transaction} {store : Store} {used : TxRef → Bool}
    {now : Time} {k : Bytes}
    {e : PendingEntry} (found : (store.makeRoom txs used now).entries.lookup k = some e) :
    store.entries.lookup k = some e := by
  unfold Store.makeRoom at found
  split at found
  · exact (lookup_keepIf_eq_some_iff.mp found).1
  · exact found

@[simp] theorem Store.makeRoom_capacity (store : Store) (used : TxRef → Bool) (now : Time) :
    (store.makeRoom txs used now).capacity = store.capacity := by
  unfold Store.makeRoom
  split <;> rfl

end Inversion

end TransactionStore
