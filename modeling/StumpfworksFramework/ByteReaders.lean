import StumpfworksFramework.ByteStrings

/-!
# Blocking byte readers

A reader answers a request for at most `n` bytes with some bytes, possibly an
error, and a new state. Its contract is part of the structure: it never hands
over more than was asked for, and an answer to a nonempty request carries at
least one byte or an error. `readFull` repeats requests until it has what it
needs; the contract is what makes it terminate.

Chunk sizes are whatever the reader chooses. `Serves` says which bytes a
reader will hand over in total, independently of the chunks.
-/

namespace ByteReaders

open ByteStrings

inductive IoError where
  | eof
  | errUnexpectedEOF
  | other (text : String)
  deriving DecidableEq, Repr

structure Reader (σ : Type) where
  read : σ → Nat → (Bytes × Option IoError) × σ
  atMost : ∀ s n, (read s n).1.1.length ≤ n
  progress : ∀ s n, 0 < n → (read s n).1.1 = [] → (read s n).1.2 ≠ none

variable {σ : Type}

theorem Reader.moves (r : Reader σ) {s s' : σ} {n : Nat} {bytes : Bytes} (pos : n ≠ 0)
    (quiet : r.read s n = ((bytes, none), s')) : 0 < bytes.length := by
  apply List.length_pos_iff.mpr
  intro empty
  exact r.progress s n (Nat.pos_of_ne_zero pos) (by rw [quiet]; exact empty) (by rw [quiet])

/-- The loop of `io.ReadFull`, with `need` bytes missing after `got`. An error
that comes with enough bytes is dropped; the end of the stream is unexpected
once something has been read. -/
def readMore (r : Reader σ) (s : σ) (need : Nat) (got : Bytes) : Except IoError Bytes × σ :=
  if _missing : need = 0 then (.ok got, s)
  else
    match _answer : r.read s need with
    | ((bytes, none), s') =>
      if need ≤ bytes.length then (.ok (got ++ bytes), s')
      else readMore r s' (need - bytes.length) (got ++ bytes)
    | ((bytes, some e), s') =>
      if need ≤ bytes.length then (.ok (got ++ bytes), s')
      else (.error (if got ++ bytes ≠ [] ∧ e = .eof then .errUnexpectedEOF else e), s')
termination_by need
decreasing_by
  have := r.moves _missing _answer
  omega

def readFull (r : Reader σ) (s : σ) (need : Nat) : Except IoError Bytes × σ :=
  readMore r s need []

/-- Some nonempty requests took the reader from one state to another, and these
are the bytes it handed over. -/
inductive Handed (r : Reader σ) : σ → Bytes → σ → Prop where
  | refl (s : σ) : Handed r s [] s
  | read {s s' s'' : σ} {n : Nat} {bytes more : Bytes} {err : Option IoError} (pos : 0 < n)
      (answer : r.read s n = ((bytes, err), s')) (rest : Handed r s' more s'') :
      Handed r s (bytes ++ more) s''

theorem Handed.one {r : Reader σ} {s s' : σ} {n : Nat} {bytes : Bytes} {err : Option IoError}
    (pos : n ≠ 0) (answer : r.read s n = ((bytes, err), s')) : Handed r s bytes s' := by
  have := Handed.read (Nat.pos_of_ne_zero pos) answer (.refl s')
  rwa [List.append_nil] at this

theorem Handed.trans {r : Reader σ} {s s' s'' : σ} {bytes more : Bytes}
    (first : Handed r s bytes s') (rest : Handed r s' more s'') :
    Handed r s (bytes ++ more) s'' := by
  induction first with
  | refl s => exact rest
  | read pos answer _ ih =>
    rw [List.append_assoc]
    exact .read pos answer (ih rest)

/-- The last answer before this state carried an error. -/
def Failed (r : Reader σ) (s' : σ) : Prop :=
  ∃ s n bytes e, 0 < n ∧ r.read s n = ((bytes, some e), s')

/-- Everything `readMore` can do: it returns what it was handed, exactly as
much as needed, or it stops short after an error. -/
theorem readMore_cases (r : Reader σ) (s : σ) (need : Nat) (got : Bytes) :
    ∃ bytes s', Handed r s bytes s' ∧
      ((readMore r s need got = (.ok (got ++ bytes), s') ∧ bytes.length = need) ∨
       (∃ e, readMore r s need got = (.error e, s') ∧ bytes.length < need ∧ Failed r s')) := by
  induction need using Nat.strongRecOn generalizing s got with
  | ind need ih =>
    rw [readMore]
    split
    · rename_i done
      exact ⟨[], s, .refl s, Or.inl ⟨by rw [List.append_nil], done.symm⟩⟩
    · rename_i missing
      have most := r.atMost s need
      split
      · rename_i bytes s' answer
        have moved := r.moves missing answer
        rw [answer] at most
        split
        · exact ⟨bytes, s', .one missing answer, Or.inl ⟨rfl, Nat.le_antisymm most ‹_›⟩⟩
        · obtain ⟨more, s'', handed, result⟩ :=
            ih (need - bytes.length) (by omega) s' (got ++ bytes)
          refine ⟨bytes ++ more, s'', (Handed.one missing answer).trans handed, ?_⟩
          rw [List.length_append, ← List.append_assoc]
          rcases result with ⟨hok, hlen⟩ | ⟨e, herr, hlen, failed⟩
          · exact Or.inl ⟨hok, by omega⟩
          · exact Or.inr ⟨e, herr, by omega, failed⟩
      · rename_i bytes e s' answer
        rw [answer] at most
        refine ⟨bytes, s', .one missing answer, ?_⟩
        split
        · exact Or.inl ⟨rfl, Nat.le_antisymm most ‹_›⟩
        · exact Or.inr ⟨_, rfl, by omega, s, need, bytes, e, Nat.pos_of_ne_zero missing, answer⟩

theorem readFull_cases (r : Reader σ) (s : σ) (need : Nat) :
    ∃ bytes s', Handed r s bytes s' ∧
      ((readFull r s need = (.ok bytes, s') ∧ bytes.length = need) ∨
       (∃ e, readFull r s need = (.error e, s') ∧ bytes.length < need ∧ Failed r s')) :=
  readMore_cases r s need []

/-- A property of the reader's state that no read destroys. -/
def Preserves (r : Reader σ) (P : σ → Prop) : Prop := ∀ s n, P s → P (r.read s n).2

theorem Handed.preserves {r : Reader σ} {P : σ → Prop} (keep : Preserves r P) {s s' : σ}
    {bytes : Bytes} (handed : Handed r s bytes s') (hs : P s) : P s' := by
  induction handed with
  | refl s => exact hs
  | @read s _ _ n _ _ _ _ answer _ ih =>
    have next := keep s n hs
    rw [answer] at next
    exact ih next

/-- The log grows by exactly the bytes each read hands over. -/
def Logs (r : Reader σ) (log : σ → Bytes) : Prop :=
  ∀ s n, log (r.read s n).2 = log s ++ (r.read s n).1.1

theorem Handed.logged {r : Reader σ} {log : σ → Bytes} (logs : Logs r log) {s s' : σ}
    {bytes : Bytes} (handed : Handed r s bytes s') : log s' = log s ++ bytes := by
  induction handed with
  | refl s => rw [List.append_nil]
  | @read s _ _ n _ _ _ _ answer _ ih =>
    have next := logs s n
    rw [answer] at next
    rw [ih, next, List.append_assoc]

/-- `pending s` is all that will ever be handed over from state `s` on: reads
peel it off from the front, and an error is reported only once it is used up. -/
structure Serves (r : Reader σ) (pending : σ → Bytes) : Prop where
  peels : ∀ s n, 0 < n → pending s = (r.read s n).1.1 ++ pending (r.read s n).2
  ends : ∀ s n, 0 < n → (r.read s n).1.2 ≠ none → pending (r.read s n).2 = []

theorem Handed.served {r : Reader σ} {pending : σ → Bytes} (serves : Serves r pending)
    {s s' : σ} {bytes : Bytes} (handed : Handed r s bytes s') :
    pending s = bytes ++ pending s' := by
  induction handed with
  | refl s => rfl
  | @read s _ _ n _ _ _ pos answer _ ih =>
    have next := serves.peels s n pos
    rw [answer] at next
    rw [next, ih, List.append_assoc]

theorem Serves.failed {r : Reader σ} {pending : σ → Bytes} (serves : Serves r pending)
    {s' : σ} (failed : Failed r s') : pending s' = [] := by
  obtain ⟨s, n, bytes, e, pos, answer⟩ := failed
  have last := serves.ends s n pos
  rw [answer] at last
  exact last (Option.some_ne_none e)

/-- Against a fixed stream `readFull` depends on the pending bytes only. -/
theorem readFull_served {r : Reader σ} {pending : σ → Bytes} (serves : Serves r pending)
    (s : σ) (need : Nat) :
    (need ≤ (pending s).length ∧ ∃ s', readFull r s need = (.ok ((pending s).take need), s') ∧
      pending s' = (pending s).drop need) ∨
    ((pending s).length < need ∧ ∃ e s', readFull r s need = (.error e, s')) := by
  obtain ⟨bytes, s', handed, ⟨hok, hlen⟩ | ⟨e, herr, hlen, failed⟩⟩ := readFull_cases r s need
  · have split := handed.served serves
    subst hlen
    refine Or.inl ⟨?_, s', ?_, ?_⟩
    · rw [split, List.length_append]
      omega
    · rw [split, List.take_left]
      exact hok
    · rw [split, List.drop_left]
  · have split := handed.served serves
    rw [serves.failed failed, List.append_nil] at split
    exact Or.inr ⟨by rw [split]; exact hlen, e, s', herr⟩

end ByteReaders
