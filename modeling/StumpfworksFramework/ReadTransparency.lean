import StumpfworksFramework.ReadGuard

/-!
# The read guard is transparent and bounded

One inversion lemma says what a single `Read` can do. From it follow the
alignment invariant (the frames validated so far tile the raw bytes taken, and
what was delivered is their beginning), the byte budget, and a conservation
law: delivered bytes, the rest of the current frame, and the frames still to be
admitted always make up the same string. The last gives independence of buffer
sizes; independence of chunking follows by reading the pending stream directly.
-/

namespace ReadTransparency

open ByteStrings ByteReaders BerFraming ReadGuard

variable {σ τ : Type}

theorem readExtra_handed (r : Reader τ) (s : τ) (second : UInt8) :
    ∃ bytes s', Handed r s bytes s' ∧
      ((∃ length, readExtra r s second = (.ok (bytes, length), s')) ∨
        ∃ e, readExtra r s second = (.error e, s')) := by
  rw [readExtra]
  split
  · dsimp only
    split
    · exact ⟨[], s, .refl s, Or.inr ⟨_, rfl⟩⟩
    · obtain ⟨extra, s', handed, ⟨hok, _⟩ | ⟨e, herr, _⟩⟩ :=
        readFull_cases r s (second &&& 0x7f).toNat
      · refine ⟨extra, s', handed, ?_⟩
        rw [hok]
        cases hlength : decodeLength 0 extra with
        | none => exact Or.inr ⟨errInvalidFrame, by simp only [hlength]⟩
        | some length => exact Or.inl ⟨length, by simp only [hlength]⟩
      · exact ⟨extra, s', handed, Or.inr ⟨e, by rw [herr]⟩⟩
  · exact ⟨[], s, .refl s, Or.inl ⟨_, rfl⟩⟩

/-- An assembled frame is exactly what was read for it. -/
theorem assembleFrame_handed (r : Reader τ) (s : τ) :
    ∃ bytes s', Handed r s bytes s' ∧
      (assembleFrame r s = (.ok bytes, s') ∨ ∃ e, assembleFrame r s = (.error e, s')) := by
  rw [assembleFrame]
  obtain ⟨lead, s₁, first, ⟨hlead, _⟩ | ⟨e, herr, _⟩⟩ := readFull_cases r s 2
  · rw [hlead]
    dsimp only
    split
    · exact ⟨lead, s₁, first, Or.inr ⟨_, rfl⟩⟩
    · obtain ⟨extra, s₂, second, ⟨length, hextra⟩ | ⟨e, herr⟩⟩ :=
        readExtra_handed r s₁ (lead.getD 1 0)
      · rw [hextra]
        dsimp only
        split
        · exact ⟨lead ++ extra, s₂, first.trans second, Or.inr ⟨_, rfl⟩⟩
        · obtain ⟨content, s₃, third, ⟨hcontent, _⟩ | ⟨e, herr, _⟩⟩ :=
            readFull_cases r s₂ length
          · rw [hcontent]
            exact ⟨_, s₃, (first.trans second).trans third, Or.inl rfl⟩
          · rw [herr]
            exact ⟨_, s₃, (first.trans second).trans third, Or.inr ⟨e, rfl⟩⟩
      · rw [herr]
        exact ⟨_, s₂, first.trans second, Or.inr ⟨e, rfl⟩⟩
  · rw [herr]
    exact ⟨lead, s₁, first, Or.inr ⟨e, rfl⟩⟩

/-- The bytes still to come: the frames that will pass, at most `left` of them. -/
def admitted (r : Reader τ) : Nat → τ → Bytes
  | 0, _ => []
  | left + 1, s =>
    match assembleFrame r s with
    | (.error _, _) => []
    | (.ok frame, s') =>
      match validateBERFrame frame with
      | .error _ => []
      | .ok () => frame ++ admitted r left s'

def upcoming (r : Reader τ) (c : FramedConn τ) : Bytes :=
  c.buffer.getD [] ++ admitted r (16 - c.frames) c.conn

theorem accepted_ne_nil {frame : Bytes} (h : validateBERFrame frame = .ok ()) : frame ≠ [] := by
  rintro rfl
  cases h

/-- Everything one `framedConn.Read` can do. -/
theorem read_cases (r : Reader τ) (c : FramedConn τ) (n : Nat) :
    (n = 0 ∧ c.read r n = (([], none), c)) ∨
    (∃ bytes s' e, n ≠ 0 ∧ Handed r c.conn bytes s' ∧ upcoming r c = [] ∧
      c.read r n = (([], some e), { c with conn := s' })) ∨
    (∃ frame s', n ≠ 0 ∧ Handed r c.conn frame s' ∧ c.buffer.getD [] = [] ∧ c.frames < 16 ∧
      validateBERFrame frame = .ok () ∧
      admitted r (16 - c.frames) c.conn = frame ++ admitted r (16 - (c.frames + 1)) s' ∧
      c.read r n = ((frame.take n, none), ⟨s', some (frame.drop n), c.frames + 1,
        c.history ++ [.validated frame] ++ [.delivered (frame.take n)]⟩)) ∨
    (n ≠ 0 ∧ c.buffer.getD [] ≠ [] ∧
      c.read r n = (((c.buffer.getD []).take n, none), { c with
        buffer := some ((c.buffer.getD []).drop n),
        history := c.history ++ [.delivered ((c.buffer.getD []).take n)] })) := by
  by_cases zero : n = 0
  · exact Or.inl ⟨zero, by rw [FramedConn.read, if_pos zero]⟩
  right
  rw [FramedConn.read, if_neg zero]
  by_cases empty : c.buffer.getD [] = []
  · rw [if_pos empty]
    by_cases full : c.frames ≥ 16
    · left
      refine ⟨[], c.conn, errInvalidFrame, zero, .refl _, ?_, by rw [if_pos full]⟩
      have none_left : 16 - c.frames = 0 := by omega
      rw [upcoming, empty, none_left]
      rfl
    · rw [if_neg full]
      have one_left : 16 - c.frames = 16 - (c.frames + 1) + 1 := by omega
      obtain ⟨bytes, s', handed, hok | ⟨e, herr⟩⟩ := assembleFrame_handed r c.conn
      · cases hv : validateBERFrame bytes with
        | error e =>
          left
          refine ⟨bytes, s', e, zero, handed, ?_, by simp only [hok, hv]⟩
          simp only [upcoming, empty, one_left, admitted, hok, hv, List.append_nil]
        | ok u =>
          right; left
          refine ⟨bytes, s', zero, handed, empty, by omega, hv, ?_, ?_⟩
          · simp only [one_left, admitted, hok, hv]
          · obtain ⟨b, unread, rfl⟩ := List.exists_cons_of_ne_nil (accepted_ne_nil hv)
            simp only [hok, hv, FramedConn.serve]
      · left
        refine ⟨bytes, s', e, zero, handed, ?_, by simp only [herr]⟩
        simp only [upcoming, empty, one_left, admitted, herr, List.append_nil]
  · right; right
    refine ⟨zero, empty, ?_⟩
    rw [if_neg empty]
    cases hb : c.buffer with
    | none => exact absurd (by rw [hb]; rfl) empty
    | some unread =>
      cases unread with
      | nil => exact absurd (by rw [hb]; rfl) empty
      | cons b unread => simp only [FramedConn.serve, hb, Option.getD_some]

@[simp] theorem validatedFrames_append (h h' : List GuardEvent) :
    validatedFrames (h ++ h') = validatedFrames h ++ validatedFrames h' := by
  induction h with
  | nil => rfl
  | cons event rest ih => cases event <;> simp [validatedFrames, ih]

@[simp] theorem deliveredBytes_append (h h' : List GuardEvent) :
    deliveredBytes (h ++ h') = deliveredBytes h ++ deliveredBytes h' := by
  induction h with
  | nil => rfl
  | cons event rest ih => cases event <;> simp [deliveredBytes, ih]

/-- No byte is delivered before the frame it belongs to was validated. -/
def Ordered (history : List GuardEvent) : Prop :=
  ∀ h, h <+: history → deliveredBytes h <+: (validatedFrames h).flatten

theorem Ordered.concat {history : List GuardEvent} (ordered : Ordered history)
    {event : GuardEvent}
    (last : deliveredBytes (history ++ [event]) <+:
      (validatedFrames (history ++ [event])).flatten) : Ordered (history ++ [event]) := by
  intro h hh
  rcases List.prefix_concat_iff.mp hh with rfl | hh
  · exact last
  · exact ordered h hh

/-- What holds of the guard at any time, also after a failed call: the validated
frames tile the beginning of the raw bytes, and the caller has seen a beginning
of them. -/
structure Guarded (log : τ → Bytes) (c : FramedConn τ) : Prop where
  tiles : (validatedFrames c.history).flatten <+: log c.conn
  split : deliveredBytes c.history ++ c.buffer.getD [] = (validatedFrames c.history).flatten
  count : (validatedFrames c.history).length = c.frames
  bound : c.frames ≤ 16
  valid : ∀ f ∈ validatedFrames c.history, validateBERFrame f = .ok ()
  order : Ordered c.history

/-- Between calls no raw byte is lost: everything taken belongs to a frame. -/
structure Aligned (log : τ → Bytes) (c : FramedConn τ) : Prop extends Guarded log c where
  exact_tiles : (validatedFrames c.history).flatten = log c.conn

theorem serve_guarded {log : τ → Bytes} {c : FramedConn τ} (g : Guarded log c) (n : Nat) :
    Guarded log { c with
      buffer := some ((c.buffer.getD []).drop n),
      history := c.history ++ [.delivered ((c.buffer.getD []).take n)] } := by
  have seen : deliveredBytes (c.history ++ [.delivered ((c.buffer.getD []).take n)]) =
      deliveredBytes c.history ++ (c.buffer.getD []).take n := by
    simp [deliveredBytes]
  have frames : validatedFrames (c.history ++ [.delivered ((c.buffer.getD []).take n)]) =
      validatedFrames c.history := by
    simp [validatedFrames]
  have split : deliveredBytes c.history ++ (c.buffer.getD []).take n ++
      (c.buffer.getD []).drop n = (validatedFrames c.history).flatten := by
    rw [List.append_assoc, List.take_append_drop]
    exact g.split
  refine ⟨?_, ?_, ?_, g.bound, ?_, ?_⟩
  · rw [frames]
    exact g.tiles
  · rw [frames, seen]
    exact split
  · rw [frames]
    exact g.count
  · rw [frames]
    exact g.valid
  · apply g.order.concat
    rw [frames, seen]
    exact ⟨_, split⟩

theorem refill_aligned {log : τ → Bytes} {c : FramedConn τ} (a : Aligned log c)
    (empty : c.buffer.getD [] = []) (room : c.frames < 16) {frame : Bytes} {s' : τ}
    (valid : validateBERFrame frame = .ok ()) (logged : log s' = log c.conn ++ frame) :
    Aligned log ⟨s', some frame, c.frames + 1, c.history ++ [.validated frame]⟩ := by
  have frames : validatedFrames (c.history ++ [.validated frame]) =
      validatedFrames c.history ++ [frame] := by
    simp [validatedFrames]
  have seen : deliveredBytes (c.history ++ [.validated frame]) = deliveredBytes c.history := by
    simp [deliveredBytes]
  have all : deliveredBytes c.history = (validatedFrames c.history).flatten := by
    have split := a.split
    rwa [empty, List.append_nil] at split
  have tiles : (validatedFrames c.history ++ [frame]).flatten = log s' := by
    rw [List.flatten_append, List.flatten_singleton, a.exact_tiles, logged]
  refine ⟨⟨?_, ?_, ?_, room, ?_, ?_⟩, ?_⟩
  · rw [frames]
    exact ⟨[], by rw [List.append_nil, tiles]⟩
  · rw [frames, seen, all, List.flatten_append, List.flatten_singleton]
    rfl
  · rw [frames, List.length_append, List.length_singleton, a.count]
  · rw [frames]
    intro f hf
    rcases List.mem_append.mp hf with old | new
    · exact a.valid f old
    · rw [List.mem_singleton.mp new]
      exact valid
  · apply a.order.concat
    rw [frames, seen, all, List.flatten_append]
    exact List.prefix_append _ _
  · rw [frames]
    exact tiles

/-- One call keeps the guard, and keeps it aligned unless it fails. -/
theorem read_guarded {r : Reader τ} {log : τ → Bytes} (logs : Logs r log) {c : FramedConn τ}
    (a : Aligned log c) (n : Nat) :
    Guarded log (c.read r n).2 ∧ ((c.read r n).1.2 = none → Aligned log (c.read r n).2) := by
  rcases read_cases r c n with ⟨_, h⟩ | ⟨bytes, s', e, _, handed, _, h⟩ |
    ⟨frame, s', _, handed, empty, room, valid, _, h⟩ | ⟨_, _, h⟩
  · rw [h]
    exact ⟨a.toGuarded, fun _ => a⟩
  · rw [h]
    refine ⟨⟨?_, a.split, a.count, a.bound, a.valid, a.order⟩, fun quiet => nomatch quiet⟩
    rw [handed.logged logs]
    exact a.tiles.trans (List.prefix_append _ _)
  · rw [h]
    have next := refill_aligned a empty room valid (handed.logged logs)
    have served := serve_guarded next.toGuarded n
    exact ⟨served, fun _ => ⟨served, by simpa [validatedFrames] using next.exact_tiles⟩⟩
  · rw [h]
    have served := serve_guarded a.toGuarded n
    exact ⟨served, fun _ => ⟨served, by simpa [validatedFrames] using a.exact_tiles⟩⟩

theorem reads_guarded {r : Reader τ} {log : τ → Bytes} (logs : Logs r log) {c : FramedConn τ}
    (a : Aligned log c) (sizes : List Nat) :
    Guarded log (c.reads r sizes).conn ∧
      ((c.reads r sizes).error = none → Aligned log (c.reads r sizes).conn) := by
  induction sizes generalizing c with
  | nil => exact ⟨a.toGuarded, fun _ => a⟩
  | cons n rest ih =>
    obtain ⟨guarded, aligned⟩ := read_guarded logs a n
    rw [FramedConn.reads]
    split
    · rename_i h
      rw [h] at guarded
      exact ⟨guarded, fun quiet => nomatch quiet⟩
    · rename_i h
      rw [h] at aligned
      exact ih (aligned rfl)

theorem read_handed (r : Reader τ) (c : FramedConn τ) (n : Nat) :
    ∃ bytes, Handed r c.conn bytes (c.read r n).2.conn := by
  rcases read_cases r c n with ⟨_, h⟩ | ⟨bytes, s', e, _, handed, _, h⟩ |
    ⟨frame, s', _, handed, _, _, _, _, h⟩ | ⟨_, _, h⟩
  · exact ⟨[], by rw [h]; exact .refl _⟩
  · exact ⟨bytes, by rw [h]; exact handed⟩
  · exact ⟨frame, by rw [h]; exact handed⟩
  · exact ⟨[], by rw [h]; exact .refl _⟩

theorem reads_handed (r : Reader τ) (c : FramedConn τ) (sizes : List Nat) :
    ∃ bytes, Handed r c.conn bytes (c.reads r sizes).conn.conn := by
  induction sizes generalizing c with
  | nil => exact ⟨[], .refl _⟩
  | cons n rest ih =>
    obtain ⟨bytes, first⟩ := read_handed r c n
    rw [FramedConn.reads]
    split
    · rename_i h
      rw [h] at first
      exact ⟨bytes, first⟩
    · rename_i c' h
      rw [h] at first
      obtain ⟨more, later⟩ := ih c'
      exact ⟨bytes ++ more, first.trans later⟩

/-- The ghost history agrees with what the calls returned. -/
theorem read_history (r : Reader τ) (c : FramedConn τ) (n : Nat) :
    deliveredBytes (c.read r n).2.history = deliveredBytes c.history ++ (c.read r n).1.1 := by
  rcases read_cases r c n with ⟨_, h⟩ | ⟨bytes, s', e, _, _, _, h⟩ |
    ⟨frame, s', _, _, _, _, _, _, h⟩ | ⟨_, _, h⟩ <;> rw [h] <;> simp [deliveredBytes]

theorem reads_history (r : Reader τ) (c : FramedConn τ) (sizes : List Nat) :
    deliveredBytes (c.reads r sizes).conn.history =
      deliveredBytes c.history ++ (c.reads r sizes).bytes := by
  induction sizes generalizing c with
  | nil => simp [FramedConn.reads]
  | cons n rest ih =>
    have first := read_history r c n
    rw [FramedConn.reads]
    split
    · rename_i h
      rw [h] at first
      exact first
    · rename_i c' h
      rw [h] at first
      dsimp only at first ⊢
      rw [ih c', first, List.append_assoc]

/-- A call with room in its buffer returns a byte or an error. -/
theorem read_productive (r : Reader τ) (c : FramedConn τ) {n : Nat} (room : n ≠ 0) :
    (c.read r n).1.1 ≠ [] ∨ (c.read r n).1.2 ≠ none := by
  have some_taken : ∀ bytes : Bytes, bytes ≠ [] → bytes.take n ≠ [] := by
    intro bytes nonempty
    simp [List.take_eq_nil_iff, room, nonempty]
  rcases read_cases r c n with ⟨zero, _⟩ | ⟨bytes, s', e, _, _, _, h⟩ |
    ⟨frame, s', _, _, _, _, valid, _, h⟩ | ⟨_, nonempty, h⟩
  · exact absurd zero room
  · rw [h]
    exact Or.inr (Option.some_ne_none e)
  · rw [h]
    exact Or.inl (some_taken frame (accepted_ne_nil valid))
  · rw [h]
    exact Or.inl (some_taken _ nonempty)

/-- A successful call moves bytes from the upcoming ones to the caller. -/
theorem read_conserves {r : Reader τ} {c c' : FramedConn τ} {n : Nat} {bytes : Bytes}
    (h : c.read r n = ((bytes, none), c')) : upcoming r c = bytes ++ upcoming r c' := by
  rcases read_cases r c n with ⟨_, h'⟩ | ⟨_, _, _, _, _, _, h'⟩ |
    ⟨frame, s', _, _, empty, _, _, admits, h'⟩ | ⟨_, _, h'⟩
  · rw [h] at h'
    cases h'
    rfl
  · rw [h] at h'
    cases h'
  · rw [h] at h'
    cases h'
    simp only [upcoming, empty, admits, List.nil_append, Option.getD_some]
    rw [← List.append_assoc, List.take_append_drop]
  · rw [h] at h'
    cases h'
    simp only [upcoming, Option.getD_some]
    rw [← List.append_assoc, List.take_append_drop]

theorem read_failure {r : Reader τ} {c c' : FramedConn τ} {n : Nat} {bytes : Bytes}
    {e : IoError} (h : c.read r n = ((bytes, some e), c')) : bytes = [] ∧ upcoming r c = [] := by
  rcases read_cases r c n with ⟨_, h'⟩ | ⟨_, _, _, _, _, dry, h'⟩ |
    ⟨_, _, _, _, _, _, _, _, h'⟩ | ⟨_, _, h'⟩ <;> rw [h] at h' <;> cases h'
  exact ⟨rfl, dry⟩

/-- Reading on to the first error returns all upcoming bytes, whatever the
buffer sizes were. -/
theorem reads_all {r : Reader τ} {c : FramedConn τ} {sizes : List Nat}
    (failed : (c.reads r sizes).error ≠ none) : (c.reads r sizes).bytes = upcoming r c := by
  induction sizes generalizing c with
  | nil => exact absurd rfl failed
  | cons n rest ih =>
    rw [FramedConn.reads] at failed ⊢
    split
    · rename_i h
      obtain ⟨none_read, dry⟩ := read_failure h
      rw [none_read, dry]
    · rename_i bytes c' h
      rw [h] at failed
      rw [read_conserves h, ← ih failed]

/-- `n` bytes off the front of a stream, when there are that many. -/
def splitExact (n : Nat) (stream : Bytes) : Option (Bytes × Bytes) :=
  if n ≤ stream.length then some (stream.take n, stream.drop n) else none

/-- The length octets of the next frame of a stream. -/
def nextExtra (stream : Bytes) (second : UInt8) : Option ((Bytes × Nat) × Bytes) :=
  if second &&& 0x80 ≠ 0 then
    if (second &&& 0x7f).toNat < 1 ∨ (second &&& 0x7f).toNat > 4 then none
    else
      match splitExact (second &&& 0x7f).toNat stream with
      | none => none
      | some (extra, rest) => (decodeLength 0 extra).map (fun length => ((extra, length), rest))
  else some (([], second.toNat), stream)

/-- The outer frame at the front of a stream, and what follows it. -/
def nextFrame (stream : Bytes) : Option (Bytes × Bytes) :=
  match splitExact 2 stream with
  | none => none
  | some (lead, rest) =>
    if lead.getD 0 0 ≠ 0x30 then none
    else
      match nextExtra rest (lead.getD 1 0) with
      | none => none
      | some ((extra, length), rest) =>
        if length > (1 <<< 20) - (lead ++ extra).length then none
        else (splitExact length rest).map (fun p => (lead ++ extra ++ p.1, p.2))

/-- An operation on a reader does what a partial function of the pending bytes says. -/
def Tracks {α : Type} (pending : τ → Bytes) (out : Except IoError α × τ) :
    Option (α × Bytes) → Prop
  | none => ∃ e s', out = (.error e, s')
  | some (a, rest) => ∃ s', out = (.ok a, s') ∧ pending s' = rest

variable {r : Reader τ} {pending : τ → Bytes}

theorem readFull_tracks (serves : Serves r pending) (s : τ) (need : Nat) :
    Tracks pending (readFull r s need) (splitExact need (pending s)) := by
  rcases readFull_served serves s need with ⟨enough, s', hok, hrest⟩ | ⟨short, e, s', herr⟩
  · rw [splitExact, if_pos enough]
    exact ⟨s', hok, hrest⟩
  · rw [splitExact, if_neg (by omega)]
    exact ⟨e, s', herr⟩

theorem readExtra_tracks (serves : Serves r pending) (s : τ) (second : UInt8) :
    Tracks pending (readExtra r s second) (nextExtra (pending s) second) := by
  rw [readExtra, nextExtra]
  split
  · dsimp only
    split
    · exact ⟨_, _, rfl⟩
    · have full := readFull_tracks serves s (second &&& 0x7f).toNat
      cases hsplit : splitExact (second &&& 0x7f).toNat (pending s) with
      | none =>
        rw [hsplit] at full
        obtain ⟨e, s', herr⟩ := full
        rw [herr]
        exact ⟨e, s', rfl⟩
      | some p =>
        rw [hsplit] at full
        obtain ⟨s', hok, hrest⟩ := full
        rw [hok]
        dsimp only
        cases decodeLength 0 p.1 with
        | none => exact ⟨errInvalidFrame, s', rfl⟩
        | some length => exact ⟨s', rfl, hrest⟩
  · exact ⟨s, rfl, rfl⟩

theorem assembleFrame_tracks (serves : Serves r pending) (s : τ) :
    Tracks pending (assembleFrame r s) (nextFrame (pending s)) := by
  rw [assembleFrame, nextFrame]
  have first := readFull_tracks serves s 2
  cases hlead : splitExact 2 (pending s) with
  | none =>
    rw [hlead] at first
    obtain ⟨e, s', herr⟩ := first
    rw [herr]
    exact ⟨e, s', rfl⟩
  | some p =>
    obtain ⟨lead, rest⟩ := p
    rw [hlead] at first
    obtain ⟨s₁, hok, rfl⟩ := first
    rw [hok]
    dsimp only
    split
    · exact ⟨_, _, rfl⟩
    · have second := readExtra_tracks serves s₁ (lead.getD 1 0)
      cases hextra : nextExtra (pending s₁) (lead.getD 1 0) with
      | none =>
        rw [hextra] at second
        obtain ⟨e, s', herr⟩ := second
        rw [herr]
        exact ⟨e, s', rfl⟩
      | some q =>
        obtain ⟨⟨extra, length⟩, rest⟩ := q
        rw [hextra] at second
        obtain ⟨s₂, hok, rfl⟩ := second
        rw [hok]
        dsimp only
        split
        · exact ⟨_, _, rfl⟩
        · have third := readFull_tracks serves s₂ length
          cases hcontent : splitExact length (pending s₂) with
          | none =>
            rw [hcontent] at third
            obtain ⟨e, s', herr⟩ := third
            rw [herr]
            exact ⟨e, s', rfl⟩
          | some p =>
            rw [hcontent] at third
            obtain ⟨s₃, hok, hrest⟩ := third
            rw [hok]
            exact ⟨s₃, rfl, hrest⟩

/-- Two readers that serve the same bytes have the same frames admitted. -/
theorem admitted_served {r' : Reader σ} {pending' : σ → Bytes} (serves : Serves r pending)
    (serves' : Serves r' pending') (left : Nat) (s : τ) (s' : σ)
    (same : pending s = pending' s') : admitted r left s = admitted r' left s' := by
  induction left generalizing s s' with
  | zero => rfl
  | succ left ih =>
    have one := assembleFrame_tracks serves s
    have two := assembleFrame_tracks serves' s'
    rw [← same] at two
    rw [admitted, admitted]
    cases hnext : nextFrame (pending s) with
    | none =>
      rw [hnext] at one two
      obtain ⟨_, _, herr⟩ := one
      obtain ⟨_, _, herr'⟩ := two
      rw [herr, herr']
    | some p =>
      rw [hnext] at one two
      obtain ⟨t, hok, hrest⟩ := one
      obtain ⟨t', hok', hrest'⟩ := two
      rw [hok, hok']
      dsimp only
      cases validateBERFrame p.1 with
      | error e => rfl
      | ok u => simp only [ih t t' (hrest.trans hrest'.symm)]

theorem tap_logs (raw : Reader σ) : Logs (tap raw) Tap.taken := fun _ _ => rfl

theorem boundedConn_logs {r : Reader τ} {log : τ → Bytes} (logs : Logs r log) :
    Logs (boundedConn r) (fun c => log c.conn) := by
  intro c n
  change log (boundedRead r c n).2.conn = log c.conn ++ (boundedRead r c n).1.1
  rw [boundedRead]
  split
  · exact (List.append_nil _).symm
  · exact logs _ _

theorem tap_serves {raw : Reader σ} {pending : σ → Bytes} (serves : Serves raw pending) :
    Serves (tap raw) (fun s => pending s.conn) :=
  ⟨fun s n pos => serves.peels s.conn n pos, fun s n pos failed => serves.ends s.conn n pos failed⟩

/-- A budget cuts the served stream off and changes nothing else. -/
theorem boundedConn_serves {r : Reader τ} {pending : τ → Bytes} (serves : Serves r pending) :
    Serves (boundedConn r) (fun c => (pending c.conn).take c.remaining.toNat) := by
  have request_pos : ∀ (c : BoundedConn τ) (n : Nat), 0 < n → ¬ c.remaining ≤ 0 →
      0 < if (n : Int) > c.remaining then c.remaining.toNat else n := by
    intro c n pos open_budget
    split <;> omega
  constructor
  · intro c n pos
    change (pending c.conn).take c.remaining.toNat = (boundedRead r c n).1.1 ++
      (pending (boundedRead r c n).2.conn).take (boundedRead r c n).2.remaining.toNat
    rw [boundedRead]
    split
    · rename_i spent
      simp [Int.toNat_of_nonpos spent]
    · rename_i open_budget
      dsimp only
      have peel := serves.peels c.conn _ (request_pos c n pos open_budget)
      have most := r.atMost c.conn (if (n : Int) > c.remaining then c.remaining.toNat else n)
      generalize r.read c.conn (if (n : Int) > c.remaining then c.remaining.toNat else n) =
        answer at peel most ⊢
      have cheap : answer.1.1.length ≤ c.remaining.toNat := by
        refine Nat.le_trans most ?_
        split <;> omega
      have left : (c.remaining - answer.1.1.length).toNat =
          c.remaining.toNat - answer.1.1.length := by omega
      rw [peel, List.take_append, List.take_of_length_le cheap, left]
  · intro c n pos
    change (boundedRead r c n).1.2 ≠ none →
      (pending (boundedRead r c n).2.conn).take (boundedRead r c n).2.remaining.toNat = []
    rw [boundedRead]
    split
    · rename_i spent
      intro _
      simp [Int.toNat_of_nonpos spent]
    · rename_i open_budget
      intro failed
      dsimp only
      rw [serves.ends c.conn _ (request_pos c n pos open_budget) failed, List.take_nil]

/-- Budget and bytes taken always add up to the initial budget. -/
def Solvent (c : BoundedConn (Tap σ)) : Prop :=
  0 ≤ c.remaining ∧ c.remaining + c.conn.taken.length = 1 <<< 20

theorem guard_solvent (raw : Reader σ) : Preserves (guardReader raw) Solvent := by
  intro c n solvent
  change Solvent (boundedRead (tap raw) c n).2
  rw [boundedRead]
  split
  · exact solvent
  · dsimp only
    have most := (tap raw).atMost c.conn
      (if (n : Int) > c.remaining then c.remaining.toNat else n)
    have logged := tap_logs raw c.conn
      (if (n : Int) > c.remaining then c.remaining.toNat else n)
    generalize (tap raw).read c.conn (if (n : Int) > c.remaining then c.remaining.toNat else n) =
      answer at most logged ⊢
    have cheap : (answer.1.1.length : Int) ≤ c.remaining := by
      split at most <;> omega
    obtain ⟨_, total⟩ := solvent
    refine ⟨by dsimp only; omega, ?_⟩
    rw [logged, List.length_append]
    push_cast
    omega

theorem guardStart_aligned (s : σ) : Aligned (fun c => c.conn.taken) (guardStart s) := by
  refine ⟨⟨List.prefix_rfl, rfl, rfl, Nat.zero_le 16, by simp [guardStart, validatedFrames], ?_⟩,
    rfl⟩
  intro h hh
  rw [List.prefix_nil.mp hh]
  exact List.prefix_rfl

theorem guard_serves {raw : Reader σ} {pending : σ → Bytes} (serves : Serves raw pending) :
    Serves (guardReader raw) (fun c => (pending c.conn.conn).take c.remaining.toNat) :=
  boundedConn_serves (tap_serves serves)

theorem guardSession_guarded (raw : Reader σ) (s : σ) (sizes : List Nat) :
    Guarded (fun c => c.conn.taken) (guardSession raw s sizes).conn :=
  (reads_guarded (boundedConn_logs (tap_logs raw)) (guardStart_aligned s) sizes).1

theorem guardSession_budget (raw : Reader σ) (s : σ) (sizes : List Nat) :
    (rawTaken (guardSession raw s sizes).conn).length ≤ 2 ^ 20 := by
  obtain ⟨bytes, handed⟩ := reads_handed (guardReader raw) (guardStart s) sizes
  have start : Solvent (guardStart s).conn := by simp [Solvent, guardStart]
  have solvent := handed.preserves (guard_solvent raw) start
  change ((guardSession raw s sizes).conn.conn.conn.taken).length ≤ 2 ^ 20
  obtain ⟨open_budget, total⟩ := solvent
  norm_num at total
  change 0 ≤ (guardSession raw s sizes).conn.conn.remaining at open_budget
  change (guardSession raw s sizes).conn.conn.remaining +
    ((guardSession raw s sizes).conn.conn.conn.taken).length = 1048576 at total
  omega

theorem guardSession_bytes (raw : Reader σ) (s : σ) (sizes : List Nat) :
    (guardSession raw s sizes).bytes = deliveredBytes (guardSession raw s sizes).conn.history :=
  (reads_history (guardReader raw) (guardStart s) sizes).symm

/-- What was taken, and hence what was delivered, is a beginning of a fixed stream. -/
theorem rawTaken_served {raw : Reader σ} {pending : σ → Bytes} (serves : Serves raw pending)
    (s : σ) (sizes : List Nat) :
    rawTaken (guardSession raw s sizes).conn <+: pending s := by
  obtain ⟨bytes, handed⟩ := reads_handed (guardReader raw) (guardStart s) sizes
  have logged := handed.logged (boundedConn_logs (tap_logs raw))
  have served := handed.served (guard_serves serves)
  have whole : bytes <+: (pending s).take (guardStart s).conn.remaining.toNat :=
    ⟨_, served.symm⟩
  change (guardSession raw s sizes).conn.conn.conn.taken <+: pending s
  change (guardSession raw s sizes).conn.conn.conn.taken = [] ++ bytes at logged
  rw [logged, List.nil_append]
  exact whole.trans (List.take_prefix _ _)

theorem guardSession_chunking {raw : Reader σ} {raw' : Reader τ} {pending : σ → Bytes}
    {pending' : τ → Bytes} (serves : Serves raw pending) (serves' : Serves raw' pending')
    {s : σ} {s' : τ} (same : pending' s' = pending s) {sizes sizes' : List Nat}
    (failed : (guardSession raw s sizes).error ≠ none)
    (failed' : (guardSession raw' s' sizes').error ≠ none) :
    (guardSession raw' s' sizes').bytes = (guardSession raw s sizes).bytes := by
  have all := reads_all failed
  have all' := reads_all failed'
  have agree := admitted_served (guard_serves serves') (guard_serves serves) 16
    (guardStart s').conn (guardStart s).conn (by simp only [guardStart, same])
  change (guardSession raw s sizes).bytes = admitted (guardReader raw) 16 (guardStart s).conn at all
  change (guardSession raw' s' sizes').bytes =
    admitted (guardReader raw') 16 (guardStart s').conn at all'
  rw [all, all', agree]

/-- The guard over any connection and any calls up to the first error: the
caller sees a beginning of the raw bytes, cut out of at most sixteen validated
frames that tile them, each validated before any of its bytes is handed out;
every call with room is productive; at most one mebibyte is taken; and for a
fixed stream the delivered bytes depend on neither chunks nor buffers. -/
theorem guard_transparent (raw : Reader σ) (s : σ) (sizes : List Nat) :
    (guardSession raw s sizes).bytes <+: rawTaken (guardSession raw s sizes).conn ∧
    (guardSession raw s sizes).bytes = deliveredBytes (guardSession raw s sizes).conn.history ∧
    (guardSession raw s sizes).bytes <+:
      (validatedFrames (guardSession raw s sizes).conn.history).flatten ∧
    (validatedFrames (guardSession raw s sizes).conn.history).flatten <+:
      rawTaken (guardSession raw s sizes).conn ∧
    (validatedFrames (guardSession raw s sizes).conn.history).length ≤ 16 ∧
    (∀ f ∈ validatedFrames (guardSession raw s sizes).conn.history,
      validateBERFrame f = .ok ()) ∧
    Ordered (guardSession raw s sizes).conn.history ∧
    (∀ n, n ≠ 0 → (guardSession raw s sizes).error = none →
      ((guardSession raw s sizes).conn.read (guardReader raw) n).1.1 ≠ [] ∨
      ((guardSession raw s sizes).conn.read (guardReader raw) n).1.2 ≠ none) ∧
    (rawTaken (guardSession raw s sizes).conn).length ≤ 2 ^ 20 ∧
    (∀ pending : σ → Bytes, Serves raw pending →
      rawTaken (guardSession raw s sizes).conn <+: pending s ∧
      ∀ (τ : Type) (raw' : Reader τ) (pending' : τ → Bytes) (s' : τ) (sizes' : List Nat),
        Serves raw' pending' → pending' s' = pending s →
        (guardSession raw s sizes).error ≠ none → (guardSession raw' s' sizes').error ≠ none →
        (guardSession raw' s' sizes').bytes = (guardSession raw s sizes).bytes) := by
  have guarded := guardSession_guarded raw s sizes
  have bytes := guardSession_bytes raw s sizes
  have seen : (guardSession raw s sizes).bytes <+:
      (validatedFrames (guardSession raw s sizes).conn.history).flatten := by
    rw [bytes]
    exact ⟨_, guarded.split⟩
  refine ⟨seen.trans guarded.tiles, bytes, seen, guarded.tiles, ?_, guarded.valid,
    guarded.order, ?_, guardSession_budget raw s sizes, ?_⟩
  · rw [guarded.count]
    exact guarded.bound
  · intro n room _
    exact read_productive _ _ room
  · intro pending serves
    refine ⟨rawTaken_served serves s sizes, ?_⟩
    intro τ raw' pending' s' sizes' serves' same failed failed'
    exact guardSession_chunking serves serves' same failed failed'

/-- A connection that hands over at most `k + 1` bytes at a time. -/
def chunked (k : Nat) : Reader Bytes where
  read s n := ((s.take (min n (k + 1)), if s = [] then some .eof else none),
    s.drop (min n (k + 1)))
  atMost s n := by
    rw [List.length_take]
    omega
  progress s n pos := by
    intro empty
    have none_left : s = [] := by
      rcases List.take_eq_nil_iff.mp empty with zero | none_left
      · omega
      · exact none_left
    rw [if_pos none_left]
    exact Option.some_ne_none _

theorem chunked_serves (k : Nat) : Serves (chunked k) id := by
  constructor
  · intro s n _
    exact (List.take_append_drop _ s).symm
  · intro s n _ failed
    change (if s = [] then some IoError.eof else none) ≠ none at failed
    split at failed
    · rename_i none_left
      rw [none_left]
      exact List.drop_nil
    · exact absurd rfl failed

/-- The same frame in one-byte chunks and buffers, and at one go. -/
theorem guard_transparent_chunks :
    (guardSession (chunked 0) [0x30, 0x03, 0x02, 0x01, 0x01] [1, 1, 1, 1, 1, 1]).error ≠ none ∧
    (guardSession (chunked 9) [0x30, 0x03, 0x02, 0x01, 0x01] [8, 8]).error ≠ none ∧
    (guardSession (chunked 9) [0x30, 0x03, 0x02, 0x01, 0x01] [8, 8]).bytes =
      (guardSession (chunked 0) [0x30, 0x03, 0x02, 0x01, 0x01] [1, 1, 1, 1, 1, 1]).bytes := by
  have slow : (guardSession (chunked 0) [0x30, 0x03, 0x02, 0x01, 0x01]
      [1, 1, 1, 1, 1, 1]).error ≠ none := by decide +kernel
  have fast : (guardSession (chunked 9) [0x30, 0x03, 0x02, 0x01, 0x01] [8, 8]).error ≠ none := by
    decide +kernel
  have laws := guard_transparent (chunked 0) [0x30, 0x03, 0x02, 0x01, 0x01] [1, 1, 1, 1, 1, 1]
  obtain ⟨_, _, _, _, _, _, _, _, _, fixed⟩ := laws
  exact ⟨slow, fast, (fixed id (chunked_serves 0)).2 Bytes (chunked 9) id _ [8, 8]
    (chunked_serves 9) rfl slow fast⟩

end ReadTransparency
