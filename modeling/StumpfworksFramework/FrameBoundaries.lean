import Mathlib.Data.List.Basic
import StumpfworksFramework.LengthOctets
import StumpfworksFramework.ReadTransparency

/-!
# The framer and the validator see the same frame

`framedConn.Read` decodes the outer header while it reads, the validator decodes
it again from the assembled frame. An assembled frame has, for the validator,
the header the framer acted on, and its content is all that is left to check. An
accepted frame is assembled from any stream that starts with it, and nothing
after it is taken. What the validator does with an element depends on no byte
behind its end.
-/

namespace FrameBoundaries

open ByteStrings ByteReaders BerGrammar BerFraming BerAcceptance BerResources LengthOctets
open ReadGuard ReadTransparency

variable {τ : Type} {r : Reader τ} {s s' : τ} {frame : Bytes}

/-! ## What the framer assembled -/

/-- The framer reads an outer header of `size` octets that announces `length`. -/
def Announced (r : Reader τ) (s : τ) (size length : Nat) : Prop :=
  ∃ lead extra s₁ s₂, readFull r s 2 = (.ok lead, s₁) ∧
    readExtra r s₁ (lead.getD 1 0) = (.ok (extra, length), s₂) ∧ size = (lead ++ extra).length

/-- The length octets the framer accepts form a length field. -/
theorem readExtra_ok {second : UInt8} {extra : Bytes} {length : Nat}
    (read : readExtra r s second = (.ok (extra, length), s')) :
    LengthField (second :: extra) length := by
  rw [readExtra] at read
  split at read
  · rename_i long
    dsimp only at read
    split at read
    · cases read
    · rename_i octets
      obtain ⟨bytes, s₁, _, ⟨full, width⟩ | ⟨e, failed, _⟩⟩ :=
        readFull_cases r s (second &&& 0x7f).toNat
      · rw [full] at read
        dsimp only at read
        cases decoded : decodeLength 0 bytes with
        | none =>
          rw [decoded] at read
          cases read
        | some n =>
          rw [decoded] at read
          cases read
          refine Or.inr ⟨extra, by omega, by omega, ?_, decodeLength_sound decoded⟩
          rw [width, ← octet_of_long_form second long]
      · rw [failed] at read
        cases read
  · rename_i short
    cases read
    have clear : second &&& 0x80 = 0 := Decidable.not_not.mp short
    exact Or.inl ⟨second, (high_bit_clear_iff second).mp clear, rfl, rfl⟩

theorem lengthField_length {field : Bytes} {n : Nat} (shape : LengthField field n) :
    1 ≤ field.length ∧ field.length ≤ 5 := by
  rcases shape with ⟨octet, _, rfl, _⟩ | ⟨octets, _, few, rfl, _⟩
  · simp
  · simp only [List.length_cons]
    omega

theorem tagTail_sequence (tail : Bytes) : TagTail 0x30 tail ↔ tail = [] := by
  rw [TagTail, if_neg (by decide)]

/-- An assembled frame is a header that announces its content, within a mebibyte. -/
theorem assembleFrame_ok (assembled : assembleFrame r s = (.ok frame, s')) :
    ∃ (h : Header) (content : Bytes), h.tag = 0x30 ∧ h.Announces content.length ∧
      frame = h.octets ++ content ∧ frame.length ≤ 2 ^ 20 ∧
      Announced r s h.octets.length content.length := by
  rw [assembleFrame] at assembled
  obtain ⟨lead, s₁, _, ⟨first, two⟩ | ⟨e, failed, _⟩⟩ := readFull_cases r s 2
  · rw [first] at assembled
    dsimp only at assembled
    obtain ⟨b, second, rfl⟩ := List.length_eq_two.mp two
    split at assembled
    · cases assembled
    · rename_i sequence
      obtain rfl : b = 0x30 := not_not.mp sequence
      cases extraRead : readExtra r s₁ second with
      | mk result s₂ =>
        simp only [List.getD_cons_succ, List.getD_cons_zero, extraRead] at assembled
        cases result with
        | error e => cases assembled
        | ok found =>
          obtain ⟨extra, length⟩ := found
          dsimp only at assembled
          split at assembled
          · cases assembled
          · rename_i fits
            obtain ⟨content, s₃, _, ⟨full, width⟩ | ⟨e, failed, _⟩⟩ := readFull_cases r s₂ length
            · rw [full] at assembled
              cases assembled
              have shape := readExtra_ok extraRead
              have few := (lengthField_length shape).2
              refine ⟨⟨0x30, [], second :: extra⟩, content, rfl, ⟨?_, ?_⟩, ?_, ?_, ?_⟩
              · exact (tagTail_sequence []).mpr rfl
              · rw [width]
                exact shape
              · rfl
              · rw [List.length_cons] at few
                simp only [List.length_append, List.length_cons, List.length_nil] at fits ⊢
                norm_num at fits
                omega
              · rw [width]
                exact ⟨[0x30, second], extra, s₁, s₂, first, extraRead, rfl⟩
            · rw [failed] at assembled
              cases assembled
  · rw [failed] at assembled
    cases assembled

/-- A frame with the announced length is accepted or refused by its content. -/
theorem validateBERFrame_ok_iff_contents {h : Header} {content : Bytes} (sequence : h.tag = 0x30)
    (announces : h.Announces content.length) (small : (h.octets ++ content).length ≤ 2 ^ 20) :
    validateBERFrame (h.octets ++ content) = .ok () ↔
      (validateBERContents content 0 1).1 = .ok () := by
  have total : (h.octets ++ content).length = h.octets.length + content.length :=
    List.length_append
  have read : readHeader (h.octets ++ content) =
      some ⟨h.tag, h.octets.length, content.length⟩ :=
    readHeader_complete announces (by omega) (Nat.le_refl _)
  have bounds := readHeader_bounds read
  have slice : ((h.octets ++ content).drop h.octets.length).take content.length = content := by
    rw [List.drop_left, List.take_length]
  have structured : h.tag &&& 0x20 ≠ 0 := by
    rw [sequence]
    decide
  have entry : ¬ ((h.octets ++ content).length < 2 ∨ (h.octets ++ content).length > 1 <<< 20 ∨
      (h.octets ++ content)[0]? ≠ some 0x30) := by
    rintro (short | long | other)
    · dsimp only at bounds
      omega
    · omega
    · exact other (by rw [← sequence]; rfl)
  rw [validateBERFrame, if_neg entry]
  cases inner : validateBERContents content 0 1 with
  | mk result nodes =>
    cases result with
    | error e =>
      have failed : validateBERElement (h.octets ++ content) 0 0 = (.error e, nodes) :=
        element_of_failed read (by decide) (by decide) structured (by rw [slice]; exact inner)
      simp [failed]
    | ok u =>
      obtain ⟨stop, accepted, position⟩ : ∃ stop, validateBERElement (h.octets ++ content) 0 0 =
          (.ok stop, nodes) ∧ stop.val = h.octets.length + content.length :=
        element_of_constructed read (by decide) (by decide) structured (by rw [slice]; exact inner)
      simp [accepted, position]

/-! ## What the framer takes from a stream -/

/-- The outer header at the front of a stream, as the framer decodes it. -/
theorem nextExtra_field {second : UInt8} {extra : Bytes} {length : Nat}
    (shape : LengthField (second :: extra) length) (small : length ≤ 1 <<< 20) (rest : Bytes) :
    nextExtra (extra ++ rest) second = some ((extra, length), rest) := by
  rcases shape with ⟨octet, below, same, rfl⟩ | ⟨octets, low, high, same, rfl⟩
  · obtain ⟨rfl, rfl⟩ := List.cons.inj same
    have clear : ¬ second &&& 0x80 ≠ 0 := by
      simpa using (high_bit_clear_iff second).mpr below
    rw [nextExtra, if_neg clear]
    rfl
  · obtain ⟨rfl, rfl⟩ := List.cons.inj same
    obtain ⟨long, width⟩ := long_form_octet extra.length high
    have room : extra.length ≤ (extra ++ rest).length := by
      rw [List.length_append]
      omega
    have split : splitExact extra.length (extra ++ rest) = some (extra, rest) := by
      rw [splitExact, if_pos room, List.take_left, List.drop_left]
    rw [nextExtra, if_pos long, width, if_neg (by omega), split]
    simp only [decodeLength_complete small, Option.map_some]
    rfl

theorem nextFrame_of_header {h : Header} {content : Bytes} (sequence : h.tag = 0x30)
    (announces : h.Announces content.length) (small : (h.octets ++ content).length ≤ 2 ^ 20)
    (rest : Bytes) :
    nextFrame (h.octets ++ content ++ rest) = some (h.octets ++ content, rest) := by
  obtain ⟨tag, tail, field⟩ := h
  obtain ⟨shape, lengthShape⟩ := announces
  obtain rfl : tag = 0x30 := sequence
  obtain rfl : tail = [] := (tagTail_sequence tail).mp shape
  have long := (lengthField_length lengthShape).1
  obtain ⟨second, extra, rfl⟩ := List.exists_cons_of_length_pos long
  have few := (lengthField_length lengthShape).2
  have stream : (⟨0x30, [], second :: extra⟩ : Header).octets ++ content ++ rest =
      0x30 :: second :: (extra ++ (content ++ rest)) := by
    simp [Header.octets]
  have size : 2 + extra.length + content.length ≤ 2 ^ 20 := by
    simp only [Header.octets, List.length_append, List.length_cons, List.length_nil] at small
    omega
  have lead : splitExact 2 (0x30 :: second :: (extra ++ (content ++ rest))) =
      some ([0x30, second], extra ++ (content ++ rest)) := by
    simp [splitExact]
  have whole : splitExact content.length (content ++ rest) = some (content, rest) := by
    simp [splitExact]
  have fits : ¬ content.length > (1 <<< 20) - ([0x30, second] ++ extra).length := by
    simp only [List.length_append, List.length_cons, List.length_nil]
    norm_num
    omega
  rw [stream, nextFrame, lead]
  simp only [List.getD_cons_zero, List.getD_cons_succ,
    nextExtra_field lengthShape (by omega) (content ++ rest), if_neg fits, whole,
    Option.map_some]
  rfl

/-- An accepted frame is a header with the content it announces. -/
theorem header_of_accepted (accepted : validateBERFrame frame = .ok ()) :
    ∃ (h : Header) (content : Bytes), h.tag = 0x30 ∧ h.Announces content.length ∧
      frame = h.octets ++ content ∧ frame.length ≤ 2 ^ 20 := by
  obtain ⟨small, t, wf, rfl, sequence, _, _⟩ := tree_of_accepted accepted
  cases t with
  | primitive h content => exact ⟨h, content, sequence, wf.1, rfl, small⟩
  | constructed h children => exact ⟨h, _, sequence, wf.1, rfl, small⟩

theorem assembles_accepted {pending : τ → Bytes} (serves : Serves r pending)
    (accepted : validateBERFrame frame = .ok ()) {rest : Bytes}
    (stream : pending s = frame ++ rest) :
    ∃ s', assembleFrame r s = (.ok frame, s') ∧ pending s' = rest := by
  obtain ⟨h, content, sequence, announces, rfl, small⟩ := header_of_accepted accepted
  have tracks := assembleFrame_tracks serves s
  rwa [stream, nextFrame_of_header sequence announces small rest] at tracks

theorem read_accepted (accepted : validateBERFrame frame = .ok ()) {c : FramedConn τ} {n : Nat}
    (assembled : assembleFrame r c.conn = (.ok frame, s')) (empty : c.buffer.getD [] = [])
    (room : c.frames < 16) (some_bytes : n ≠ 0) :
    (c.read r n).1 = (frame.take n, none) ∧ (c.read r n).2.conn = s' := by
  obtain ⟨b, unread, rfl⟩ := List.exists_cons_of_ne_nil (accepted_ne_nil accepted)
  have open_slot : ¬ c.frames ≥ 16 := by omega
  rw [FramedConn.read, if_neg some_bytes, if_pos empty, if_neg open_slot, assembled]
  simp only [accepted, FramedConn.serve, and_self]

/-! ## Bytes behind an element -/

theorem readLength_local {data data' rest : Bytes} {index next length : Nat}
    (read : readLength data index = some (next, length))
    (same : data'.drop index = (data.drop index).take (next - index) ++ rest) :
    readLength data' index = some (next, length) := by
  obtain ⟨field, shape, split, position⟩ := readLength_sound read
  have front : data'.drop index = field ++ rest := by
    rw [same, split, position, Nat.add_sub_cancel_left, List.take_left]
  rcases shape with ⟨octet, below, rfl, rfl⟩ | ⟨octets, low, high, rfl, rfl⟩
  · have small : octet.toNat ≤ 1 <<< 20 := octet.toNat_lt.le.trans (by decide)
    rw [readLength_complete (Or.inl ⟨octet, below, rfl, rfl⟩) small front, position]
  · rw [readLength_long low high split] at read
    rw [readLength_long low high front]
    exact read

theorem readTag_local {data data' : Bytes} {tag : UInt8} {index : Nat}
    (read : readTag data = some (tag, index)) (same : data'.take index = data.take index) :
    readTag data' = some (tag, index) := by
  obtain ⟨tail, shape, whole, position⟩ := readTag_sound read
  have front : data'.take index = tag :: tail := by
    rw [same, whole, position, Nat.add_comm, List.take_succ_cons, List.take_left]
  have data'_eq : data' = tag :: (tail ++ data'.drop index) := by
    rw [← List.cons_append, ← front, List.take_append_drop]
  rw [data'_eq, readTag_complete _ shape, position]

theorem readHeader_local {data : Bytes} {e : ElementHeader} (read : readHeader data = some e)
    (rest : Bytes) : readHeader (data.take (e.index + e.length) ++ rest) = some e := by
  have bounds := readHeader_bounds read
  simp only [readHeader] at read
  split at read
  · cases read
  · rename_i tag index tagRead
    split at read
    · cases read
    · rename_i next length lengthRead
      split at read
      · cases read
      · cases read
        dsimp only at bounds ⊢
        have order := readLength_bounds lengthRead
        have front : (data.take (next + length)).length = next + length := by
          rw [List.length_take]
          omega
        have tagSame : (data.take (next + length) ++ rest).take index = data.take index := by
          rw [List.take_append_of_le_length (by omega), List.take_take]
          congr 1
          omega
        have lengthSame : (data.take (next + length) ++ rest).drop index =
            (data.drop index).take (next - index) ++
              ((data.drop next).take length ++ rest) := by
          have parts : next + length - index = next - index + length := by omega
          have place : index + (next - index) = next := by omega
          rw [List.drop_append_of_le_length (by omega), List.drop_take, parts, List.take_add,
            List.drop_drop, place, List.append_assoc]
        have fits : ¬ length > (data.take (next + length) ++ rest).length - next := by
          rw [List.length_append]
          omega
        simp only [readHeader, readTag_local tagRead tagSame,
          readLength_local lengthRead lengthSame, if_neg fits]

/-- A successful element, with other bytes behind its end. -/
theorem element_local {data : Bytes} {depth nodes nodes' : Nat} {stop : End data}
    (accepted : validateBERElement data depth nodes = (.ok stop, nodes')) (rest : Bytes) :
    ∃ stop', validateBERElement (data.take stop.val ++ rest) depth nodes = (.ok stop', nodes') ∧
      stop'.val = stop.val := by
  obtain ⟨e, read, deep, count, position, shape⟩ := element_ok accepted
  have bounds := readHeader_bounds read
  have front : (data.take (e.index + e.length)).length = e.index + e.length := by
    rw [List.length_take]
    omega
  have content : ((data.take (e.index + e.length) ++ rest).drop e.index).take e.length =
      (data.drop e.index).take e.length := by
    rw [List.drop_append_of_le_length (by omega), List.drop_take, Nat.add_sub_cancel_left,
      List.take_append_of_le_length (by rw [List.length_take, List.length_drop]; omega),
      List.take_take, Nat.min_self]
  rw [position]
  rcases shape with ⟨structured, inner⟩ | ⟨plain, rfl⟩
  · exact element_of_constructed (readHeader_local read rest) deep count structured
      (by rw [content]; exact inner)
  · exact element_of_primitive (readHeader_local read rest) deep count plain

/-! ## One boundary -/

/-- The validator reads an assembled frame's outer header as the framer did, so that the frame
stands or falls with its content; an accepted frame is what the framer assembles from any stream
it begins, and the rest of the stream stays; and an element is accepted or not whatever follows
its end. -/
theorem boundaries_agree :
    (∀ (τ : Type) (r : Reader τ) (s s' : τ) (frame : Bytes),
      assembleFrame r s = (.ok frame, s') →
      ∃ size length, Announced r s size length ∧ readHeader frame = some ⟨0x30, size, length⟩ ∧
        size + length = frame.length ∧
        (validateBERFrame frame = .ok () ↔
          (validateBERContents (frame.drop size) 0 1).1 = .ok ())) ∧
    (∀ (τ : Type) (r : Reader τ) (pending : τ → Bytes), Serves r pending →
      ∀ (s : τ) (frame rest : Bytes), validateBERFrame frame = .ok () →
        pending s = frame ++ rest →
        ∃ s', assembleFrame r s = (.ok frame, s') ∧ pending s' = rest ∧
          ∀ (c : FramedConn τ) (n : Nat), c.conn = s → c.buffer.getD [] = [] → c.frames < 16 →
            n ≠ 0 → (c.read r n).1 = (frame.take n, none) ∧ (c.read r n).2.conn = s') ∧
    ∀ (data : Bytes) (depth nodes nodes' : Nat) (stop : End data),
      validateBERElement data depth nodes = (.ok stop, nodes') → ∀ rest : Bytes,
        ∃ stop', validateBERElement (data.take stop.val ++ rest) depth nodes =
          (.ok stop', nodes') ∧ stop'.val = stop.val := by
  refine ⟨?_, ?_, ?_⟩
  · intro τ r s s' frame assembled
    obtain ⟨h, content, sequence, announces, rfl, small, announced⟩ := assembleFrame_ok assembled
    refine ⟨h.octets.length, content.length, announced, ?_, List.length_append.symm, ?_⟩
    · rw [List.length_append] at small
      rw [readHeader_complete announces (by omega) (Nat.le_refl _), sequence]
    · rw [List.drop_left]
      exact validateBERFrame_ok_iff_contents sequence announces small
  · intro τ r pending serves s frame rest accepted stream
    obtain ⟨s', assembled, remaining⟩ := assembles_accepted serves accepted stream
    refine ⟨s', assembled, remaining, ?_⟩
    rintro c n rfl empty room some_bytes
    exact read_accepted accepted assembled empty room some_bytes
  · intro data depth nodes nodes' stop accepted rest
    exact element_local accepted rest

/-- A long form with a leading zero, in two-byte chunks and followed by another frame; and the
integer in it, followed by something that is no element. -/
theorem boundaries_agree_padded :
    assembleFrame (chunked 1) [0x30, 0x82, 0x00, 0x03, 0x02, 0x01, 0x05, 0x30, 0x00] =
      (.ok [0x30, 0x82, 0x00, 0x03, 0x02, 0x01, 0x05], [0x30, 0x00]) ∧
    (∃ size length,
      readHeader [0x30, 0x82, 0x00, 0x03, 0x02, 0x01, 0x05] = some ⟨0x30, size, length⟩ ∧
        size + length = 7) ∧
    ∃ stop, validateBERElement [0x02, 0x01, 0x05, 0xff, 0xff] 1 1 = (.ok stop, 2) ∧
      stop.val = 3 := by
  have accepted : validateBERFrame [0x30, 0x82, 0x00, 0x03, 0x02, 0x01, 0x05] = .ok () := by
    decide +kernel
  have inner : validateBERElement [0x02, 0x01, 0x05] 1 1 = (.ok ⟨3, by decide⟩, 2) := by
    decide +kernel
  obtain ⟨s', assembled, remaining, _⟩ := boundaries_agree.2.1 Bytes (chunked 1) id
    (chunked_serves 1) [0x30, 0x82, 0x00, 0x03, 0x02, 0x01, 0x05, 0x30, 0x00]
    [0x30, 0x82, 0x00, 0x03, 0x02, 0x01, 0x05] [0x30, 0x00] accepted rfl
  obtain rfl : s' = [0x30, 0x00] := remaining
  obtain ⟨size, length, _, read, whole, _⟩ := boundaries_agree.1 Bytes (chunked 1) _ _ _ assembled
  exact ⟨assembled, ⟨size, length, read, whole⟩, boundaries_agree.2.2 _ 1 1 2 _ inner [0xff, 0xff]⟩

end FrameBoundaries
