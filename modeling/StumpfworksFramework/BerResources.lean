import StumpfworksFramework.BerAcceptance
import StumpfworksFramework.BerExecution

/-!
# The validator's work is bounded

Given fuel for the length of its data, an execution of the validator neither
panics nor runs out. What it does then is a derivation of `Runs`, a relation
without machine integers; bounds on calls and depth, the progress of the sibling
loops, and the agreement with the validator over natural numbers are inductions
on it. The length loop is compared with the big-endian value of its octets.
-/

namespace BerResources

open ByteStrings ByteReaders MachineInts BerGrammar BerFraming BerAcceptance BerExecution

/-- Data that a slice of the platform can hold. -/
def Sliceable (w : Width) (data : Bytes) : Prop := (data.length : Int) < w.limit

instance (w : Width) (data : Bytes) : Decidable (Sliceable w data) :=
  inferInstanceAs (Decidable (_ < _))

/-! ## Headers -/

section Headers

variable {w : Width} {data : Bytes}

theorem highTagLoop_eq (sliceable : Sliceable w data) (fuel left count index : Nat)
    (counted : count + left = 5) (enough : left < fuel) :
    highTagLoop w data fuel count index =
      .ofOption ((readHighTag data left index).map Nat.cast) := by
  have wide := w.le_limit
  induction left generalizing fuel count index with
  | zero =>
    obtain ⟨fuel, rfl⟩ : ∃ n, fuel = n + 1 := ⟨fuel - 1, by omega⟩
    rw [highTagLoop, if_pos (Or.inl (by omega))]
    rfl
  | succ left ih =>
    obtain ⟨fuel, rfl⟩ : ∃ n, fuel = n + 1 := ⟨fuel - 1, by omega⟩
    rw [highTagLoop, readHighTag, load_natCast]
    cases read : data[index]? with
    | none =>
      have beyond := List.getElem?_eq_none_iff.mp read
      rw [if_pos (Or.inr (by omega))]
      rfl
    | some value =>
      have inside := (List.getElem?_eq_some_iff.mp read).1
      have sliceable : (data.length : Int) < w.limit := sliceable
      rw [if_neg (by omega)]
      simp only [Ending.ofRead_some, Ending.returned_bind]
      rw [wrap_of_fits (by omega) (by omega), wrap_of_fits (by omega) (by omega)]
      split
      · rfl
      · exact ih fuel (count + 1) (index + 1) (by omega) (by omega)

/-- The bound before a shift, over both kinds of numbers. -/
theorem preshift_iff (length : Nat) :
    (length : Int) > (1 <<< 20) >>> 8 ↔ length > (1 <<< 20) >>> 8 := by
  have exact : ((1 <<< 20) >>> 8 : Int) = 4096 := by decide
  have exact' : (1 <<< 20) >>> 8 = 4096 := by decide
  omega

theorem lengthLoop_eq (w : Width) (length : Nat) (octets : Bytes) :
    (lengthLoop w length octets).2 = .ofOption ((decodeLength length octets).map Nat.cast) := by
  induction octets generalizing length with
  | nil => rfl
  | cons value rest ih =>
    by_cases large : length > (1 <<< 20) >>> 8
    · rw [lengthLoop, if_pos ((preshift_iff length).mpr large), decodeLength, if_pos large]
      rfl
    · have passed := mt (preshift_iff length).mp large
      have small : (length : Int) < 2 ^ 23 := by
        norm_num at large
        omega
      rw [lengthLoop, if_neg passed, decodeLength, if_neg large, shift_or,
        shiftIn_of_small value (by omega) small]
      exact ih (length * 256 + value.toNat)

theorem lengthField_eq (sliceable : Sliceable w data) {index : Nat} {first : UInt8}
    (early : index ≤ 6) (read : data[index]? = some first) :
    lengthField w data first (index + 1 : Nat) =
      .ofOption ((readLength data index).map fun field => ((field.1 : Int), (field.2 : Int))) := by
  have wide := w.le_limit
  have inside := (List.getElem?_eq_some_iff.mp read).1
  have sliceable : (data.length : Int) < w.limit := sliceable
  have octet := (first &&& 0x7f).toNat_lt
  have sum : wrap w ((index + 1 : Nat) + (first &&& 0x7f).toNat) =
      (index + 1 + (first &&& 0x7f).toNat : Nat) := by
    rw [wrap_of_fits] <;> omega
  simp only [lengthField, readLength, read, sum]
  split
  · split
    · rename_i refused
      rw [if_pos (by omega)]
      rfl
    · rename_i passed
      rw [if_neg (by omega), slice_natCast (by omega), Ending.ofRead_some, Ending.returned_bind]
      have loop := lengthLoop_eq w 0
        ((data.drop (index + 1)).take (first &&& 0x7f).toNat)
      rw [Int.natCast_zero] at loop
      rw [loop]
      cases decodeLength 0 ((data.drop (index + 1)).take (first &&& 0x7f).toNat) with
      | none => rfl
      | some length => rfl
  · rfl

theorem readTag_le {tag : UInt8} {index : Nat} (read : readTag data = some (tag, index)) :
    index ≤ 6 := by
  obtain ⟨tail, shape, _, position⟩ := readTag_sound read
  rw [TagTail] at shape
  split at shape
  · obtain ⟨more, last, rfl, short, _⟩ := shape
    rw [List.length_append, List.length_singleton] at position
    omega
  · rw [shape, List.length_nil] at position
    omega

theorem tagEnd_eq {tag : UInt8} {rest : Bytes} (sliceable : Sliceable w (tag :: rest)) {fuel : Nat}
    (enough : 6 ≤ fuel) :
    tagEnd w fuel (tag :: rest) tag =
      .ofOption ((readTag (tag :: rest)).map fun field => ((field.2 : Nat) : Int)) := by
  simp only [tagEnd, readTag, List.getElem?_cons_zero]
  split
  · rw [Option.map_map]
    exact highTagLoop_eq sliceable fuel 5 0 1 rfl (by omega)
  · rfl

/-- The header is read as over natural numbers, without a panic. -/
theorem elementHeader_eq (sliceable : Sliceable w data) (some_data : data ≠ []) {fuel : Nat}
    (enough : 6 ≤ fuel) :
    elementHeader w fuel data =
      .ofOption ((readHeader data).map fun e => ⟨e.tag, e.index, e.length⟩) := by
  have wide := w.le_limit
  have bound : (data.length : Int) < w.limit := sliceable
  obtain ⟨tag, rest, rfl⟩ := List.exists_cons_of_ne_nil some_data
  rw [elementHeader, load_cons_zero, Ending.ofRead_some, Ending.returned_bind,
    tagEnd_eq sliceable enough, readHeader]
  cases hTag : readTag (tag :: rest) with
  | none => rfl
  | some field =>
    obtain ⟨tag', index⟩ := field
    have early := readTag_le hTag
    obtain ⟨_, _, whole, _⟩ := readTag_sound hTag
    obtain rfl : tag = tag' := (List.cons.inj whole).1
    simp only [Option.map_some, Ending.ofOption_some, Ending.returned_bind, load_natCast]
    cases read : (tag :: rest)[index]? with
    | none =>
      have beyond := List.getElem?_eq_none_iff.mp read
      rw [if_pos (by omega), readLength, read]
      rfl
    | some first =>
      have inside := (List.getElem?_eq_some_iff.mp read).1
      have next : wrap w ((index : Int) + 1) = (index + 1 : Nat) := by
        rw [wrap_of_fits] <;> omega
      rw [if_neg (by omega), Ending.ofRead_some, Ending.returned_bind, next,
        lengthField_eq sliceable early read]
      cases hLength : readLength (tag :: rest) index with
      | none => rfl
      | some field =>
        obtain ⟨after, length⟩ := field
        have bounds := readLength_bounds hLength
        have room : wrap w (((tag :: rest).length : Int) - after) =
            ((tag :: rest).length - after : Nat) := by
          rw [wrap_of_fits] <;> omega
        simp only [Option.map_some, Ending.ofOption_some, Ending.returned_bind, room]
        by_cases large : length > (tag :: rest).length - after
        · rw [if_pos (by omega), if_pos large]
          rfl
        · rw [if_neg (by omega), if_neg large]
          rfl

end Headers

/-! ## Executions as derivations -/

inductive Activity where
  | element (data : Bytes) (depth : Int)
  | loop (data : Bytes) (depth : Int) (index stop : Nat)

/-- A call within the limits on depth and on the number of calls. -/
def Admitted (w : Width) (s : State) (depth : Int) : Prop :=
  depth ≤ 32 ∧ (s.enter w depth).nodes ≤ 4096

/-- What a call or a sibling loop does from one state to another. No rule panics. -/
inductive Runs (w : Width) : Activity → State → Ending Int → State → Prop where
  | refused {data : Bytes} {depth : Int} {s : State}
      (reason : Admitted w s depth → readHeader data = none) :
      Runs w (.element data depth) s .failed (s.enter w depth)
  | primitive {data : Bytes} {depth : Int} {s : State} {e : ElementHeader}
      (admitted : Admitted w s depth) (read : readHeader data = some e)
      (plain : ¬ e.tag &&& 0x20 ≠ 0) :
      Runs w (.element data depth) s (.returned (e.index + e.length : Nat)) (s.enter w depth)
  | constructed {data : Bytes} {depth : Int} {s s' : State} {e : ElementHeader}
      {ending : Ending Int} (admitted : Admitted w s depth) (read : readHeader data = some e)
      (structured : e.tag &&& 0x20 ≠ 0)
      (inner : Runs w (.loop data depth e.index (e.index + e.length)) (s.enter w depth)
        ending s') :
      Runs w (.element data depth) s ending s'
  | done {data : Bytes} {depth : Int} {s : State} {stop : Nat} :
      Runs w (.loop data depth stop stop) s (.returned stop) (s.log (.loopEnd stop stop))
  | round {data : Bytes} {depth : Int} {s s' s'' : State} {index stop consumed : Nat}
      {ending : Ending Int} (progress : 2 ≤ consumed) (within : index + consumed ≤ stop)
      (inner : Runs w (.element ((data.drop index).take (stop - index)) (wrap w (depth + 1))) s
        (.returned consumed) s')
      (rest : Runs w (.loop data depth (index + consumed) stop) (s'.log (.round consumed))
        ending s'') :
      Runs w (.loop data depth index stop) s ending s''
  | broken {data : Bytes} {depth : Int} {s s' : State} {index stop : Nat} (more : index < stop)
      (within : stop ≤ data.length)
      (inner : Runs w (.element ((data.drop index).take (stop - index)) (wrap w (depth + 1))) s
        .failed s') :
      Runs w (.loop data depth index stop) s .failed s'

/-- A call with this much fuel ends in an error or in its data, and is a derivation. -/
def ElementRuns (w : Width) (fuel : Nat) : Prop :=
  ∀ data depth s, Sliceable w data → data.length + 6 ≤ fuel →
    ∃ ending s', BerExecution.validateBERElement w fuel data depth s = (ending, s') ∧
      Runs w (.element data depth) s ending s' ∧
      (ending = .failed ∨
        ∃ stop : Nat, ending = .returned stop ∧ 2 ≤ stop ∧ stop ≤ data.length)

def LoopRuns (w : Width) (fuel : Nat) : Prop :=
  ∀ data depth (index stop : Nat) s, Sliceable w data → index ≤ stop → stop ≤ data.length →
    stop - index + 7 ≤ fuel →
    ∃ ending s', siblingLoop w fuel data depth index stop s = (ending, s') ∧
      Runs w (.loop data depth index stop) s ending s' ∧
      (ending = .failed ∨ ending = .returned stop)

section Derivations

variable {w : Width}

theorem element_runs {fuel : Nat} (loop : LoopRuns w fuel) : ElementRuns w (fuel + 1) := by
  intro data depth s sliceable enough
  have bound : (data.length : Int) < w.limit := sliceable
  have wide := w.le_limit
  rw [BerExecution.validateBERElement]
  by_cases outside : depth > 32 ∨ (s.enter w depth).nodes > 4096 ∨ data.length < 2
  · refine ⟨.failed, s.enter w depth, if_pos outside, .refused ?_, Or.inl rfl⟩
    rintro ⟨shallow, few⟩
    by_contra found
    obtain ⟨e, read⟩ := Option.ne_none_iff_exists'.mp found
    have bounds := readHeader_bounds read
    omega
  · have admitted : Admitted w s depth := ⟨by omega, by omega⟩
    have long : 2 ≤ data.length := by omega
    have some_data : data ≠ [] := List.ne_nil_of_length_pos (by omega)
    dsimp only
    rw [if_neg outside, elementHeader_eq sliceable some_data (by omega)]
    cases read : readHeader data with
    | none => exact ⟨_, _, rfl, .refused fun _ => read, Or.inl rfl⟩
    | some e =>
      have bounds := readHeader_bounds read
      have stop : wrap w ((e.index : Int) + e.length) = (e.index + e.length : Nat) := by
        rw [wrap_of_fits] <;> omega
      simp only [Option.map_some, Ending.ofOption_some, stop]
      by_cases structured : e.tag &&& 0x20 ≠ 0
      · rw [if_pos structured]
        obtain ⟨ending, s', ran, inner, ends⟩ :=
          loop data depth e.index (e.index + e.length) (s.enter w depth) sliceable (by omega)
            (by omega) (by omega)
        refine ⟨ending, s', ran, .constructed admitted read structured inner, ?_⟩
        rcases ends with failed | returned
        · exact Or.inl failed
        · exact Or.inr ⟨e.index + e.length, returned, by omega, by omega⟩
      · rw [if_neg structured]
        exact ⟨_, _, rfl, .primitive admitted read structured,
          Or.inr ⟨e.index + e.length, rfl, by omega, by omega⟩⟩

theorem loop_runs {fuel : Nat} (element : ElementRuns w fuel) (loop : LoopRuns w fuel) :
    LoopRuns w (fuel + 1) := by
  intro data depth index stop s sliceable before inside enough
  have bound : (data.length : Int) < w.limit := sliceable
  have wide := w.le_limit
  rw [siblingLoop]
  by_cases more : index < stop
  · have window : slice data index stop = some ((data.drop index).take (stop - index)) := by
      have cut := @slice_natCast data index (stop - index) (by omega)
      rwa [Nat.add_sub_cancel' before] at cut
    have length : ((data.drop index).take (stop - index)).length = stop - index := by
      rw [List.length_take, List.length_drop]
      omega
    obtain ⟨ending, s', ran, inner, ends⟩ :=
      element ((data.drop index).take (stop - index)) (wrap w (depth + 1)) s
        (by rw [Sliceable]; omega) (by omega)
    rw [if_pos (by omega), window]
    dsimp only
    rw [ran]
    rcases ends with rfl | ⟨consumed, rfl, progress, within⟩
    · exact ⟨_, _, rfl, .broken more inside inner, Or.inl rfl⟩
    · have next : wrap w ((index : Int) + consumed) = (index + consumed : Nat) := by
        rw [wrap_of_fits] <;> omega
      obtain ⟨ending, s'', ran', rest, ends⟩ :=
        loop data depth (index + consumed) stop (s'.log (.round consumed)) sliceable (by omega)
          inside (by omega)
      dsimp only
      rw [next]
      exact ⟨ending, s'', ran', .round progress (by omega) inner rest, ends⟩
  · obtain rfl : index = stop := by omega
    rw [if_neg (by omega)]
    exact ⟨_, _, rfl, .done, Or.inr rfl⟩

/-- Fuel in proportion to the data is enough. -/
theorem execution_runs (w : Width) (fuel : Nat) : ElementRuns w fuel ∧ LoopRuns w fuel := by
  induction fuel with
  | zero =>
    constructor
    · intro data depth s _ enough
      omega
    · intro data depth index stop s _ _ _ enough
      omega
  | succ fuel ih => exact ⟨element_runs ih.2, loop_runs ih.1 ih.2⟩

/-! ## What every derivation preserves -/

/-- A round consumes at least two bytes, and a loop ends at the end of its parent. -/
def Sound : Event → Prop
  | .call _ => True
  | .round consumed => 2 ≤ consumed
  | .loopEnd index stop => index = stop

variable {a : Activity} {s s' : State} {ending : Ending Int}

theorem Runs.sound (runs : Runs w a s ending s') :
    ∃ later, s'.events = s.events ++ later ∧ ∀ e ∈ later, Sound e := by
  induction runs with
  | @refused _ depth _ _ =>
    exact ⟨[.call depth], rfl, by simp [Sound]⟩
  | @primitive _ depth _ _ _ _ _ =>
    exact ⟨[.call depth], rfl, by simp [Sound]⟩
  | @constructed _ depth _ _ _ _ _ _ _ _ ih =>
    obtain ⟨later, events, sound⟩ := ih
    refine ⟨.call depth :: later, ?_, ?_⟩
    · rw [events, State.enter, List.append_assoc, List.singleton_append]
    · intro e mem
      rcases List.mem_cons.mp mem with rfl | mem
      · trivial
      · exact sound e mem
  | @done _ _ _ stop =>
    exact ⟨[.loopEnd stop stop], rfl, by simp [Sound]⟩
  | @round _ _ _ _ _ _ _ consumed _ progress _ _ _ ih ih' =>
    obtain ⟨first, events, sound⟩ := ih
    obtain ⟨later, events', sound'⟩ := ih'
    refine ⟨first ++ .round consumed :: later, ?_, ?_⟩
    · rw [events', State.log, events]
      simp
    · intro e mem
      rcases List.mem_append.mp mem with mem | mem
      · exact sound e mem
      · rcases List.mem_cons.mp mem with rfl | mem
        · have exact : (2 : Int) ≤ consumed := by omega
          exact exact
        · exact sound' e mem
  | broken _ _ _ ih => exact ih

theorem nodes_enter (start : 0 ≤ s.nodes) (few : s.nodes ≤ 4096) (depth : Int) :
    (s.enter w depth).nodes = s.nodes + 1 := by
  have wide := w.le_limit
  exact wrap_of_fits (by omega) (by omega)

/-- The counter has counted the calls, and none of them was too deep. -/
structure Counted (s : State) : Prop where
  count : s.nodes = (callDepths s.events).length
  shallow : ∀ depth ∈ callDepths s.events, depth ≤ 33

theorem Counted.enter (counted : Counted s) (few : s.nodes ≤ 4096) {depth : Int}
    (shallow : depth ≤ 33) :
    Counted (s.enter w depth) ∧ (s.enter w depth).nodes = s.nodes + 1 := by
  have count := counted.count
  have next : (s.enter w depth).nodes = s.nodes + 1 := nodes_enter (by omega) few depth
  have depths : callDepths (s.enter w depth).events = callDepths s.events ++ [depth] := by
    simp [State.enter, callDepths]
  refine ⟨⟨?_, ?_⟩, next⟩
  · rw [next, depths, List.length_append, List.length_singleton]
    omega
  · intro d mem
    rw [depths, List.mem_append, List.mem_singleton] at mem
    rcases mem with mem | rfl
    · exact counted.shallow d mem
    · exact shallow

theorem Counted.log (counted : Counted s) {e : Event} (other : ∀ depth, e ≠ .call depth) :
    Counted (s.log e) := by
  have depths : callDepths (s.log e).events = callDepths s.events := by
    cases e with
    | call depth => exact absurd rfl (other depth)
    | round consumed => simp [State.log, callDepths]
    | loopEnd index stop => simp [State.log, callDepths]
  exact ⟨by rw [depths]; exact counted.count, by rw [depths]; exact counted.shallow⟩

/-- The depth an activity works at, when the calls it makes are within the limit. -/
def Activity.Shallow : Activity → Prop
  | .element _ depth => 0 ≤ depth ∧ depth ≤ 33
  | .loop _ depth _ _ => 0 ≤ depth ∧ depth ≤ 32

/-- One call beyond the limit on calls ends everything. -/
theorem Runs.counted (runs : Runs w a s ending s') (shallow : a.Shallow) (counted : Counted s)
    (few : s.nodes ≤ 4096) :
    Counted s' ∧ s'.nodes ≤ 4097 ∧ (ending ≠ .failed → s'.nodes ≤ 4096) := by
  have wide := w.le_limit
  induction runs with
  | refused _ =>
    obtain ⟨after, next⟩ := counted.enter few shallow.2
    exact ⟨after, by omega, fun other => absurd rfl other⟩
  | primitive admitted _ _ =>
    obtain ⟨after, next⟩ := counted.enter few shallow.2
    exact ⟨after, by omega, fun _ => admitted.2⟩
  | constructed admitted _ _ _ ih =>
    obtain ⟨after, next⟩ := counted.enter few shallow.2
    exact ih ⟨shallow.1, admitted.1⟩ after admitted.2
  | done =>
    refine ⟨counted.log (by simp), ?_, fun _ => few⟩
    exact few.trans (by decide)
  | @round _ depth _ _ _ _ _ _ _ _ _ _ _ ih ih' =>
    have low := shallow.1
    have high := shallow.2
    have deeper : wrap w (depth + 1) = depth + 1 := by
      rw [wrap_of_fits] <;> omega
    obtain ⟨after, _, within⟩ := ih ⟨by omega, by omega⟩ counted few
    exact ih' shallow (after.log (by simp)) (within (by simp))
  | @broken _ depth _ _ _ _ _ _ _ ih =>
    have low := shallow.1
    have high := shallow.2
    have deeper : wrap w (depth + 1) = depth + 1 := by
      rw [wrap_of_fits] <;> omega
    exact ih ⟨by omega, by omega⟩ counted few

/-! ## Agreement with the validator over natural numbers -/

theorem Runs.nodes (runs : Runs w a s ending s') (start : 0 ≤ s.nodes) (few : s.nodes ≤ 4096) :
    0 ≤ s'.nodes ∧ (ending ≠ .failed → s'.nodes ≤ 4096) := by
  induction runs with
  | @refused _ depth _ _ =>
    have next := nodes_enter (w := w) start few depth
    exact ⟨by omega, fun other => absurd rfl other⟩
  | @primitive _ depth _ _ admitted _ _ =>
    have next := nodes_enter (w := w) start few depth
    exact ⟨by omega, fun _ => admitted.2⟩
  | @constructed _ depth _ _ _ _ admitted _ _ _ ih =>
    have next := nodes_enter (w := w) start few depth
    exact ih (by omega) admitted.2
  | done => exact ⟨start, fun _ => few⟩
  | round _ _ _ _ ih ih' =>
    obtain ⟨low, high⟩ := ih start few
    exact ih' low (high (by simp))
  | broken _ _ _ ih => exact ih start few

/-- The two validators end alike, with the same count. -/
def Activity.Agrees (s : State) (ending : Ending Int) (s' : State) : Activity → Prop
  | .element data depth => ∀ d n : Nat, depth = d → s.nodes = n → n ≤ 4096 →
      (ending = .failed ∧
        BerFraming.validateBERElement data d n = (.error errInvalidFrame, s'.nodes.toNat)) ∨
      ∃ stop, ending = .returned (stop.val : Nat) ∧
        BerFraming.validateBERElement data d n = (.ok stop, s'.nodes.toNat)
  | .loop data depth index stop => ∀ d n : Nat, depth = d → d ≤ 32 → s.nodes = n → n ≤ 4096 →
      (ending = .failed ∧
        validateBERContents ((data.drop index).take (stop - index)) d n =
          (.error errInvalidFrame, s'.nodes.toNat)) ∨
      (ending = .returned stop ∧
        validateBERContents ((data.drop index).take (stop - index)) d n =
          (.ok (), s'.nodes.toNat))

theorem enter_natCast {n : Nat} (start : s.nodes = n) (few : n ≤ 4096) (depth : Int) :
    (s.enter w depth).nodes = (n + 1 : Nat) := by
  have next := nodes_enter (w := w) (s := s) (by omega) (by omega) depth
  omega

/-- A call that is not admitted or has no header fails, having counted itself. -/
theorem element_refused {data : Bytes} {d n : Nat}
    (reason : d ≤ 32 ∧ n + 1 ≤ 4096 → readHeader data = none) :
    BerFraming.validateBERElement data d n = (.error errInvalidFrame, n + 1) := by
  rw [BerFraming.validateBERElement]
  by_cases outside : d > 32 ∨ n + 1 > 4096 ∨ data.length < 2
  · exact if_pos outside
  · rw [if_neg outside]
    split
    · rfl
    · rename_i e read
      rw [reason ⟨by omega, by omega⟩] at read
      cases read

theorem element_of_failed {data : Bytes} {e : ElementHeader} {d n n' : Nat} {err : IoError}
    (read : readHeader data = some e) (deep : d ≤ 32) (count : n + 1 ≤ 4096)
    (structured : e.tag &&& 0x20 ≠ 0)
    (inner : validateBERContents ((data.drop e.index).take e.length) d (n + 1) =
      (.error err, n')) :
    BerFraming.validateBERElement data d n = (.error err, n') := by
  have bounds := readHeader_bounds read
  rw [BerFraming.validateBERElement, if_neg (by omega)]
  split
  · rename_i none_read
    rw [read] at none_read
    cases none_read
  · rename_i e' read'
    obtain rfl : e = e' := Option.some.inj (read.symm.trans read')
    rw [if_pos structured, inner]

theorem deeper_natCast (w : Width) {d : Nat} (deep : d ≤ 32) :
    wrap w ((d : Int) + 1) = (d + 1 : Nat) := by
  have wide := w.le_limit
  rw [wrap_of_fits] <;> omega

theorem contents_of_failed {data : Bytes} {d n n' : Nat} {err : IoError} (more : data.length ≠ 0)
    (failed : BerFraming.validateBERElement data (d + 1) n = (.error err, n')) :
    validateBERContents data d n = (.error err, n') := by
  rw [validateBERContents, if_neg more, failed]

theorem Runs.agrees (runs : Runs w a s ending s') : a.Agrees s ending s' := by
  induction runs with
  | @refused _ depth _ reason =>
    rintro d n rfl start few
    have next := enter_natCast (w := w) start few d
    refine Or.inl ⟨rfl, ?_⟩
    rw [next, Int.toNat_natCast]
    apply element_refused
    intro inside
    exact reason ⟨by omega, by omega⟩
  | @primitive data depth _ e admitted read plain =>
    rintro d n rfl start few
    have next := enter_natCast (w := w) start few d
    have low := admitted.1
    have high := admitted.2
    obtain ⟨stop, accepted, position⟩ : ∃ stop, BerFraming.validateBERElement data d n =
        (.ok stop, n + 1) ∧ stop.val = e.index + e.length :=
      element_of_primitive read (by omega) (by omega) plain
    exact Or.inr ⟨stop, by rw [position], by rw [next, Int.toNat_natCast]; exact accepted⟩
  | @constructed data depth _ s' e _ admitted read structured _ ih =>
    rintro d n rfl start few
    have next := enter_natCast (w := w) start few d
    have low := admitted.1
    have high := admitted.2
    rcases ih d (n + 1) rfl (by omega) next (by omega) with ⟨rfl, failed⟩ | ⟨rfl, passed⟩
    · rw [Nat.add_sub_cancel_left] at failed
      exact Or.inl ⟨rfl, element_of_failed read (by omega) (by omega) structured failed⟩
    · rw [Nat.add_sub_cancel_left] at passed
      obtain ⟨stop, accepted, position⟩ : ∃ stop, BerFraming.validateBERElement data d n =
          (.ok stop, s'.nodes.toNat) ∧ stop.val = e.index + e.length :=
        element_of_constructed read (by omega) (by omega) structured passed
      exact Or.inr ⟨stop, by rw [position], accepted⟩
  | done =>
    rintro d n rfl _ start _
    refine Or.inr ⟨rfl, ?_⟩
    rw [Nat.sub_self, List.take_zero, validateBERContents, if_pos List.length_nil]
    simp only [State.log, start, Int.toNat_natCast]
  | @round data _ _ s' _ index stop consumed _ progress within inner _ ih ih' =>
    rintro d n rfl deep start few
    obtain ⟨low, high⟩ := inner.nodes (by omega) (by omega)
    have bound := high (by simp)
    rcases ih (d + 1) n (deeper_natCast w deep) start few with
      ⟨broken, _⟩ | ⟨stop', returned, accepted⟩
    · cases broken
    · obtain rfl : consumed = stop'.val := by
        injection returned with same
        exact_mod_cast same
      have remaining : ((data.drop index).take (stop - index)).drop stop'.val =
          (data.drop (index + stop'.val)).take (stop - (index + stop'.val)) := by
        rw [List.drop_take, List.drop_drop, Nat.sub_sub]
      rw [Activity.Agrees] at ih'
      have later := ih' d s'.nodes.toNat rfl deep (by simp only [State.log]; omega) (by omega)
      rwa [← remaining, ← contents_after accepted] at later
  | @broken data _ _ _ index stop more within _ ih =>
    rintro d n rfl deep start few
    rcases ih (d + 1) n (deeper_natCast w deep) start few with ⟨_, failed⟩ | ⟨_, returned, _⟩
    · have window : ((data.drop index).take (stop - index)).length ≠ 0 := by
        rw [List.length_take, List.length_drop]
        omega
      exact Or.inl ⟨rfl, contents_of_failed window failed⟩
    · cases returned

end Derivations

/-! ## Whole frames -/

section Frames

variable {w : Width} {fuel : Nat} {frame : Bytes}

theorem sliceable_of_mebibyte (small : frame.length ≤ 2 ^ 20) : Sliceable w frame := by
  have wide := w.le_limit
  rw [Sliceable]
  omega

/-- A frame is refused before any call, or by what its one outermost call returns. -/
theorem frame_cases (small : frame.length ≤ 2 ^ 20) (enough : frame.length + 6 ≤ fuel) :
    (BerExecution.validateBERFrame w fuel frame = (.failed, ⟨0, []⟩) ∧
      BerFraming.validateBERFrame frame = .error errInvalidFrame) ∨
    ∃ ending s', Runs w (.element frame 0) ⟨0, []⟩ ending s' ∧
      ((ending = .returned frame.length ∧
          BerExecution.validateBERFrame w fuel frame = (.returned (), s') ∧
          BerFraming.validateBERFrame frame = .ok ()) ∨
        (BerExecution.validateBERFrame w fuel frame = (.failed, s') ∧
          BerFraming.validateBERFrame frame = .error errInvalidFrame)) := by
  rw [BerExecution.validateBERFrame, BerFraming.validateBERFrame]
  by_cases size : frame.length < 2 ∨ frame.length > 1 <<< 20
  · exact Or.inl ⟨if_pos size, if_pos (by tauto)⟩
  · obtain ⟨first, rest, rfl⟩ := List.exists_cons_of_length_pos (l := frame) (by omega)
    rw [if_neg size, load_cons_zero, List.getElem?_cons_zero]
    by_cases other : first ≠ 0x30
    · refine Or.inl ⟨if_pos other, if_pos ?_⟩
      exact Or.inr (Or.inr fun same => other (Option.some.inj same))
    · have passed : ¬ ((first :: rest).length < 2 ∨ (first :: rest).length > 1 <<< 20 ∨
          some first ≠ some 0x30) := by
        rintro (short | long | different)
        · exact size (Or.inl short)
        · exact size (Or.inr long)
        · exact different (congrArg some (not_not.mp other))
      rw [if_neg passed]
      dsimp only
      rw [if_neg other]
      obtain ⟨ending, s', ran, runs, _⟩ := (execution_runs w fuel).1 (first :: rest) 0 ⟨0, []⟩
        (sliceable_of_mebibyte small) enough
      refine Or.inr ⟨ending, s', runs, ?_⟩
      rw [ran]
      rcases runs.agrees 0 0 rfl rfl (by decide) with ⟨rfl, failed⟩ | ⟨stop, rfl, accepted⟩
      · rw [failed]
        exact Or.inr ⟨rfl, rfl⟩
      · rw [accepted]
        dsimp only
        by_cases whole : stop.val = (first :: rest).length
        · have whole' : ((stop.val : Nat) : Int) = ((first :: rest).length : Nat) := by omega
          rw [if_neg (not_not.mpr whole'), if_neg (not_not.mpr whole)]
          exact Or.inl ⟨by rw [whole'], rfl, rfl⟩
        · have partly : ((stop.val : Nat) : Int) ≠ ((first :: rest).length : Nat) := by omega
          rw [if_pos partly, if_pos whole]
          exact Or.inr ⟨rfl, rfl⟩

/-- The execution decides what the validator over natural numbers decides. -/
theorem execution_agrees (small : frame.length ≤ 2 ^ 20) (enough : frame.length + 6 ≤ fuel) :
    (BerExecution.validateBERFrame w fuel frame).1 = .returned () ↔
      BerFraming.validateBERFrame frame = .ok () := by
  rcases frame_cases (w := w) small enough with
    ⟨ran, exact⟩ | ⟨_, _, _, ⟨_, ran, exact⟩ | ⟨ran, exact⟩⟩
  · simp [ran, exact]
  · simp [ran, exact]
  · simp [ran, exact]

theorem frame_counted (small : frame.length ≤ 2 ^ 20) (enough : frame.length + 6 ≤ fuel) :
    let out := BerExecution.validateBERFrame w fuel frame
    (out.1 = .failed ∨ out.1 = .returned ()) ∧ Counted out.2 ∧ out.2.nodes ≤ 4097 := by
  have fresh : Counted ⟨0, []⟩ := ⟨rfl, by simp [callDepths]⟩
  rcases frame_cases (w := w) small enough with ⟨ran, _⟩ | ⟨ending, s', runs, result⟩
  · rw [ran]
    exact ⟨Or.inl rfl, fresh, by decide⟩
  · obtain ⟨counted, few, _⟩ := runs.counted ⟨by decide, by decide⟩ fresh (by decide)
    rcases result with ⟨_, ran, _⟩ | ⟨ran, _⟩
    · rw [ran]
      exact ⟨Or.inr rfl, counted, few⟩
    · rw [ran]
      exact ⟨Or.inl rfl, counted, few⟩

end Frames

/-- On every platform and for every data, depth and count, the validator ends without a panic,
a success ends within the data, each round of a sibling loop moves on, and each loop ends where
its parent does. A frame costs at most 4097 calls, none deeper than 33. -/
theorem recursion_bounded (w : Width) :
    (∀ (data : Bytes) (depth : Int) (s : State) (fuel : Nat), Sliceable w data →
      data.length + 6 ≤ fuel →
      let out := BerExecution.validateBERElement w fuel data depth s
      (out.1 = .failed ∨ ∃ stop : Int, out.1 = .returned stop ∧ 2 ≤ stop ∧ stop ≤ data.length) ∧
      ∃ later, out.2.events = s.events ++ later ∧ ∀ e ∈ later, Sound e) ∧
    ∀ (frame : Bytes) (fuel : Nat), frame.length ≤ 2 ^ 20 → frame.length + 6 ≤ fuel →
      let out := BerExecution.validateBERFrame w fuel frame
      (out.1 = .failed ∨ out.1 = .returned ()) ∧
      (callDepths out.2.events).length ≤ 4097 ∧
      ∀ depth ∈ callDepths out.2.events, depth ≤ 33 := by
  constructor
  · intro data depth s fuel sliceable enough
    obtain ⟨ending, s', ran, runs, ends⟩ := (execution_runs w fuel).1 data depth s sliceable enough
    rw [ran]
    refine ⟨?_, runs.sound⟩
    rcases ends with failed | ⟨stop, returned, progress, within⟩
    · exact Or.inl failed
    · exact Or.inr ⟨stop, returned, by omega, by omega⟩
  · intro frame fuel small enough
    obtain ⟨ends, counted, few⟩ := frame_counted (w := w) small enough
    refine ⟨ends, ?_, counted.shallow⟩
    have count := counted.count
    omega

/-- An octet string behind a counter about to overflow, and a sequence of two integers: three
calls, at depths 0, 1 and 1. -/
theorem recursion_bounded_pair :
    (BerExecution.validateBERElement width32 10 [4, 1, 9, 0] (-5) ⟨2147483647, []⟩ =
      (.returned 3, ⟨-2147483648, [.call (-5)]⟩) ∧ ∀ e ∈ [Event.call (-5)], Sound e) ∧
    (BerExecution.validateBERFrame width32 14 [0x30, 6, 2, 1, 1, 2, 1, 7]).1 = .returned () ∧
      callDepths (BerExecution.validateBERFrame width32 14 [0x30, 6, 2, 1, 1, 2, 1, 7]).2.events =
        [0, 1, 1] ∧ [(0 : Int), 1, 1].length ≤ 4097 := by
  have ran : BerExecution.validateBERElement width32 10 [4, 1, 9, 0] (-5) ⟨2147483647, []⟩ =
      (.returned 3, ⟨-2147483648, [.call (-5)]⟩) := by decide +kernel
  have depths : callDepths
      (BerExecution.validateBERFrame width32 14 [0x30, 6, 2, 1, 1, 2, 1, 7]).2.events =
        [0, 1, 1] := by decide +kernel
  obtain ⟨_, later, events, sound⟩ := (recursion_bounded width32).1 [4, 1, 9, 0] (-5)
    ⟨2147483647, []⟩ 10 (by decide) (by decide)
  obtain ⟨_, few, _⟩ := (recursion_bounded width32).2 [0x30, 6, 2, 1, 1, 2, 1, 7] 14 (by decide)
    (by decide)
  rw [ran, List.nil_append] at events
  obtain rfl : [Event.call (-5)] = later := events
  rw [depths] at few
  exact ⟨⟨ran, sound⟩, by decide +kernel, depths, few⟩

end BerResources
