import StumpfworksFramework.BerFraming

/-!
# The validator accepts exactly the bounded grammar

Header reading is inverted first, separately for the tag octets and the length
field. The recursion is then followed in both directions: an accepted element
yields a tree at the front of the data, and a tree within the limits is
accepted in front of any further octets. The shared node counter advances by
the size of the tree in both.
-/

namespace BerAcceptance

open ByteStrings BerGrammar BerFraming

theorem readHighTag_sound {data : Bytes} {left index next : Nat}
    (h : readHighTag data left index = some next) :
    ∃ more last, data.drop index = more ++ last :: data.drop next ∧
      next = index + more.length + 1 ∧ more.length < left ∧
      (∀ b ∈ more, b &&& 0x80 ≠ 0) ∧ last &&& 0x80 = 0 := by
  induction left generalizing index with
  | zero => cases h
  | succ left ih =>
    simp only [readHighTag] at h
    split at h
    · cases h
    · rename_i value hvalue
      have hdrop := getElem?_eq_some_iff_drop.mp hvalue
      split at h
      · rename_i clear
        cases h
        exact ⟨[], value, hdrop, rfl, by simp, by simp, clear⟩
      · rename_i high
        obtain ⟨more, last, hrest, hnext, hlen, hmore, hlast⟩ := ih h
        refine ⟨value :: more, last, by rw [hdrop, hrest]; rfl, ?_, ?_, ?_, hlast⟩
        · simp only [List.length_cons]; omega
        · simp only [List.length_cons]; omega
        · intro b hb
          rcases List.mem_cons.mp hb with rfl | hb
          · exact high
          · exact hmore b hb

theorem readHighTag_complete {data more rest : Bytes} {last : UInt8} {left index : Nat}
    (split : data.drop index = more ++ last :: rest) (short : more.length < left)
    (high : ∀ b ∈ more, b &&& 0x80 ≠ 0) (clear : last &&& 0x80 = 0) :
    readHighTag data left index = some (index + more.length + 1) := by
  induction left generalizing index more with
  | zero => omega
  | succ left ih =>
    cases more with
    | nil =>
      have hlast : data[index]? = some last := by rw [← List.head?_drop, split]; rfl
      simp [readHighTag, hlast, clear]
    | cons b more =>
      have hb : data[index]? = some b := by rw [← List.head?_drop, split]; rfl
      have tail : data.drop (index + 1) = more ++ last :: rest := by
        rw [← List.tail_drop, split]; rfl
      have next := ih tail (by simpa using short) (fun c hc => high c (List.mem_cons_of_mem b hc))
      simp only [readHighTag, hb, if_neg (high b List.mem_cons_self), next, List.length_cons]
      congr 1
      omega

theorem shift_or (length : Nat) (value : UInt8) :
    length <<< 8 ||| value.toNat = length * 256 + value.toNat := by
  rw [← Nat.shiftLeft_add_eq_or_of_lt value.toNat_lt, Nat.shiftLeft_eq]

theorem decodeLength_sound {length n : Nat} {octets : Bytes}
    (h : decodeLength length octets = some n) : n = extendBigEndian length octets := by
  induction octets generalizing length with
  | nil => cases h; rfl
  | cons value rest ih =>
    simp only [decodeLength] at h
    split at h
    · cases h
    · rw [shift_or] at h
      exact ih h

/-- Values up to one mebibyte never meet the bound before a shift. -/
theorem decodeLength_complete {length : Nat} {octets : Bytes}
    (small : extendBigEndian length octets ≤ 1 <<< 20) :
    decodeLength length octets = some (extendBigEndian length octets) := by
  induction octets generalizing length with
  | nil => rfl
  | cons value rest ih =>
    have grows := le_extendBigEndian (length * 256 + value.toNat) rest
    change extendBigEndian (length * 256 + value.toNat) rest ≤ 1 <<< 20 at small
    have bound : ¬ length > (1 <<< 20) >>> 8 := by
      norm_num at small ⊢
      omega
    rw [decodeLength, if_neg bound, shift_or]
    exact ih small

theorem long_form_octet (k : Nat) (short : k ≤ 4) :
    UInt8.ofNat (0x80 + k) &&& 0x80 ≠ 0 ∧ (UInt8.ofNat (0x80 + k) &&& 0x7f).toNat = k := by
  have all : ∀ k, k < 5 → UInt8.ofNat (0x80 + k) &&& 0x80 ≠ 0 ∧
      (UInt8.ofNat (0x80 + k) &&& 0x7f).toNat = k := by decide
  exact all k (by omega)

theorem octet_of_long_form (b : UInt8) (long : b &&& 0x80 ≠ 0) :
    b = UInt8.ofNat (0x80 + (b &&& 0x7f).toNat) := by
  revert b
  exact forall_octet (by decide +kernel)

theorem high_bit_clear_iff (b : UInt8) : b &&& 0x80 = 0 ↔ b < 0x80 := by
  revert b
  exact forall_octet (by decide +kernel)

theorem readTag_sound {data : Bytes} {tag : UInt8} {index : Nat}
    (h : readTag data = some (tag, index)) :
    ∃ tail, TagTail tag tail ∧ data = tag :: (tail ++ data.drop index) ∧
      index = 1 + tail.length := by
  simp only [readTag] at h
  split at h
  · cases h
  · rename_i first hfirst
    have hdata := getElem?_eq_some_iff_drop.mp hfirst
    simp only [List.drop_zero, Nat.zero_add] at hdata
    split at h
    · rename_i long
      obtain ⟨next, hnext, heq⟩ := Option.map_eq_some_iff.mp h
      cases heq
      obtain ⟨more, last, hdrop, hindex, hlen, high, clear⟩ := readHighTag_sound hnext
      refine ⟨more ++ [last], ?_, ?_, ?_⟩
      · rw [TagTail, if_pos long]
        exact ⟨more, last, rfl, by omega, high, clear⟩
      · rw [List.append_assoc, List.singleton_append, ← hdrop]
        exact hdata
      · rw [List.length_append, List.length_singleton]
        omega
    · rename_i short
      cases h
      exact ⟨[], by rw [TagTail, if_neg short], hdata, rfl⟩

theorem readTag_complete {tag : UInt8} {tail : Bytes} (rest : Bytes) (shape : TagTail tag tail) :
    readTag (tag :: (tail ++ rest)) = some (tag, 1 + tail.length) := by
  by_cases long : tag &&& 0x1f = 0x1f
  · rw [TagTail, if_pos long] at shape
    obtain ⟨more, last, rfl, hlen, high, clear⟩ := shape
    have tail : (tag :: (more ++ [last] ++ rest)).drop 1 = more ++ last :: rest := by simp
    have read : readHighTag (tag :: (more ++ [last] ++ rest)) 5 1 = some (1 + more.length + 1) :=
      readHighTag_complete tail (by omega) high clear
    simp only [readTag, List.getElem?_cons_zero, if_pos long, read, Option.map_some,
      List.length_append, List.length_singleton]
    rfl
  · rw [TagTail, if_neg long] at shape
    subst shape
    simp only [readTag, List.getElem?_cons_zero, if_neg long, List.length_nil]

theorem readLength_sound {data : Bytes} {index next length : Nat}
    (h : readLength data index = some (next, length)) :
    ∃ field, LengthField field length ∧ data.drop index = field ++ data.drop next ∧
      next = index + field.length := by
  simp only [readLength] at h
  split at h
  · cases h
  · rename_i first hfirst
    have hdrop := getElem?_eq_some_iff_drop.mp hfirst
    split at h
    · rename_i long
      split at h
      · cases h
      · rename_i bounds
        obtain ⟨n, hn, heq⟩ := Option.map_eq_some_iff.mp h
        cases heq
        have hwidth : ((data.drop (index + 1)).take (first &&& 0x7f).toNat).length =
            (first &&& 0x7f).toNat := by
          rw [List.length_take, List.length_drop]
          omega
        refine ⟨first :: (data.drop (index + 1)).take (first &&& 0x7f).toNat, ?_, ?_, ?_⟩
        · refine Or.inr ⟨_, ?_, ?_, ?_, decodeLength_sound hn⟩
          · omega
          · omega
          · rw [hwidth, ← octet_of_long_form first long]
        · rw [hdrop, List.cons_append,
            ← List.drop_drop (i := (first &&& 0x7f).toNat) (j := index + 1), List.take_append_drop]
        · rw [List.length_cons, hwidth]
          omega
    · rename_i short
      cases h
      have clear : first &&& 0x80 = 0 := Decidable.not_not.mp short
      exact ⟨[first], Or.inl ⟨first, (high_bit_clear_iff first).mp clear, rfl, rfl⟩, hdrop, rfl⟩

theorem readLength_complete {data field rest : Bytes} {index length : Nat}
    (shape : LengthField field length) (small : length ≤ 1 <<< 20)
    (split : data.drop index = field ++ rest) :
    readLength data index = some (index + field.length, length) := by
  rcases shape with ⟨octet, below, rfl, rfl⟩ | ⟨octets, low, high, rfl, rfl⟩
  · have first : data[index]? = some octet := by rw [← List.head?_drop, split]; rfl
    have clear : ¬ octet &&& 0x80 ≠ 0 := by simpa using (high_bit_clear_iff octet).mpr below
    simp only [readLength, first, if_neg clear, List.length_singleton]
  · obtain ⟨long, width⟩ := long_form_octet octets.length high
    have first : data[index]? = some (UInt8.ofNat (0x80 + octets.length)) := by
      rw [← List.head?_drop, split]; rfl
    have tail : data.drop (index + 1) = octets ++ rest := by
      rw [← List.tail_drop, split]; rfl
    have room : octets.length ≤ data.length - (index + 1) := by
      rw [← List.length_drop, tail, List.length_append]
      omega
    have bounds : ¬ (octets.length < 1 ∨ octets.length > 4 ∨
        index + 1 + octets.length > data.length) := by omega
    simp only [readLength, first, if_pos long, width, if_neg bounds, tail,
      List.take_left, List.length_cons]
    rw [decodeLength_complete small, Option.map_some, Nat.add_right_comm]
    rfl

/-- A header that was read is well formed and is followed by its content. -/
theorem readHeader_sound {data : Bytes} {e : ElementHeader} (read : readHeader data = some e) :
    ∃ h : Header, h.Announces e.length ∧ h.tag = e.tag ∧ h.octets.length = e.index ∧
      data = h.octets ++ data.drop e.index ∧ e.length ≤ (data.drop e.index).length := by
  simp only [readHeader] at read
  split at read
  · cases read
  · rename_i tag index htag
    split at read
    · cases read
    · rename_i next length hlength
      split at read
      · cases read
      · rename_i fits
        cases read
        obtain ⟨tail, tagShape, hdata, hindex⟩ := readTag_sound htag
        obtain ⟨field, lengthShape, hdrop, hnext⟩ := readLength_sound hlength
        refine ⟨⟨tag, tail, field⟩, ⟨tagShape, lengthShape⟩, rfl, ?_, ?_, ?_⟩
        · simp only [Header.octets, List.length_cons, List.length_append]
          omega
        · rw [hdrop] at hdata
          simpa only [Header.octets, List.cons_append, List.append_assoc] using hdata
        · rw [List.length_drop]
          exact Nat.le_of_not_gt fits

theorem readHeader_complete {h : Header} {n : Nat} {rest : Bytes} (shape : h.Announces n)
    (small : n ≤ 1 <<< 20) (fits : n ≤ rest.length) :
    readHeader (h.octets ++ rest) = some ⟨h.tag, h.octets.length, n⟩ := by
  have unfolded : h.octets ++ rest = h.tag :: (h.tagTail ++ (h.lengthField ++ rest)) := by
    simp only [Header.octets, List.cons_append, List.append_assoc]
  have tag := readTag_complete (h.lengthField ++ rest) shape.tag
  have length : readLength (h.tag :: (h.tagTail ++ (h.lengthField ++ rest)))
      (1 + h.tagTail.length) = some (1 + h.tagTail.length + h.lengthField.length, n) :=
    readLength_complete shape.length small (by
      rw [Nat.add_comm, List.drop_succ_cons, List.drop_left])
  have size : h.octets.length = 1 + h.tagTail.length + h.lengthField.length := by
    simp only [Header.octets, List.length_cons, List.length_append]
    omega
  have total : (h.octets ++ rest).length = h.octets.length + rest.length := List.length_append
  rw [unfolded] at total ⊢
  simp only [readHeader, tag, length]
  rw [if_neg (by omega), size]

/-- Everything a successful element did. -/
theorem element_ok {data : Bytes} {depth nodes nodes' : Nat} {stop : End data}
    (accepted : validateBERElement data depth nodes = (.ok stop, nodes')) :
    ∃ e, readHeader data = some e ∧ depth ≤ 32 ∧ nodes + 1 ≤ 4096 ∧
      stop.val = e.index + e.length ∧
      ((e.tag &&& 0x20 ≠ 0 ∧
          validateBERContents ((data.drop e.index).take e.length) depth (nodes + 1) =
            (.ok (), nodes')) ∨
        (¬ e.tag &&& 0x20 ≠ 0 ∧ nodes' = nodes + 1)) := by
  rw [validateBERElement] at accepted
  split at accepted
  · cases accepted
  · rename_i limits
    split at accepted
    · cases accepted
    · rename_i e read
      split at accepted
      · rename_i structured
        split at accepted
        · cases accepted
        · rename_i inner
          cases accepted
          exact ⟨e, read, by omega, by omega, rfl, Or.inl ⟨structured, inner⟩⟩
      · rename_i plain
        cases accepted
        exact ⟨e, read, by omega, by omega, rfl, Or.inr ⟨plain, rfl⟩⟩

/-- What one successful element says, as a tree at the front of the data. -/
def ElementSound (data : Bytes) : Prop :=
  ∀ depth nodes stop nodes', validateBERElement data depth nodes = (.ok stop, nodes') →
    ∃ t : Tree, t.WellFormed ∧ t.encode = data.take stop.val ∧ t.DepthWithin 32 depth ∧
      nodes' = nodes + t.size ∧ nodes' ≤ 4096

def ContentsSound (data : Bytes) : Prop :=
  ∀ depth nodes nodes', nodes ≤ 4096 → validateBERContents data depth nodes = (.ok (), nodes') →
    ∃ ts : List Tree, Tree.AllWellFormed ts ∧ Tree.encodeAll ts = data ∧
      Tree.AllWithin 32 (depth + 1) ts ∧ nodes' = nodes + Tree.sizeAll ts ∧ nodes' ≤ 4096

theorem element_sound_of_contents {data : Bytes}
    (inner : ∀ d : Bytes, d.length < data.length → ContentsSound d) : ElementSound data := by
  intro depth nodes stop nodes' h
  obtain ⟨e, read, deep, count, position, shape⟩ := element_ok h
  obtain ⟨hd, announces, htag, hsize, hdata, fits⟩ := readHeader_sound read
  have bounds := readHeader_bounds read
  have front : data.take stop.val = hd.octets ++ (data.drop e.index).take e.length := by
    rw [position, List.take_add]
    congr 1
    conv_lhs => rw [hdata]
    rw [← hsize, List.take_left]
  have content : ((data.drop e.index).take e.length).length = e.length := by
    rw [List.length_take]
    omega
  rcases shape with ⟨structured, hc⟩ | ⟨plain, rfl⟩
  · have shorter : ((data.drop e.index).take e.length).length < data.length := by omega
    obtain ⟨ts, wf, enc, within, total, bound⟩ :=
      inner _ shorter depth (nodes + 1) nodes' count hc
    refine ⟨.constructed hd ts, ⟨?_, ?_, wf⟩, ?_, ⟨deep, within⟩, ?_, bound⟩
    · rw [enc, content]
      exact announces
    · rw [Header.Constructed, htag]
      exact structured
    · rw [Tree.encode, enc]
      exact front.symm
    · rw [Tree.size]
      omega
  · refine ⟨.primitive hd ((data.drop e.index).take e.length), ⟨?_, ?_⟩, ?_, deep, rfl, count⟩
    · rw [content]
      exact announces
    · rw [Header.Constructed, htag]
      exact plain
    · rw [Tree.encode]
      exact front.symm

theorem contents_sound_of_element {data : Bytes} (self : ElementSound data)
    (inner : ∀ d : Bytes, d.length < data.length → ContentsSound d) : ContentsSound data := by
  intro depth nodes nodes' start h
  rw [validateBERContents] at h
  split at h
  · rename_i empty
    cases h
    exact ⟨[], trivial, (List.eq_nil_of_length_eq_zero empty).symm, trivial, rfl, start⟩
  · split at h
    · cases h
    · rename_i consumed nodes'' he
      obtain ⟨t, wf, enc, within, count, bound⟩ := self (depth + 1) nodes consumed nodes'' he
      have progress := consumed.property
      obtain ⟨ts, wfs, encs, withins, counts, bounds⟩ :=
        inner (data.drop consumed.val) (by rw [List.length_drop]; omega) depth nodes'' nodes'
          bound h
      refine ⟨t :: ts, ⟨wf, wfs⟩, ?_, ⟨within, withins⟩, ?_, bounds⟩
      · rw [Tree.encodeAll, enc, encs, List.take_append_drop]
      · rw [Tree.sizeAll]; omega

theorem validator_sound (data : Bytes) : ElementSound data ∧ ContentsSound data := by
  induction hn : data.length using Nat.strongRecOn generalizing data with
  | ind n ih =>
    have inner : ∀ d : Bytes, d.length < data.length → ContentsSound d :=
      fun d hd => (ih d.length (by omega) d rfl).2
    have self := element_sound_of_contents inner
    exact ⟨self, contents_sound_of_element self inner⟩

/-- A tree within the limits is accepted wherever it stands at the front. -/
def ElementComplete (t : Tree) : Prop :=
  ∀ (data rest : Bytes) (depth nodes : Nat), data = t.encode ++ rest → t.WellFormed →
    t.DepthWithin 32 depth → nodes + t.size ≤ 4096 → data.length ≤ 1 <<< 20 →
    ∃ stop, validateBERElement data depth nodes = (.ok stop, nodes + t.size) ∧
      stop.val = t.encode.length

def ContentsComplete (ts : List Tree) : Prop :=
  ∀ (depth nodes : Nat), Tree.AllWellFormed ts → Tree.AllWithin 32 (depth + 1) ts →
    nodes + Tree.sizeAll ts ≤ 4096 → (Tree.encodeAll ts).length ≤ 1 <<< 20 →
    validateBERContents (Tree.encodeAll ts) depth nodes = (.ok (), nodes + Tree.sizeAll ts)

theorem element_of_primitive {data : Bytes} {e : ElementHeader} {depth nodes : Nat}
    (read : readHeader data = some e) (deep : depth ≤ 32) (count : nodes + 1 ≤ 4096)
    (plain : ¬ e.tag &&& 0x20 ≠ 0) :
    ∃ stop, validateBERElement data depth nodes = (.ok stop, nodes + 1) ∧
      stop.val = e.index + e.length := by
  have bounds := readHeader_bounds read
  rw [validateBERElement, if_neg (by omega)]
  split
  · rename_i hnone
    rw [read] at hnone
    cases hnone
  · rename_i e' hsome
    obtain rfl : e = e' := Option.some.inj (read.symm.trans hsome)
    rw [if_neg plain]
    exact ⟨_, rfl, rfl⟩

theorem element_of_constructed {data : Bytes} {e : ElementHeader} {depth nodes nodes' : Nat}
    (read : readHeader data = some e) (deep : depth ≤ 32) (count : nodes + 1 ≤ 4096)
    (structured : e.tag &&& 0x20 ≠ 0)
    (inner : validateBERContents ((data.drop e.index).take e.length) depth (nodes + 1) =
      (.ok (), nodes')) :
    ∃ stop, validateBERElement data depth nodes = (.ok stop, nodes') ∧
      stop.val = e.index + e.length := by
  have bounds := readHeader_bounds read
  rw [validateBERElement, if_neg (by omega)]
  split
  · rename_i hnone
    rw [read] at hnone
    cases hnone
  · rename_i e' hsome
    obtain rfl : e = e' := Option.some.inj (read.symm.trans hsome)
    rw [if_pos structured, inner]
    exact ⟨_, rfl, rfl⟩

theorem primitive_complete (h : Header) (content : Bytes) :
    ElementComplete (.primitive h content) := by
  intro data rest depth nodes split wf within count small
  obtain ⟨announces, plain⟩ := wf
  have hdata : data = h.octets ++ (content ++ rest) := by
    rw [split, Tree.encode, List.append_assoc]
  have total : data.length = h.octets.length + (content.length + rest.length) := by
    rw [hdata, List.length_append, List.length_append]
  have read : readHeader data = some ⟨h.tag, h.octets.length, content.length⟩ := by
    rw [hdata]
    exact readHeader_complete announces (by omega) (by rw [List.length_append]; omega)
  rw [Tree.encode, List.length_append]
  exact element_of_primitive read within count plain

theorem constructed_complete (h : Header) (children : List Tree)
    (inner : ContentsComplete children) : ElementComplete (.constructed h children) := by
  intro data rest depth nodes split wf within count small
  obtain ⟨announces, structured, wfs⟩ := wf
  obtain ⟨deep, withins⟩ := within
  rw [Tree.size] at count
  have hdata : data = h.octets ++ (Tree.encodeAll children ++ rest) := by
    rw [split, Tree.encode, List.append_assoc]
  have total : data.length =
      h.octets.length + ((Tree.encodeAll children).length + rest.length) := by
    rw [hdata, List.length_append, List.length_append]
  have read : readHeader data =
      some ⟨h.tag, h.octets.length, (Tree.encodeAll children).length⟩ := by
    rw [hdata]
    exact readHeader_complete announces (by omega) (by rw [List.length_append]; omega)
  have contents := inner depth (nodes + 1) wfs withins (by omega) (by omega)
  have slice : (data.drop h.octets.length).take (Tree.encodeAll children).length =
      Tree.encodeAll children := by
    rw [hdata, List.drop_left, List.take_left]
  rw [Tree.encode, List.length_append, Tree.size, ← Nat.add_assoc]
  refine element_of_constructed read deep (by omega) structured ?_
  rw [slice]
  exact contents

/-- An accepted element at the front of some contents leaves the siblings behind it. -/
theorem contents_after {data : Bytes} {depth nodes nodes' : Nat} {stop : End data}
    (accepted : validateBERElement data (depth + 1) nodes = (.ok stop, nodes')) :
    validateBERContents data depth nodes =
      validateBERContents (data.drop stop.val) depth nodes' := by
  have bounds := stop.property
  rw [validateBERContents, if_neg (by omega), accepted]

theorem siblings_complete {t : Tree} {rest : List Tree} (first : ElementComplete t)
    (more : ContentsComplete rest) : ContentsComplete (t :: rest) := by
  intro depth nodes wf within count small
  rw [Tree.sizeAll] at count ⊢
  rw [Tree.encodeAll] at small ⊢
  obtain ⟨stop, accepted, hstop⟩ :=
    first _ (Tree.encodeAll rest) (depth + 1) nodes rfl wf.1 within.1 (by omega) small
  rw [List.length_append] at small
  have remaining := more depth (nodes + t.size) wf.2 within.2 (by omega) (by omega)
  rw [contents_after accepted, hstop, List.drop_left, remaining, Nat.add_assoc]

mutual
theorem element_complete : ∀ t : Tree, ElementComplete t
  | .primitive h content => primitive_complete h content
  | .constructed h children => constructed_complete h children (contents_complete children)

theorem contents_complete : ∀ ts : List Tree, ContentsComplete ts
  | [] => by
    intro depth nodes _ _ _ _
    rw [validateBERContents, Tree.encodeAll, if_pos List.length_nil, Tree.sizeAll, Nat.add_zero]
  | t :: rest => siblings_complete (element_complete t) (contents_complete rest)
end

theorem root_octet (t : Tree) : t.encode[0]? = some t.header.tag := by
  cases t <;> simp [Tree.encode, Tree.header, Header.octets]

theorem tree_of_accepted {frame : Bytes} (h : validateBERFrame frame = .ok ()) :
    frame.length ≤ 2 ^ 20 ∧ ∃ t : Tree, t.WellFormed ∧ t.encode = frame ∧
      t.header.tag = 0x30 ∧ t.DepthWithin 32 0 ∧ t.size ≤ 4096 := by
  rw [validateBERFrame] at h
  split at h
  · cases h
  · rename_i entry
    split at h
    · cases h
    · rename_i stop nodes accepted
      split at h
      · cases h
      · rename_i whole
        have hstop : stop.val = frame.length := Decidable.not_not.mp whole
        obtain ⟨t, wf, enc, within, count, bound⟩ :=
          (validator_sound frame).1 0 0 stop nodes accepted
        rw [hstop, List.take_length] at enc
        have root : frame[0]? = some 0x30 := by
          by_contra other
          exact entry (Or.inr (Or.inr other))
        rw [← enc, root_octet] at root
        exact ⟨by omega, t, wf, enc, Option.some.inj root, within, by omega⟩

theorem accepted_of_tree {t : Tree} (small : t.encode.length ≤ 2 ^ 20) (wf : t.WellFormed)
    (root : t.header.tag = 0x30) (within : t.DepthWithin 32 0) (count : t.size ≤ 4096) :
    validateBERFrame t.encode = .ok () := by
  obtain ⟨stop, accepted, hstop⟩ :=
    element_complete t t.encode [] 0 0 (List.append_nil _).symm wf within (by omega) small
  have progress := stop.property
  have entry : ¬ (t.encode.length < 2 ∨ t.encode.length > 1 <<< 20 ∨
      t.encode[0]? ≠ some 0x30) := by
    rintro (short | long | other)
    · omega
    · omega
    · exact other (by rw [root_octet, root])
  rw [validateBERFrame, if_neg entry, accepted]
  simp [hstop]

/-- The validator accepts exactly the bounded grammar with a sequence at its root. -/
theorem validateBERFrame_ok_iff (frame : Bytes) :
    validateBERFrame frame = .ok () ↔
      frame.length ≤ 2 ^ 20 ∧ ∃ t : Tree, t.WellFormed ∧ t.encode = frame ∧
        t.header.tag = 0x30 ∧ t.DepthWithin 32 0 ∧ t.size ≤ 4096 := by
  constructor
  · exact tree_of_accepted
  · rintro ⟨small, t, wf, rfl, root, within, count⟩
    exact accepted_of_tree small wf root within count

end BerAcceptance
