import StumpfworksFramework.JsonScanner

/-!
# The scanner reads the grammar

By induction on a text of the grammar: from any stack with room for its depth, the
scanner goes through the text and returns to that stack; without room it fails inside
the text. For the outermost value this says where the value ends.
-/

namespace JsonScanner

open ByteStrings

/-! ## Scalars -/

section Scalars

variable {maxDepth : Nat} {stack : List Frame} {text : Bytes}

/-- A byte that goes on with a number that could end before it. -/
def continuesNumber (c : UInt8) : Bool := isDigit c || c = 46 || c = 101 || c = 69

/-- The value is complete if the next byte is none of a number. -/
def Settled (mode : Mode) : Prop :=
  mode = .endValue ∨ mode = .state0 ∨ mode = .state1 ∨ mode = .dot0 ∨ mode = .e0

theorem Settled.step_eq {mode : Mode} (settled : Settled mode) {c : UInt8}
    (other : continuesNumber c = false) : step maxDepth mode stack c = stepEndValue stack c := by
  simp only [continuesNumber, Bool.or_eq_false_iff, decide_eq_false_iff_not] at other
  obtain ⟨⟨⟨digit, point⟩, small⟩, big⟩ := other
  rcases settled with rfl | rfl | rfl | rfl | rfl
  · rfl
  · simp [step, step0, point, small, big]
  · simp [step, step0, digit, point, small, big]
  · simp [step, digit, small, big]
  · simp [step, digit]

theorem reach_blank {mode : Mode} (skips : ∀ c, isSpace c = true →
      step maxDepth mode stack c = .go mode stack) (blank : Blank text) :
    reach maxDepth mode stack text = .here mode stack := by
  induction text with
  | nil => rfl
  | cons c rest ih =>
    obtain ⟨space, more⟩ := List.forall_mem_cons.mp blank
    rw [reach_cons (skips c space), ih more]

theorem continuesNumber_of_isSpace {c : UInt8} (space : isSpace c = true) :
    continuesNumber c = false := by
  have all : ∀ c : UInt8, isSpace c = true → continuesNumber c = false :=
    forall_octet (by decide +kernel)
  exact all c space

theorem stepEndValue_space {frame : Frame} {c : UInt8} (space : isSpace c = true) :
    stepEndValue (frame :: stack) c = .go .endValue (frame :: stack) := by
  cases frame <;> simp [stepEndValue, space]

theorem skips_endValue {frame : Frame} {c : UInt8} (space : isSpace c = true) :
    step maxDepth .endValue (frame :: stack) c = .go .endValue (frame :: stack) :=
  stepEndValue_space space

theorem Settled.blank {mode : Mode} (settled : Settled mode) {frame : Frame} (blank : Blank text) :
    ∃ mode', Settled mode' ∧
      reach maxDepth mode (frame :: stack) text = .here mode' (frame :: stack) := by
  cases text with
  | nil => exact ⟨mode, settled, rfl⟩
  | cons c rest =>
    obtain ⟨space, more⟩ := List.forall_mem_cons.mp blank
    refine ⟨.endValue, .inl rfl, ?_⟩
    have skips : step maxDepth mode (frame :: stack) c = _ :=
      settled.step_eq (continuesNumber_of_isSpace space)
    rw [reach_cons (skips.trans (stepEndValue_space space))]
    exact reach_blank (fun c space => skips_endValue space) more

theorem reach_chars (ok : Chars text) :
    reach maxDepth .inString stack text = .here .inString stack := by
  induction ok with
  | nil => rfl
  | plain printable quote slash more ih => simp [reach, step, printable, quote, slash, ih]
  | escape letter more ih => simp [reach, step, letter, ih]
  | unicode hex more ih =>
    have letter : isEscape 117 = false := by decide
    simp [reach, step, letter, hex, ih]

/-- A mode in which digits change nothing. -/
theorem reach_digits {mode : Mode} (stays : ∀ c, isDigit c = true →
      step maxDepth mode stack c = .go mode stack) (digits : ∀ b ∈ text, isDigit b = true) :
    reach maxDepth mode stack text = .here mode stack := by
  induction text with
  | nil => rfl
  | cons c rest ih =>
    obtain ⟨digit, more⟩ := List.forall_mem_cons.mp digits
    rw [reach_cons (stays c digit), ih more]

theorem Digits.reach {first mode : Mode} (ok : Digits text)
    (starts : ∀ c, isDigit c = true → step maxDepth first stack c = .go mode stack)
    (stays : ∀ c, isDigit c = true → step maxDepth mode stack c = .go mode stack) :
    reach maxDepth first stack text = .here mode stack := by
  obtain ⟨some, digits⟩ := ok
  obtain ⟨c, rest, rfl⟩ := List.exists_cons_of_ne_nil some
  obtain ⟨digit, more⟩ := List.forall_mem_cons.mp digits
  rw [reach_cons (starts c digit), reach_digits stays more]

/-- No digit is a sign. -/
theorem isDigit_plain {c : UInt8} (digit : isDigit c = true) : c ≠ 43 ∧ c ≠ 45 := by
  have all : ∀ c : UInt8, isDigit c = true → c ≠ 43 ∧ c ≠ 45 := forall_octet (by decide +kernel)
  exact all c digit

variable (maxDepth stack) in
theorem reach_exponent {mode : Mode} (ok : Exponent text)
    (before : mode = .state0 ∨ mode = .state1 ∨ mode = .dot0) :
    ∃ mode', Settled mode' ∧ reach maxDepth mode stack text = .here mode' stack := by
  rcases ok with rfl | ⟨mark, sign, digits, rfl, letter, signed, all⟩
  · refine ⟨mode, ?_, rfl⟩
    rcases before with rfl | rfl | rfl <;> simp [Settled]
  · have marked : step maxDepth mode stack mark = .go .e stack := by
      have digit : isDigit 101 = false ∧ isDigit 69 = false := by decide
      rcases before with rfl | rfl | rfl <;> rcases letter with rfl | rfl <;>
        simp [step, step0, digit]
    have stays : ∀ c, isDigit c = true → step maxDepth .e0 stack c = .go .e0 stack := by
      intro c digit
      simp [step, digit]
    refine ⟨.e0, by simp [Settled], ?_⟩
    rw [reach_cons marked]
    rcases signed with rfl | rfl | rfl
    · refine all.reach (fun c digit => ?_) stays
      have plain := isDigit_plain digit
      simp [step, stepESign, digit, plain]
    · rw [List.singleton_append, reach_cons (by rfl)]
      exact all.reach (fun c digit => by simp [step, stepESign, digit]) stays
    · rw [List.singleton_append, reach_cons (by rfl)]
      exact all.reach (fun c digit => by simp [step, stepESign, digit]) stays

variable (maxDepth stack) in
theorem reach_fraction {mode : Mode} (ok : Fraction text)
    (before : mode = .state0 ∨ mode = .state1) :
    ∃ mode', (mode' = .state0 ∨ mode' = .state1 ∨ mode' = .dot0) ∧
      reach maxDepth mode stack text = .here mode' stack := by
  rcases ok with rfl | ⟨digits, rfl, all⟩
  · exact ⟨mode, before.elim .inl fun one => .inr (.inl one), rfl⟩
  · have point : step maxDepth mode stack 46 = .go .dot stack := by
      rcases before with rfl | rfl
      · rfl
      · rfl
    refine ⟨.dot0, by simp, ?_⟩
    rw [reach_cons point]
    exact all.reach (fun c digit => by simp [step, digit]) (fun c digit => by simp [step, digit])

theorem reach_integer {first : Mode} (ok : Integer text)
    (zero : step maxDepth first stack 48 = .go .state0 stack)
    (other : ∀ c, 49 ≤ c ∧ c ≤ 57 → step maxDepth first stack c = .go .state1 stack) :
    ∃ mode, (mode = .state0 ∨ mode = .state1) ∧
      reach maxDepth first stack text = .here mode stack := by
  rcases ok with rfl | ⟨c, rest, rfl, digit, more⟩
  · exact ⟨.state0, by simp, by rw [reach_cons zero]; rfl⟩
  · refine ⟨.state1, by simp, ?_⟩
    rw [reach_cons (other c digit)]
    exact reach_digits (fun c digit => by simp [step, digit]) more

/-- No digit is white space. -/
theorem not_isSpace_of_digit {c : UInt8} (digit : 49 ≤ c ∧ c ≤ 57) : isSpace c = false := by
  have all : ∀ c : UInt8, 49 ≤ c ∧ c ≤ 57 → isSpace c = false := forall_octet (by decide +kernel)
  exact all c digit

theorem reach_number (ok : Number text) :
    ∃ mode, Settled mode ∧ reach maxDepth .beginValue stack text = .here mode stack := by
  obtain ⟨sign, integer, fraction, exponent, rfl, signed, int, frac, exp⟩ := ok
  have whole : ∃ mode, (mode = .state0 ∨ mode = .state1) ∧
      reach maxDepth .beginValue stack (sign ++ integer) = .here mode stack := by
    rcases signed with rfl | rfl
    · rw [List.nil_append]
      refine reach_integer int (by rfl) fun c digit => ?_
      simp [step, stepBeginValue, not_isSpace_of_digit digit, digit]
    · rw [List.singleton_append, reach_cons (by rfl)]
      refine reach_integer int (by rfl) fun c digit => ?_
      have nonzero : c ≠ 48 := by
        rintro rfl
        exact absurd digit.1 (by decide)
      simp [step, digit, nonzero]
  obtain ⟨mode, kind, reached⟩ := whole
  obtain ⟨mode', kind', reached'⟩ := reach_fraction maxDepth stack frac kind
  obtain ⟨mode'', settled, reached''⟩ := reach_exponent maxDepth stack exp kind'
  refine ⟨mode'', settled, ?_⟩
  rw [← List.append_assoc, reach_append_here reached, reach_append_here reached', reached'']

end Scalars

/-! ## Objects and arrays -/

/-- The two modes before a value, and before a name. -/
def Starts (mode : Mode) : Prop := mode = .beginValue ∨ mode = .beginValueOrEmpty

def StartsName (mode : Mode) : Prop := mode = .beginString ∨ mode = .beginStringOrEmpty

/-- From one stack to another of the same height, through a text of a depth that the
stack has room for. -/
structure Passes (maxDepth : Nat) (first : Mode) (stack : List Frame) (last : Mode → Prop)
    (stack' : List Frame) (depth : Nat) (text : Bytes) : Prop where
  through : stack.length + depth ≤ maxDepth →
    ∃ mode, last mode ∧ reach maxDepth first stack text = .here mode stack'
  fails : stack.length ≤ maxDepth → maxDepth < stack.length + depth →
    reach maxDepth first stack text = .failed

/-- A complete value: one that ends where the next byte is none of its own, or one whose
last byte closes it. -/
def Completes (maxDepth : Nat) (kind : Kind) (stack : List Frame) (text : Bytes) : Prop :=
  (∃ mode, (mode = .endValue ∨ kind = .number ∧ Settled mode) ∧
    reach maxDepth .beginValue stack text = .here mode stack) ∨
  ∃ inside close mode frames, text = inside ++ [close] ∧
    reach maxDepth .beginValue stack inside = .here mode frames ∧
    step maxDepth mode frames close = pop stack

/-- What the scanner does with a text of each category. -/
def Reads (maxDepth : Nat) : Shape → Nat → Bytes → Prop
  | .value kind, depth, text => ∀ stack,
    (stack.length + depth ≤ maxDepth → Completes maxDepth kind stack text) ∧
    (stack.length ≤ maxDepth → maxDepth < stack.length + depth →
      reach maxDepth .beginValue stack text = .failed)
  | .padded, depth, text => ∀ first frame stack, Starts first →
    Passes maxDepth first (frame :: stack) Settled (frame :: stack) depth text
  | .items, depth, text => ∀ first stack, Starts first →
    Passes maxDepth first (.arrayValue :: stack) Settled (.arrayValue :: stack) depth text
  | .member, depth, text => ∀ first stack, StartsName first →
    Passes maxDepth first (.objectKey :: stack) Settled (.objectValue :: stack) depth text
  | .members, depth, text => ∀ first stack, StartsName first →
    Passes maxDepth first (.objectKey :: stack) Settled (.objectValue :: stack) depth text

section Structure

variable {maxDepth depth depth' : Nat} {first : Mode} {stack stack' : List Frame}
  {text rest : Bytes} {kind : Kind} {frame frame' : Frame}

/-- Inside an object or array a complete value leads back to the stack. -/
theorem Completes.settled (ok : Completes maxDepth kind (frame :: stack) text) :
    ∃ mode, Settled mode ∧
      reach maxDepth .beginValue (frame :: stack) text = .here mode (frame :: stack) := by
  rcases ok with ⟨mode, rfl | ⟨-, settled⟩, reached⟩ |
    ⟨inside, close, mode, frames, rfl, reached, closes⟩
  · exact ⟨.endValue, .inl rfl, reached⟩
  · exact ⟨mode, settled, reached⟩
  · refine ⟨.endValue, .inl rfl, ?_⟩
    rw [reach_append_here reached, reach_cons closes]
    rfl

theorem Starts.skips (starts : Starts first) {c : UInt8} (space : isSpace c = true) :
    step maxDepth first stack c = .go first stack := by
  rcases starts with rfl | rfl
  · simp [step, stepBeginValue, space]
  · simp [step, stepBeginValueOrEmpty, space]

theorem StartsName.skips (starts : StartsName first) {c : UInt8} (space : isSpace c = true) :
    step maxDepth first stack c = .go first stack := by
  rcases starts with rfl | rfl
  · simp [step, stepBeginString, space]
  · simp [step, stepBeginStringOrEmpty, space]

theorem Number.begins (ok : Number text) :
    ∃ c rest, text = c :: rest ∧ (c = 45 ∨ isDigit c = true) := by
  obtain ⟨sign, integer, fraction, exponent, rfl, rfl | rfl, int, -, -⟩ := ok
  · rcases int with rfl | ⟨c, rest, rfl, digit, -⟩
    · exact ⟨48, _, rfl, .inr (by decide)⟩
    · have all : ∀ c : UInt8, 49 ≤ c ∧ c ≤ 57 → isDigit c = true := forall_octet (by decide +kernel)
      exact ⟨c, _, rfl, .inr (all c digit)⟩
  · exact ⟨45, _, rfl, .inl rfl⟩

/-- A value starts with a byte that is neither white space nor a closing bracket. -/
theorem Text.begins (ok : Text (.value kind) depth text) :
    ∃ c rest, text = c :: rest ∧ isSpace c = false ∧ c ≠ 93 := by
  cases ok with
  | number ok =>
    have all : ∀ c : UInt8, c = 45 ∨ isDigit c = true → isSpace c = false ∧ c ≠ 93 :=
      forall_octet (by decide +kernel)
    obtain ⟨c, rest, rfl, first⟩ := ok.begins
    exact ⟨c, rest, rfl, all c first⟩
  | _ => exact ⟨_, _, rfl, by decide, by decide⟩

theorem Text.reach_start (ok : Text (.value kind) depth text) (starts : Starts first) :
    reach maxDepth first stack text = reach maxDepth .beginValue stack text := by
  obtain ⟨c, rest, rfl, space, bracket⟩ := ok.begins
  rcases starts with rfl | rfl
  · rfl
  · simp [reach, step, stepBeginValueOrEmpty, space, bracket]

theorem passes_padded {before after : Bytes} (blank : Blank before)
    (ok : Text (.value kind) depth text) (reads : Reads maxDepth (.value kind) depth text)
    (blank' : Blank after) (starts : Starts first) :
    Passes maxDepth first (frame :: stack) Settled (frame :: stack) depth
      (before ++ (text ++ after)) := by
  have skipped : reach maxDepth first (frame :: stack) before = .here first (frame :: stack) :=
    reach_blank (fun c space => starts.skips space) blank
  obtain ⟨complete, fails⟩ := reads (frame :: stack)
  rw [← ok.reach_start starts] at fails
  constructor
  · intro room
    obtain ⟨mode, settled, reached⟩ := (complete room).settled
    obtain ⟨mode', settled', reached'⟩ : ∃ mode', Settled mode' ∧
        reach maxDepth mode (frame :: stack) after = .here mode' (frame :: stack) :=
      settled.blank blank'
    refine ⟨mode', settled', ?_⟩
    rw [← ok.reach_start starts] at reached
    rw [reach_append_here skipped, reach_append_here reached, reached']
  · intro room deep
    rw [reach_append_here skipped, reach_append_failed (fails room deep)]

/-- A list with one more element in front. -/
theorem Passes.more {next : Mode} (head : Passes maxDepth first stack Settled stack' depth text)
    (comma : stepEndValue stack' 44 = .go next stack)
    (tail : Passes maxDepth next stack Settled stack' depth' rest) :
    Passes maxDepth first stack Settled stack' (max depth depth') (text ++ 44 :: rest) := by
  have other : continuesNumber 44 = false := by decide
  constructor
  · intro room
    obtain ⟨mode, settled, reached⟩ := head.through (by omega)
    obtain ⟨mode', settled', reached'⟩ := tail.through (by omega)
    refine ⟨mode', settled', ?_⟩
    rw [reach_append_here reached, reach_cons ((settled.step_eq other).trans comma), reached']
  · intro room deep
    by_cases here : stack.length + depth ≤ maxDepth
    · obtain ⟨mode, settled, reached⟩ := head.through here
      rw [reach_append_here reached, reach_cons ((settled.step_eq other).trans comma)]
      exact tail.fails room (by omega)
    · exact reach_append_failed (head.fails room (by omega)) _

theorem passes_member {before name after : Bytes} (blank : Blank before) (ok : Chars name)
    (blank' : Blank after) (reads : Reads maxDepth .padded depth text) (starts : StartsName first) :
    Passes maxDepth first (.objectKey :: stack) Settled (.objectValue :: stack) depth
      (before ++ 34 :: (name ++ 34 :: (after ++ 58 :: text))) := by
  have named : ∀ more, reach maxDepth first (.objectKey :: stack)
      (before ++ 34 :: (name ++ 34 :: (after ++ 58 :: more))) =
        reach maxDepth .beginValue (.objectValue :: stack) more := by
    intro more
    have opens : step maxDepth first (.objectKey :: stack) 34 =
        .go .inString (.objectKey :: stack) := by
      rcases starts with rfl | rfl
      · rfl
      · rfl
    have skipped : reach maxDepth .endValue (.objectKey :: stack) after =
        .here .endValue (.objectKey :: stack) :=
      reach_blank (fun c space => skips_endValue space) blank'
    rw [reach_append_here (reach_blank (fun c space => starts.skips space) blank),
      reach_cons opens, reach_append_here (reach_chars ok), reach_cons (by rfl),
      reach_append_here skipped, reach_cons (by rfl)]
  have value := reads .beginValue .objectValue stack (.inl rfl)
  refine ⟨fun room => ?_, fun room deep => ?_⟩
  · rw [named]
    exact value.through room
  · rw [named]
    exact value.fails room deep

/-- A text between an opening and a closing byte. -/
theorem reads_container {opening closing : UInt8} {last : Mode → Prop}
    (opens : ∀ stack, step maxDepth .beginValue stack opening = push maxDepth first frame stack)
    (closes : ∀ mode stack, last mode → step maxDepth mode (frame' :: stack) closing = pop stack)
    (inside : ∀ stack, Passes maxDepth first (frame :: stack) last (frame' :: stack) depth text) :
    Reads maxDepth (.value kind) (depth + 1) (opening :: (text ++ [closing])) := by
  intro stack
  constructor
  · intro room
    have pushed : step maxDepth .beginValue stack opening = .go first (frame :: stack) := by
      rw [opens, push, if_pos (by omega)]
    obtain ⟨mode, done, reached⟩ := (inside stack).through (by rw [List.length_cons]; omega)
    refine .inr ⟨opening :: text, closing, mode, frame' :: stack, rfl, ?_, closes mode stack done⟩
    rw [reach_cons pushed, reached]
  · intro room deep
    by_cases more : stack.length + 1 ≤ maxDepth
    · have pushed : step maxDepth .beginValue stack opening = .go first (frame :: stack) := by
        rw [opens, push, if_pos more]
      rw [reach_cons pushed]
      refine reach_append_failed ((inside stack).fails more ?_) _
      rw [List.length_cons]
      omega
    · rw [reach, opens, push, if_neg more]

/-- White space between the brackets. -/
theorem passes_blank (blank : Blank text) (skips : ∀ c, isSpace c = true →
      step maxDepth first stack c = .go first stack) :
    Passes maxDepth first stack (· = first) stack 0 text :=
  ⟨fun _ => ⟨first, rfl, reach_blank skips blank⟩, fun room deep => by omega⟩

end Structure

section Reads

variable {maxDepth depth : Nat} {shape : Shape} {kind : Kind} {text : Bytes}

/-- A scalar takes no room. -/
theorem reads_scalar
    (reached : ∀ stack, ∃ mode, (mode = .endValue ∨ kind = .number ∧ Settled mode) ∧
      reach maxDepth .beginValue stack text = .here mode stack) :
    Reads maxDepth (.value kind) 0 text :=
  fun stack => ⟨fun _ => .inl (reached stack), fun room deep => by omega⟩

theorem Text.reads (ok : Text shape depth text) (maxDepth : Nat) :
    Reads maxDepth shape depth text := by
  have brace : continuesNumber 125 = false := by decide
  have bracket : continuesNumber 93 = false := by decide
  induction ok with
  | nullText => exact reads_scalar fun stack => ⟨.endValue, .inl rfl, by rfl⟩
  | trueText => exact reads_scalar fun stack => ⟨.endValue, .inl rfl, by rfl⟩
  | falseText => exact reads_scalar fun stack => ⟨.endValue, .inl rfl, by rfl⟩
  | number ok =>
    refine reads_scalar fun stack => ?_
    obtain ⟨mode, settled, reached⟩ := reach_number ok
    exact ⟨mode, .inr ⟨rfl, settled⟩, reached⟩
  | string ok =>
    refine reads_scalar fun stack => ⟨.endValue, .inl rfl, ?_⟩
    rw [reach_cons (by rfl), reach_append_here (reach_chars ok)]
    rfl
  | emptyArray blank =>
    refine reads_container (fun stack => by rfl) ?_ fun stack =>
      passes_blank blank fun c space => Starts.skips (.inr rfl) space
    rintro mode stack rfl
    rfl
  | emptyObject blank =>
    refine reads_container (fun stack => by rfl) ?_ fun stack =>
      passes_blank blank fun c space => StartsName.skips (.inr rfl) space
    rintro mode stack rfl
    rfl
  | array items ih =>
    refine reads_container (fun stack => by rfl) ?_ fun stack => ih _ stack (.inr rfl)
    intro mode stack settled
    exact settled.step_eq bracket
  | object members ih =>
    refine reads_container (fun stack => by rfl) ?_ fun stack => ih _ stack (.inr rfl)
    intro mode stack settled
    exact settled.step_eq brace
  | padded blank value blank' ih =>
    intro first frame stack starts
    exact passes_padded blank value ih blank' starts
  | item item ih =>
    intro first stack starts
    exact ih first .arrayValue stack starts
  | items item more ih ih' =>
    intro first stack starts
    exact (ih first .arrayValue stack starts).more (by rfl) (ih' .beginValue stack (.inl rfl))
  | pair blank name blank' value ih =>
    intro first stack starts
    exact passes_member blank name blank' ih starts
  | member member ih => exact ih
  | members member more ih ih' =>
    intro first stack starts
    exact (ih first stack starts).more (by rfl) (ih' .beginString stack (.inl rfl))

/-! ## The outermost value -/

/-- The text that follows does not go on with the value. -/
def Ends (kind : Kind) (rest : Bytes) : Prop :=
  kind = .number → ∀ c, rest.head? = some c → continuesNumber c = false

/-- A value after white space is found where it ends, or, at the end of the bytes at hand,
would end with one more white space. -/
theorem Text.scan {before rest : Bytes} (ok : Text (.value kind) depth text)
    (blank : Blank before) (room : depth ≤ maxDepth) (ends : Ends kind rest) :
    scan maxDepth .beginValue [] [] (before ++ (text ++ rest)) = .value (before ++ text) rest ∨
      rest = [] ∧ ∃ mode,
        JsonScanner.scan maxDepth .beginValue [] [] (before ++ (text ++ rest)) = .more mode [] ∧
        step maxDepth mode [] 32 = .ended := by
  have skipped : reach maxDepth .beginValue [] before = .here .beginValue [] :=
    reach_blank (fun c space => Starts.skips (.inl rfl) space) blank
  rw [scan_of_reach skipped, List.nil_append]
  have complete := (ok.reads maxDepth []).1 (by simpa using room)
  rcases complete with ⟨mode, final, reached⟩ | ⟨inside, close, mode, frames, rfl, reached, closes⟩
  · rw [scan_of_reach reached]
    have settled : Settled mode := final.elim .inl fun number => number.2
    cases rest with
    | nil =>
      refine .inr ⟨rfl, mode, rfl, ?_⟩
      exact settled.step_eq (by decide)
    | cons c rest =>
      have ended : step maxDepth mode [] c = .ended := by
        rcases final with rfl | ⟨number, -⟩
        · rfl
        · exact settled.step_eq (ends number c rfl)
      exact .inl (by simp only [JsonScanner.scan, ended])
  · have closed : step maxDepth mode frames close = .closed := closes
    rw [List.append_assoc, scan_of_reach reached, List.singleton_append, JsonScanner.scan, closed]
    exact .inl (by simp)

theorem Text.scan_deep {before : Bytes} (ok : Text (.value kind) depth text)
    (blank : Blank before) (deep : maxDepth < depth) (rest : Bytes) :
    JsonScanner.scan maxDepth .beginValue [] [] (before ++ (text ++ rest)) = .syntaxError := by
  have skipped : reach maxDepth .beginValue [] before = .here .beginValue [] :=
    reach_blank (fun c space => Starts.skips (.inl rfl) space) blank
  rw [scan_of_reach skipped]
  exact scan_of_failed ((ok.reads maxDepth []).2 (Nat.zero_le _) (by simpa using deep)) _ _

end Reads

end JsonScanner
