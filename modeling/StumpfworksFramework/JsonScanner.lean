import StumpfworksFramework.ByteStrings

/-!
# JSON texts and a scanner for them

The grammar of JSON texts with their nesting depth, and the state machine by which
Go's `encoding/json` finds where a value ends. The machine keeps a stack of the open
objects and arrays, of bounded height. Every text of the grammar is read to its last
byte, unless it is nested too deeply.
-/

namespace JsonScanner

open ByteStrings

/-- The letters of a short escape. -/
def isEscape (c : UInt8) : Bool := c ∈ [98, 102, 110, 114, 116, 92, 47, 34]

/-! ## The scanner -/

inductive Frame where
  | objectKey
  | objectValue
  | arrayValue
  deriving DecidableEq, Repr

inductive Mode where
  | beginValueOrEmpty
  | beginValue
  | beginStringOrEmpty
  | beginString
  | endValue
  | inString
  | inStringEsc
  /-- inside the digits of an escape, with one more than this many to come -/
  | inStringEscU (left : Nat)
  | neg
  | state1
  | state0
  | dot
  | dot0
  | e
  | eSign
  | e0
  /-- inside `true`, `false` or `null`, with these bytes to come -/
  | literal (left : Bytes)
  deriving DecidableEq, Repr

/-- What a byte does: the scan goes on, closes the outermost value, comes after its end,
or fails. -/
inductive Step where
  | go (mode : Mode) (stack : List Frame)
  | closed
  | ended
  | failed
  deriving DecidableEq, Repr

section Machine

variable (maxDepth : Nat)

def push (mode : Mode) (frame : Frame) (stack : List Frame) : Step :=
  if stack.length + 1 ≤ maxDepth then .go mode (frame :: stack) else .failed

def pop : List Frame → Step
  | [] => .closed
  | frame :: stack => .go .endValue (frame :: stack)

def stepEndValue : List Frame → UInt8 → Step
  | [], _ => .ended
  | frame :: stack, c =>
    if isSpace c = true then .go .endValue (frame :: stack)
    else
      match frame with
      | .objectKey => if c = 58 then .go .beginValue (.objectValue :: stack) else .failed
      | .objectValue =>
        if c = 44 then .go .beginString (.objectKey :: stack)
        else if c = 125 then pop stack else .failed
      | .arrayValue =>
        if c = 44 then .go .beginValue (.arrayValue :: stack)
        else if c = 93 then pop stack else .failed

def stepBeginValue (stack : List Frame) (c : UInt8) : Step :=
  if isSpace c = true then .go .beginValue stack
  else if 49 ≤ c ∧ c ≤ 57 then .go .state1 stack
  else if c = 123 then push maxDepth .beginStringOrEmpty .objectKey stack
  else if c = 91 then push maxDepth .beginValueOrEmpty .arrayValue stack
  else if c = 34 then .go .inString stack
  else if c = 45 then .go .neg stack
  else if c = 48 then .go .state0 stack
  else if c = 116 then .go (.literal [114, 117, 101]) stack
  else if c = 102 then .go (.literal [97, 108, 115, 101]) stack
  else if c = 110 then .go (.literal [117, 108, 108]) stack
  else .failed

def stepBeginString (stack : List Frame) (c : UInt8) : Step :=
  if isSpace c = true then .go .beginString stack
  else if c = 34 then .go .inString stack
  else .failed

/-- After `{`: an object without members ends as one with members does. -/
def stepBeginStringOrEmpty (stack : List Frame) (c : UInt8) : Step :=
  if isSpace c = true then .go .beginStringOrEmpty stack
  else if c = 125 then stepEndValue (.objectValue :: stack.tail) c
  else stepBeginString stack c

def stepBeginValueOrEmpty (stack : List Frame) (c : UInt8) : Step :=
  if isSpace c = true then .go .beginValueOrEmpty stack
  else if c = 93 then stepEndValue stack c
  else stepBeginValue maxDepth stack c

def step0 (stack : List Frame) (c : UInt8) : Step :=
  if c = 46 then .go .dot stack
  else if c = 101 ∨ c = 69 then .go .e stack
  else stepEndValue stack c

def stepESign (stack : List Frame) (c : UInt8) : Step :=
  if isDigit c = true then .go .e0 stack else .failed

def stepLiteral (left : Bytes) (stack : List Frame) (c : UInt8) : Step :=
  match left with
  | [] => .failed
  | [b] => if c = b then .go .endValue stack else .failed
  | b :: rest => if c = b then .go (.literal rest) stack else .failed

def step (mode : Mode) (stack : List Frame) (c : UInt8) : Step :=
  match mode with
  | .beginValueOrEmpty => stepBeginValueOrEmpty maxDepth stack c
  | .beginValue => stepBeginValue maxDepth stack c
  | .beginStringOrEmpty => stepBeginStringOrEmpty stack c
  | .beginString => stepBeginString stack c
  | .endValue => stepEndValue stack c
  | .inString =>
    if c = 34 then .go .endValue stack
    else if c = 92 then .go .inStringEsc stack
    else if c < 32 then .failed
    else .go .inString stack
  | .inStringEsc =>
    if isEscape c = true then .go .inString stack
    else if c = 117 then .go (.inStringEscU 3) stack
    else .failed
  | .inStringEscU left =>
    if isHex c = true then
      match left with
      | 0 => .go .inString stack
      | left + 1 => .go (.inStringEscU left) stack
    else .failed
  | .neg =>
    if c = 48 then .go .state0 stack
    else if 49 ≤ c ∧ c ≤ 57 then .go .state1 stack
    else .failed
  | .state1 => if isDigit c = true then .go .state1 stack else step0 stack c
  | .state0 => step0 stack c
  | .dot => if isDigit c = true then .go .dot0 stack else .failed
  | .dot0 =>
    if isDigit c = true then .go .dot0 stack
    else if c = 101 ∨ c = 69 then .go .e stack
    else stepEndValue stack c
  | .e => if c = 43 ∨ c = 45 then .go .eSign stack else stepESign stack c
  | .eSign => stepESign stack c
  | .e0 => if isDigit c = true then .go .e0 stack else stepEndValue stack c
  | .literal left => stepLiteral left stack c

/-- What is found in the bytes at hand: a value, nothing complete, or an error. -/
inductive Scan where
  | value (text rest : Bytes)
  | more (mode : Mode) (stack : List Frame)
  | syntaxError
  deriving DecidableEq, Repr

def scan (mode : Mode) (stack : List Frame) (seen : Bytes) : Bytes → Scan
  | [] => .more mode stack
  | c :: rest =>
    match step maxDepth mode stack c with
    | .go mode stack => scan mode stack (seen ++ [c]) rest
    | .closed => .value (seen ++ [c]) rest
    | .ended => .value seen (c :: rest)
    | .failed => .syntaxError

/-- Where the machine is after a text that it does not leave. -/
inductive Reached where
  | here (mode : Mode) (stack : List Frame)
  | failed
  | left
  deriving DecidableEq, Repr

def reach (mode : Mode) (stack : List Frame) : Bytes → Reached
  | [] => .here mode stack
  | c :: rest =>
    match step maxDepth mode stack c with
    | .go mode stack => reach mode stack rest
    | .closed => .left
    | .ended => .left
    | .failed => .failed

end Machine

section Reach

variable {maxDepth : Nat} {mode mode' : Mode} {stack stack' : List Frame} {text : Bytes}

theorem reach_append_here (first : reach maxDepth mode stack text = .here mode' stack')
    (more : Bytes) :
    reach maxDepth mode stack (text ++ more) = reach maxDepth mode' stack' more := by
  induction text generalizing mode stack with
  | nil =>
    cases first
    rfl
  | cons c rest ih =>
    cases taken : step maxDepth mode stack c with
    | go next frames =>
      simp only [List.cons_append, reach, taken] at first ⊢
      exact ih first
    | _ => simp [reach, taken] at first

theorem reach_append_failed (first : reach maxDepth mode stack text = .failed) (more : Bytes) :
    reach maxDepth mode stack (text ++ more) = .failed := by
  induction text generalizing mode stack with
  | nil => cases first
  | cons c rest ih =>
    cases taken : step maxDepth mode stack c with
    | go next frames =>
      simp only [List.cons_append, reach, taken] at first ⊢
      exact ih first
    | failed => simp only [List.cons_append, reach, taken]
    | _ => simp [reach, taken] at first

theorem reach_cons {c : UInt8} (going : step maxDepth mode stack c = .go mode' stack')
    (rest : Bytes) : reach maxDepth mode stack (c :: rest) = reach maxDepth mode' stack' rest := by
  rw [reach, going]

theorem scan_of_reach (first : reach maxDepth mode stack text = .here mode' stack')
    (seen rest : Bytes) :
    scan maxDepth mode stack seen (text ++ rest) =
      scan maxDepth mode' stack' (seen ++ text) rest := by
  induction text generalizing mode stack seen with
  | nil =>
    cases first
    simp
  | cons c tail ih =>
    cases taken : step maxDepth mode stack c with
    | go next frames =>
      simp only [List.cons_append, reach, scan, taken] at first ⊢
      rw [ih first, List.append_assoc, List.singleton_append]
    | _ => simp [reach, taken] at first

theorem scan_of_failed (first : reach maxDepth mode stack text = .failed) (seen rest : Bytes) :
    scan maxDepth mode stack seen (text ++ rest) = .syntaxError := by
  induction text generalizing mode stack seen with
  | nil => cases first
  | cons c tail ih =>
    cases taken : step maxDepth mode stack c with
    | go next frames =>
      simp only [List.cons_append, reach, scan, taken] at first ⊢
      exact ih first _
    | failed => simp only [List.cons_append, scan, taken]
    | _ => simp [reach, taken] at first

end Reach

/-! ## The grammar -/

inductive Kind where
  | null
  | boolean
  | number
  | string
  | array
  | emptyObject
  | object
  deriving DecidableEq, Repr

def Blank (text : Bytes) : Prop := ∀ b ∈ text, isSpace b = true

/-- What stands between the quotes of a string. -/
inductive Chars : Bytes → Prop
  | nil : Chars []
  | plain {c : UInt8} {rest : Bytes} (printable : ¬ c < 32) (quote : c ≠ 34) (slash : c ≠ 92)
      (more : Chars rest) : Chars (c :: rest)
  | escape {c : UInt8} {rest : Bytes} (letter : isEscape c = true) (more : Chars rest) :
      Chars (92 :: c :: rest)
  | unicode {a b c d : UInt8} {rest : Bytes}
      (hex : isHex a = true ∧ isHex b = true ∧ isHex c = true ∧ isHex d = true)
      (more : Chars rest) : Chars (92 :: 117 :: a :: b :: c :: d :: rest)

def Digits (text : Bytes) : Prop := text ≠ [] ∧ ∀ b ∈ text, isDigit b = true

/-- No leading zeros. -/
def Integer (text : Bytes) : Prop :=
  text = [48] ∨ ∃ first rest, text = first :: rest ∧ (49 ≤ first ∧ first ≤ 57) ∧
    ∀ b ∈ rest, isDigit b = true

def Fraction (text : Bytes) : Prop := text = [] ∨ ∃ digits, text = 46 :: digits ∧ Digits digits

def Exponent (text : Bytes) : Prop :=
  text = [] ∨ ∃ mark sign digits, text = mark :: (sign ++ digits) ∧ (mark = 101 ∨ mark = 69) ∧
    (sign = [] ∨ sign = [43] ∨ sign = [45]) ∧ Digits digits

def Number (text : Bytes) : Prop :=
  ∃ sign integer fraction exponent, text = sign ++ (integer ++ (fraction ++ exponent)) ∧
    (sign = [] ∨ sign = [45]) ∧ Integer integer ∧ Fraction fraction ∧ Exponent exponent

/-- The syntactic categories. -/
inductive Shape where
  | value (kind : Kind)
  | padded
  | items
  | member
  | members
  deriving DecidableEq, Repr

/-- Texts of a category with their nesting depth. -/
inductive Text : Shape → Nat → Bytes → Prop
  | nullText : Text (.value .null) 0 [110, 117, 108, 108]
  | trueText : Text (.value .boolean) 0 [116, 114, 117, 101]
  | falseText : Text (.value .boolean) 0 [102, 97, 108, 115, 101]
  | number {text : Bytes} (ok : Number text) : Text (.value .number) 0 text
  | string {chars : Bytes} (ok : Chars chars) : Text (.value .string) 0 (34 :: (chars ++ [34]))
  | emptyArray {space : Bytes} (blank : Blank space) :
      Text (.value .array) 1 (91 :: (space ++ [93]))
  | array {depth : Nat} {text : Bytes} (items : Text .items depth text) :
      Text (.value .array) (depth + 1) (91 :: (text ++ [93]))
  | emptyObject {space : Bytes} (blank : Blank space) :
      Text (.value .emptyObject) 1 (123 :: (space ++ [125]))
  | object {depth : Nat} {text : Bytes} (members : Text .members depth text) :
      Text (.value .object) (depth + 1) (123 :: (text ++ [125]))
  | padded {kind : Kind} {depth : Nat} {before text after : Bytes} (first : Blank before)
      (value : Text (.value kind) depth text) (last : Blank after) :
      Text .padded depth (before ++ (text ++ after))
  | item {depth : Nat} {text : Bytes} (item : Text .padded depth text) : Text .items depth text
  | items {depth depth' : Nat} {text rest : Bytes} (item : Text .padded depth text)
      (more : Text .items depth' rest) : Text .items (max depth depth') (text ++ 44 :: rest)
  | pair {depth : Nat} {before name after text : Bytes} (first : Blank before) (ok : Chars name)
      (last : Blank after) (value : Text .padded depth text) :
      Text .member depth (before ++ 34 :: (name ++ 34 :: (after ++ 58 :: text)))
  | member {depth : Nat} {text : Bytes} (member : Text .member depth text) :
      Text .members depth text
  | members {depth depth' : Nat} {text rest : Bytes} (member : Text .member depth text)
      (more : Text .members depth' rest) : Text .members (max depth depth') (text ++ 44 :: rest)

end JsonScanner
