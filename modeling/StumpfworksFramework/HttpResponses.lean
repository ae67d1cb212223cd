import Mathlib.Data.List.DropRight
import StumpfworksFramework.Decimals
import StumpfworksFramework.FiniteMaps
import StumpfworksFramework.ResponseStatus

/-!
# Responses of an HTTP/1 server

What `net/http` makes of the calls of a handler. The header map of a response is
shared by everyone who holds the writer, up to the first final `WriteHeader`, which
takes a copy of it. What is written of the body goes to a buffer of 2048 bytes. The
head of the message is made when the buffer overflows, or else after the handler has
returned; only then does the server know the length and announces it by itself, unless
the headers already speak of the length, of a transfer coding or of trailers.

Header names are keys of the map, and `Set` and `Get` give them their canonical form.
Flushes, hijacking and codes for which `net/http` panics are left out. So are the
headers `Date` and `Connection`, the type that the server guesses for a body without
one, the trailers behind a chunked body and the order of the header lines.
-/

namespace HttpResponses

open ByteStrings Decimals FiniteMaps
open ResponseStatus (Informational Writer)

/-! ## Headers -/

/-- `http.Header`. A name may be there without a value. -/
abbrev Header := FiniteMap Bytes (List Bytes)

namespace Header

def values (header : Header) (name : Bytes) : List Bytes := (header.lookup name).getD []

def get (header : Header) (name : Bytes) : Bytes := (header.values name).headD []

def has (header : Header) (name : Bytes) : Bool := (header.lookup name).isSome

def set (header : Header) (name value : Bytes) : Header := header.insert name [value]

def del (header : Header) (name : Bytes) : Header := header.erase name

theorem values_insert (header : Header) (name : Bytes) (values : List Bytes) (k : Bytes) :
    Header.values (header.insert name values) k =
      if k = name then values else header.values k := by
  split
  · rename_i same
    rw [same, Header.values, AList.lookup_insert]
    rfl
  · rename_i apart
    rw [Header.values, AList.lookup_insert_ne apart]
    rfl

theorem values_set (header : Header) (name value k : Bytes) :
    (header.set name value).values k = if k = name then [value] else header.values k :=
  values_insert header name [value] k

theorem values_del (header : Header) (name k : Bytes) :
    (header.del name).values k = if k = name then [] else header.values k := by
  split
  · rename_i same
    rw [same, Header.values, del, AList.lookup_erase]
    rfl
  · rename_i apart
    rw [Header.values, del, AList.lookup_erase_ne apart]
    rfl

theorem get_of_values {header : Header} {name : Bytes} (unset : header.values name = []) :
    header.get name = [] := by
  rw [get, unset]
  rfl

end Header

def contentType : Bytes := ascii "Content-Type"
def contentLength : Bytes := ascii "Content-Length"
def contentEncoding : Bytes := ascii "Content-Encoding"
def transferEncoding : Bytes := ascii "Transfer-Encoding"
def trailer : Bytes := ascii "Trailer"
def cacheControl : Bytes := ascii "Cache-Control"

/-! ## Writing -/

/-- A writer together with the header map behind `Header`. -/
structure ResponseWriter (σ : Type) extends Writer σ where
  header : σ → Header
  setHeader : σ → Header → σ

/-- The state of a response: `sent` has the status and the copied headers, `body` what the server
has taken of the body. -/
structure Response where
  handlerHeader : Header
  sent : Option (Int × Header)
  interim : List Int
  contentLength : Option Nat
  written : Nat
  body : Bytes

def bodyAllowedFor (status : Int) : Bool :=
  !(100 ≤ status ∧ status ≤ 199 ∨ status = 204 ∨ status = 304)

namespace Response

def fresh (header : Header) : Response := ⟨header, none, [], none, 0, []⟩

/-- `strconv.ParseInt` with 64 bits, if the result may be a length. -/
def parseLength (value : Bytes) : Option Nat :=
  match readDecimal value with
  | none => none
  | some i => if 0 ≤ i ∧ i < 2 ^ 63 then some i.toNat else none

/-- The length declared in the headers is noted, or dropped if it is none. The copy of the headers
keeps it. -/
def declare (r : Response) : Response :=
  if r.handlerHeader.get HttpResponses.contentLength = [] then r
  else
    match parseLength (r.handlerHeader.get HttpResponses.contentLength) with
    | some n => { r with contentLength := some n }
    | none => { r with handlerHeader := r.handlerHeader.del HttpResponses.contentLength }

def writeHeader (r : Response) (code : Int) : Response :=
  if r.sent.isSome = true then r
  else if Informational code then { r with interim := r.interim ++ [code] }
  else ({ r with sent := some (code, r.handlerHeader) } : Response).declare

def bodyAllowed (r : Response) : Bool :=
  match r.sent with
  | none => true
  | some (status, _) => bodyAllowedFor status

/-- A write beyond the declared length is refused as a whole, with `ErrContentLength`. -/
def append (r : Response) (data : Bytes) : Response :=
  if data = [] ∨ r.bodyAllowed = false then r
  else if r.contentLength.any (· < r.written + data.length) = true then
    { r with written := r.written + data.length }
  else { r with written := r.written + data.length, body := r.body ++ data }

def write (r : Response) (data : Bytes) : Response := (r.writeHeader 200).append data

theorem declare_eq {r : Response} (undeclared : r.contentLength = none) :
    r.declare.contentLength = parseLength (r.handlerHeader.get HttpResponses.contentLength) ∧
      r.declare.sent = r.sent ∧ r.declare.written = r.written ∧ r.declare.body = r.body := by
  unfold declare
  split
  · rename_i absent
    rw [absent]
    exact ⟨undeclared, rfl, rfl, rfl⟩
  · split
    · rename_i declared
      exact ⟨declared.symm, rfl, rfl, rfl⟩
    · rename_i malformed
      exact ⟨undeclared.trans malformed.symm, rfl, rfl, rfl⟩

theorem append_eq {r : Response} (allowed : r.bodyAllowed = true) (new : r.written = 0)
    (empty : r.body = []) (data : Bytes) :
    (r.append data).sent = r.sent ∧ (r.append data).contentLength = r.contentLength ∧
      (r.append data).body =
        if r.contentLength.any (· < data.length) = true then [] else data := by
  unfold append
  simp only [allowed, Bool.true_eq_false, or_false, new, Nat.zero_add, empty, List.nil_append]
  split
  · rename_i none_left
    subst none_left
    exact ⟨rfl, rfl, by simp [empty]⟩
  · split
    · exact ⟨rfl, rfl, rfl⟩
    · exact ⟨rfl, rfl, rfl⟩

/-! ### Responses without a declared length -/

section Unannounced

variable {header : Header} {code : Int}

theorem writeHeader_unannounced (final : ¬Informational code)
    (unannounced : header.values HttpResponses.contentLength = []) :
    (fresh header).writeHeader code =
      ⟨header, some (code, header), [], none, 0, []⟩ := by
  show (if Informational code then _ else
    declare ⟨header, some (code, header), [], none, 0, []⟩) = _
  rw [if_neg final, declare, if_pos (Header.get_of_values unannounced)]

/-- Without a declared length a body is sent as a whole. -/
theorem append_unannounced {data : Bytes} (some : data ≠ [])
    (allowed : bodyAllowedFor code = true) :
    (⟨header, Option.some (code, header), [], none, 0, []⟩ : Response).append data =
      ⟨header, Option.some (code, header), [], none, data.length, data⟩ := by
  have body : (⟨header, Option.some (code, header), [], none, 0, []⟩ : Response).bodyAllowed =
      true := allowed
  rw [append, if_neg]
  · simp
  · rw [body]
    simp [some]

end Unannounced

end Response

def netHTTP : ResponseWriter Response where
  writeHeader := Response.writeHeader
  write := Response.write
  header := Response.handlerHeader
  setHeader := fun r header => { r with handlerHeader := header }

/-! ## Messages -/

/-- What is sent: the header lines by their names, and the body without its framing. -/
structure Message where
  status : Int
  header : Header
  chunked : Bool
  body : Bytes

def identity : Bytes := ascii "identity"
def chunkedCoding : Bytes := ascii "chunked"

/-- The buffer in front of the connection. -/
def bufferSize : Nat := 2048

/-- How the end of the body is made known: the server announces the length that it found, or the
length of the headers is sent, or the body is chunked, or the connection is closed. -/
structure Framing where
  automatic : Bool
  announced : Bool
  chunked : Bool

/-- Trailers are declared in a header or by names with a mark. -/
def declaresTrailers (header : Header) : Bool :=
  header.entries.any (fun e => (ascii "Trailer:").isPrefixOf e.1) || header.values trailer ≠ []

/-- The body fits the buffer, so that all of it is known, and nothing is said about its length. -/
def measures (head : Bool) (header : Header) (body : Bytes) : Bool :=
  body.length ≤ bufferSize && !declaresTrailers header && header.get transferEncoding = [] &&
    !header.has contentLength && (!head || body ≠ [])

def framing (head http11 : Bool) (status : Int) (header : Header) (declared : Option Nat)
    (body : Bytes) : Framing :=
  let coding := header.get transferEncoding
  let automatic := bodyAllowedFor status && measures head header body
  let known := automatic || declared.isSome
  -- a length beside a transfer coding is ignored
  let conflicting := known && coding ≠ [] && coding ≠ identity
  let chunked := !head && bodyAllowedFor status && (conflicting || !known) && http11 &&
    coding ≠ identity
  ⟨automatic, !conflicting && !chunked, chunked⟩

/-- Names that are no tokens are dropped, and with them those that declare trailers. -/
def shownName (name : Bytes) : Bool := name ≠ [] && name.all isTokenByte

/-- A value on one line, without blanks around it. -/
def shownValue (value : Bytes) : Bytes :=
  ((value.map fun b => if b = 10 ∨ b = 13 then 32 else b).dropWhile isSpace).rdropWhile isSpace

/-- Headers that do not go with the status. -/
def suppressed (status : Int) (header : Header) : Header :=
  if status = 304 then ((header.del contentType).del contentLength).del transferEncoding
  else if bodyAllowedFor status = true then header
  else (header.del contentLength).del transferEncoding

/-- The header lines. -/
def headerLines (f : Framing) (status : Int) (header : Header) (size : Nat) : Header :=
  let lines : Header :=
    restrict shownName (fun values => values.map shownValue) (suppressed status header)
  let lines := if f.announced = true then lines else lines.del contentLength
  let lines := if f.automatic = true then lines.set contentLength (natural size) else lines
  if f.chunked = true then
    lines.insert transferEncoding
      ((if header.get transferEncoding = chunkedCoding then []
        else lines.values transferEncoding) ++
        [chunkedCoding])
  else lines.del transferEncoding

/-- `finishRequest`, for a request with the method HEAD or another and of HTTP/1.1 or 1.0. -/
def finish (head http11 : Bool) (r : Response) : Message :=
  let r := r.writeHeader 200
  let sent := r.sent.getD (200, r.handlerHeader)
  let f := framing head http11 sent.1 sent.2 r.contentLength r.body
  ⟨sent.1, headerLines f sent.1 sent.2 r.body.length, f.chunked, if head then [] else r.body⟩

/-- The values of a header in all its spellings. -/
def Message.valuesOf (m : Message) (name : Bytes) : List Bytes :=
  m.header.entries.flatMap fun e => if asciiLower e.1 = name then e.2 else []

/-- The body that a client makes of a message, if that is complete. A transfer coding comes before
a length, of which there may be only one. -/
def Message.received (m : Message) : Option Bytes :=
  let codings := m.valuesOf (ascii "transfer-encoding")
  let lengths := m.valuesOf (ascii "content-length")
  if codings ≠ [] then
    if m.chunked = true ∧ codings = [chunkedCoding] then some m.body else none
  else
    match lengths with
    | [] => some m.body
    | length :: others =>
      match readNatural length with
      | none => none
      | some n =>
        if others.all (· = length) = true ∧ n ≤ m.body.length then some (m.body.take n) else none

/-! ## Header lines by name -/

/-- The name occurs in no other spelling. -/
def Spelled (header : Header) (name : Bytes) : Prop :=
  ∀ k ∈ header, asciiLower k = asciiLower name → k = name

/-- The headers that describe a body or its framing. -/
def framed : List Bytes := [contentType, contentLength, contentEncoding, transferEncoding]

/-- They were set under their canonical names. -/
def Canonical (header : Header) : Prop := ∀ name ∈ framed, Spelled header name

section Lines

variable {f : Framing} {status : Int} {header : Header} {size : Nat}

end Lines

/-! ## Lengths that are announced -/

/-- Nothing is said about the end of the body. -/
structure Silent (header : Header) : Prop where
  length : header.has contentLength = false
  coding : header.get transferEncoding = []
  trailers : declaresTrailers header = false

/-- The headers announce this length, and that is sent: no transfer coding comes before it, or the
server cannot read it and has no reason to chunk the body. -/
structure Announces (head http11 : Bool) (header : Header) (n : Nat) : Prop where
  length : (header.values contentLength).map shownValue = [natural n]
  kept :
    if (Response.parseLength (header.get contentLength)).isSome = true then
      header.get transferEncoding = [] ∨ header.get transferEncoding = identity
    else head = true ∨ http11 = false ∨ header.get transferEncoding = identity

section Settings

variable {header : Header} {name value : Bytes}

theorem canonical_set (canonical : Canonical header)
    (other : ∀ n ∈ framed, asciiLower name = asciiLower n → name = n) :
    Canonical (header.set name value) := by
  intro n listed k mem spelling
  rcases (AList.mem_insert header).mp mem with rfl | mem
  · exact other n listed spelling
  · exact canonical n listed k mem spelling

theorem declaresTrailers_iff : declaresTrailers header = true ↔
    (∃ k ∈ header, (ascii "Trailer:").isPrefixOf k = true) ∨ header.values trailer ≠ [] := by
  rw [declaresTrailers, Bool.or_eq_true, List.any_eq_true, decide_eq_true_eq]
  refine or_congr_left ⟨?_, ?_⟩
  · rintro ⟨e, mem, marked⟩
    exact ⟨e.1, AList.mem_keys.mpr (List.mem_keys_of_mem mem), marked⟩
  · rintro ⟨k, mem, marked⟩
    obtain ⟨values, mem⟩ := List.exists_of_mem_keys (AList.mem_keys.mp mem)
    exact ⟨⟨k, values⟩, mem, marked⟩

/-- A name that is no matter of framing. -/
structure Unrelated (name : Bytes) : Prop where
  length : contentLength ≠ name
  coding : transferEncoding ≠ name
  trailer : trailer ≠ name
  mark : (ascii "Trailer:").isPrefixOf name = false

theorem silent_set_iff (unrelated : Unrelated name) :
    Silent (header.set name value) ↔ Silent header := by
  have length : (header.set name value).has contentLength = header.has contentLength := by
    rw [Header.has, Header.set, AList.lookup_insert_ne unrelated.length, Header.has]
  have coding : (header.set name value).get transferEncoding = header.get transferEncoding := by
    rw [Header.get, Header.values_set, if_neg unrelated.coding, Header.get]
  have trailers : declaresTrailers (header.set name value) = declaresTrailers header := by
    rw [Bool.eq_iff_iff, declaresTrailers_iff, declaresTrailers_iff, Header.values_set,
      if_neg unrelated.trailer]
    refine or_congr_left ⟨?_, ?_⟩
    · rintro ⟨k, mem, marked⟩
      rcases (AList.mem_insert header).mp mem with rfl | mem
      · rw [unrelated.mark] at marked
        cases marked
      · exact ⟨k, mem, marked⟩
    · rintro ⟨k, mem, marked⟩
      exact ⟨k, (AList.mem_insert header).mpr (Or.inr mem), marked⟩
  constructor
  · intro silent
    exact ⟨length ▸ silent.length, coding ▸ silent.coding, trailers ▸ silent.trailers⟩
  · intro silent
    exact ⟨length ▸ silent.length, coding ▸ silent.coding, trailers ▸ silent.trailers⟩

end Settings

section Framings

variable {head http11 : Bool} {status : Int} {header : Header} {declared : Option Nat}
variable {body : Bytes}

end Framings

section Finished

variable {r : Response} {status : Int} {header : Header} {head http11 : Bool}

end Finished

end HttpResponses
