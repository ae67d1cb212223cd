import StumpfworksFramework.CorsPolicy

/-!
# What the CORS middleware decides

The sets that the constructor builds are those of the options, normalised; the
middleware looks a request up in them after normalising it in the same way. The
decision for a request is stated here in terms of the options alone.
-/

namespace CorsDecisions

open ByteStrings Instants CorsPolicy
open HttpResponses (cacheControl)
open OidcClients (Values)

/-! ## What the constructor builds -/

section Construction

variable {S : Strings} {options : CorsOptions} {p : Policy}

theorem collectOrigins_ok {listed acc origins : List Bytes} {before wildcard : Bool}
    (ok : collectOrigins S listed acc before = .ok (origins, wildcard)) :
    (∀ x, x ∈ origins ↔ x ∈ acc ∨ x ∈ listed ∧ x ≠ ascii "*") ∧
      (wildcard = true ↔ before = true ∨ ascii "*" ∈ listed) ∧
      ∀ x ∈ listed, x ≠ ascii "*" → acceptedOrigin S x = true := by
  induction listed generalizing acc before with
  | nil =>
    cases ok
    simp
  | cons origin rest ih =>
    rw [collectOrigins] at ok
    split at ok
    · rename_i star
      obtain ⟨members, any, accepted⟩ := ih ok
      refine ⟨fun x => ?_, ?_, ?_⟩
      · rw [members, List.mem_cons, star]
        tauto
      · rw [any]
        simp [star]
      · intro x mem other
        rcases List.mem_cons.mp mem with rfl | later
        · exact absurd star other
        · exact accepted x later other
    · rename_i named
      split at ok
      · cases ok
      · rename_i passed
        obtain ⟨members, any, accepted⟩ := ih ok
        refine ⟨fun x => ?_, ?_, ?_⟩
        · rw [members, List.mem_append, List.mem_singleton, List.mem_cons]
          by_cases same : x = origin
          · subst same
            simp [named]
          · simp [same]
        · rw [any, List.mem_cons]
          simp [Ne.symm named]
        · intro x mem other
          rcases List.mem_cons.mp mem with rfl | later
          · exact Bool.eq_true_of_not_eq_false passed
          · exact accepted x later other

theorem collectMethods_ok {listed acc methods : List Bytes}
    (ok : collectMethods S listed acc = .ok methods) : methods = acc ++ listed.map S.toUpper := by
  induction listed generalizing acc with
  | nil =>
    cases ok
    simp
  | cons method rest ih =>
    rw [collectMethods] at ok
    split at ok
    · cases ok
    · rw [ih ok]
      simp

theorem collectHeaders_ok {listed acc headers : List Bytes}
    (ok : collectHeaders S listed acc = .ok headers) : headers = acc ++ listed.map S.toLower := by
  induction listed generalizing acc with
  | nil =>
    cases ok
    simp
  | cons header rest ih =>
    rw [collectHeaders] at ok
    split at ok
    · cases ok
    · rw [ih ok]
      simp

/-- A policy against the options it was built from. -/
structure Built (S : Strings) (options : CorsOptions) (p : Policy) : Prop where
  origins : ∀ x, x ∈ p.origins ↔ x ∈ options.allowedOrigins ∧ x ≠ ascii "*"
  wildcard : p.wildcard = true ↔ ascii "*" ∈ options.allowedOrigins
  accepted : ∀ x ∈ options.allowedOrigins, x ≠ ascii "*" → acceptedOrigin S x = true
  exclusive : ¬ (p.wildcard = true ∧ p.options.allowCredentials = true)
  methods : p.methods = options.allowedMethods.map S.toUpper
  headers : p.headers = options.allowedHeaders.map S.toLower
  options : p.options = options

theorem cors_built (ok : cors S options = .ok p) : Built S options p := by
  unfold cors at ok
  split at ok
  · cases ok
  rename_i origins wildcard collected
  split at ok
  · cases ok
  rename_i exclusive
  split at ok
  · cases ok
  rename_i methods collectedMethods
  split at ok
  · cases ok
  rename_i headers collectedHeaders
  split at ok
  · cases ok
  split at ok
  · cases ok
  cases ok
  obtain ⟨members, any, accepted⟩ := collectOrigins_ok collected
  refine ⟨?_, ?_, accepted, exclusive, ?_, ?_, rfl⟩
  · intro x
    rw [members]
    simp
  · rw [any]
    simp
  · simpa using collectMethods_ok collectedMethods
  · simpa using collectHeaders_ok collectedHeaders

end Construction

/-! ## Effects on a response -/

section Effects

variable {next : Handler} {r : Request} {w : Writer}

@[simp] theorem run_cons (e : Effect) (effects : List Effect) :
    Writer.run next r w (e :: effects) =
      Writer.run next r (Writer.effect next r w e) effects := rfl

theorem run_append (first second : List Effect) :
    Writer.run next r w (first ++ second) =
      Writer.run next r (Writer.run next r w first) second :=
  List.foldl_append

/-- The header that an effect changes. -/
def Effect.changes : Effect → Option Bytes
  | .addHeader name _ => some name
  | .setHeader name _ => some name
  | .writeHeader _ => none
  | .serveNext => none

end Effects

/-! ## Decisions on a request -/

/-- The origin is listed, or every origin is allowed. -/
def Allowed (options : CorsOptions) (origin : Bytes) : Prop :=
  origin ∈ options.allowedOrigins ∨ ascii "*" ∈ options.allowedOrigins

instance (options : CorsOptions) (origin : Bytes) : Decidable (Allowed options origin) :=
  inferInstanceAs (Decidable (_ ∨ _))

/-- What the options say of the method and the headers that a preflight asks for. -/
def Requestable (S : Strings) (options : CorsOptions) (r : Request) : Prop :=
  S.toUpper (Values.get r.header requestMethodName) ∈ options.allowedMethods.map S.toUpper ∧
    ∀ header ∈ splitAt 44 (Values.get r.header requestHeadersName),
      S.trimSpace (S.toLower header) ≠ [] →
        S.trimSpace (S.toLower header) ∈ options.allowedHeaders.map S.toLower

instance (S : Strings) (options : CorsOptions) (r : Request) :
    Decidable (Requestable S options r) :=
  inferInstanceAs (Decidable (_ ∧ _))

/-- The origin that a response to an allowed origin names. -/
def sharedWith (options : CorsOptions) (origin : Bytes) : Bytes :=
  if ascii "*" ∈ options.allowedOrigins then ascii "*" else origin

/-- The last effect for an allowed origin. -/
def ending (S : Strings) (options : CorsOptions) (r : Request) : Effect :=
  if isPreflight r = true then .writeHeader (if Requestable S options r then 204 else 403)
  else .serveNext

/-- Headers set for an allowed origin besides the origin itself. -/
structure Further (options : CorsOptions) (e : Effect) : Prop where
  header : (Effect.changes e).isSome
  ne_origin : Effect.changes e ≠ some allowOriginName
  ne_vary : ∀ value, e ≠ .setHeader varyName value
  credentials : Effect.changes e = some allowCredentialsName → options.allowCredentials = true

/-- Everything that the middleware can do with a request. -/
inductive Served (S : Strings) (options : CorsOptions) (r : Request) : List Effect → Prop
  | absent (empty : r.origin = []) : Served S options r [.serveNext]
  | unlisted (origin : r.origin ≠ []) (refused : ¬ Allowed options r.origin)
      (simple : isPreflight r = false) :
      Served S options r [.addHeader varyName originName, .serveNext]
  | refused (origin : r.origin ≠ []) (refused : ¬ Allowed options r.origin)
      (preflight : isPreflight r = true) :
      Served S options r [.addHeader varyName originName,
        .setHeader cacheControl (ascii "no-store"), .writeHeader 403]
  | shared {further : List Effect} (origin : r.origin ≠ []) (allowed : Allowed options r.origin)
      (rest : ∀ e ∈ further, Further options e) :
      Served S options r ([.addHeader varyName originName,
        .setHeader allowOriginName (sharedWith options r.origin)] ++
          (further ++ [ending S options r]))

section Decisions

variable {S : Strings} {options : CorsOptions} {p : Policy} {r : Request}

theorem Built.allowed_iff (built : Built S options p) (origin : Bytes) :
    allowed p origin = true ↔ Allowed options origin := by
  rw [allowed, decide_eq_true_eq, built.origins, built.wildcard, Allowed]
  by_cases star : origin = ascii "*"
  · simp [star]
  · simp [star]

theorem Built.headersAllowed_iff (built : Built S options p) (requested : Bytes) :
    headersAllowed S p requested = true ↔ ∀ header ∈ splitAt 44 requested,
      S.trimSpace (S.toLower header) ≠ [] →
        S.trimSpace (S.toLower header) ∈ options.allowedHeaders.map S.toLower := by
  rw [headersAllowed, List.all_eq_true, built.headers]
  refine forall₂_congr fun header mem => ?_
  rw [decide_eq_true_eq]
  tauto

theorem Built.requestable_iff (built : Built S options p) :
    Requestable S options r ↔ S.toUpper (Values.get r.header requestMethodName) ∈ p.methods ∧
      headersAllowed S p (Values.get r.header requestHeadersName) = true := by
  rw [Requestable, built.methods, built.headersAllowed_iff]

/-- The lists of methods, of headers and the age say nothing of the origin. -/
theorem further_setHeader {name : Bytes} (value : Bytes)
    (mem : name ∈ [allowMethodsName, allowHeadersName, maxAgeName, exposeHeadersName]) :
    Further options (.setHeader name value) := by
  have distinct : ∀ name ∈ [allowMethodsName, allowHeadersName, maxAgeName, exposeHeadersName],
      name ≠ allowOriginName ∧ name ≠ varyName ∧ name ≠ allowCredentialsName := by decide +kernel
  obtain ⟨origin, vary, credentials⟩ := distinct name mem
  refine ⟨rfl, ?_, ?_, ?_⟩
  · simpa [Effect.changes] using origin
  · intro value' same
    exact vary (Effect.setHeader.inj same).1
  · intro same
    exact absurd (Option.some.inj same) credentials

theorem further_addVary (value : Bytes) : Further options (.addHeader varyName value) := by
  have distinct : varyName ≠ allowOriginName ∧ varyName ≠ allowCredentialsName := by
    decide +kernel
  refine ⟨rfl, ?_, ?_, ?_⟩
  · simpa [Effect.changes] using distinct.1
  · simp
  · intro same
    exact absurd (Option.some.inj same) distinct.2

theorem further_of_ite {c : Prop} [Decidable c] {e e' : Effect}
    (further : c → Further options e) (mem : e' ∈ if c then [e] else []) : Further options e' := by
  obtain ⟨holds, inside⟩ := List.mem_ite_nil_right.mp mem
  rw [List.mem_singleton.mp inside]
  exact further holds

theorem Built.answerPreflight_eq (built : Built S options p) :
    ∃ further, answerPreflight S p r =
        further ++ [.writeHeader (if Requestable S options r then 204 else 403)] ∧
      ∀ e ∈ further, Further options e := by
  have varies : ∀ e ∈ [Effect.addHeader varyName requestMethodName,
      Effect.addHeader varyName requestHeadersName], Further options e := by
    simp [further_addVary]
  rw [answerPreflight]
  by_cases method : S.toUpper (Values.get r.header requestMethodName) ∈ p.methods
  · rw [if_neg (not_not_intro method)]
    by_cases headers : headersAllowed S p (Values.get r.header requestHeadersName) = true
    · rw [if_neg (by simp [headers]), if_pos (built.requestable_iff.mpr ⟨method, headers⟩)]
      refine ⟨_, (List.append_assoc _ _ _).symm, ?_⟩
      intro e mem
      rcases List.mem_append.mp mem with vary | answer
      · exact varies e vary
      rcases List.mem_append.mp answer with lists | age
      rcases List.mem_append.mp lists with methods | allowedHeaders
      · rw [List.mem_singleton.mp methods]
        exact further_setHeader _ (by simp)
      · exact further_of_ite (fun _ => further_setHeader _ (by simp)) allowedHeaders
      · exact further_of_ite (fun _ => further_setHeader _ (by simp)) age
    · rw [if_pos (by simpa using headers),
        if_neg fun both => headers (built.requestable_iff.mp both).2]
      exact ⟨_, rfl, varies⟩
  · rw [if_pos method, if_neg fun both => method (built.requestable_iff.mp both).1]
    exact ⟨_, rfl, varies⟩

theorem Built.further_credentials (built : Built S options p) :
    ∀ e ∈ if p.options.allowCredentials = true then
        [Effect.setHeader allowCredentialsName (ascii "true")] else [], Further options e := by
  have distinct : allowCredentialsName ≠ allowOriginName ∧ allowCredentialsName ≠ varyName := by
    decide +kernel
  intro e mem
  refine further_of_ite (fun credentials => ⟨rfl, ?_, ?_, ?_⟩) mem
  · simpa [Effect.changes] using distinct.1
  · intro value same
    exact distinct.2 (Effect.setHeader.inj same).1
  · intro _
    rw [← built.options, credentials]

theorem Built.served (built : Built S options p) (r : Request) :
    Served S options r (serve S p r) := by
  unfold serve
  split
  · rename_i empty
    exact .absent empty
  rename_i origin
  by_cases share : Allowed options r.origin
  · have value : (if p.wildcard = true then ascii "*" else r.origin) =
        sharedWith options r.origin := if_congr built.wildcard rfl rfl
    rw [if_neg (by simp [(built.allowed_iff _).mpr share]), value]
    by_cases preflight : isPreflight r = true
    · obtain ⟨further, answer, rest⟩ := built.answerPreflight_eq (r := r)
      have complex : ¬ isPreflight r = false := by simp [preflight]
      rw [if_neg complex, answer]
      have all := List.forall_mem_append.mpr ⟨built.further_credentials, rest⟩
      simpa [ending, preflight] using Served.shared (S := S) origin share all
    · have simple : isPreflight r = false := by simpa using preflight
      rw [if_pos simple]
      have exposed : ∀ e ∈ if p.options.exposedHeaders ≠ [] then
          [Effect.setHeader exposeHeadersName (joined p.options.exposedHeaders)] else [],
          Further options e :=
        fun e mem => further_of_ite (fun _ => further_setHeader _ (by simp)) mem
      have all := List.forall_mem_append.mpr ⟨built.further_credentials, exposed⟩
      simpa [ending, preflight] using Served.shared (S := S) origin share all
  · have refused : allowed p r.origin = false := by
      simpa using mt (built.allowed_iff _).mp share
    rw [if_pos refused]
    split
    · rename_i preflight
      exact .refused origin share preflight
    · rename_i simple
      exact .unlisted origin share (by simpa using simple)

end Decisions

/-! ## The decision -/

section Decision

variable {S : Strings} {options : CorsOptions} {r : Request} {effects : List Effect}

theorem Served.credentials (served : Served S options r effects) {value : Bytes}
    (mem : .setHeader allowCredentialsName value ∈ effects) : options.allowCredentials = true := by
  cases served with
  | absent empty => simp at mem
  | unlisted origin refused simple => simp at mem
  | refused origin refused preflight =>
    have other : allowCredentialsName ≠ cacheControl := by decide +kernel
    simp [other] at mem
  | @shared further origin share rest =>
    have other : allowCredentialsName ≠ allowOriginName := by decide +kernel
    simp only [List.mem_append, List.mem_cons, List.not_mem_nil, reduceCtorEq, or_false,
      false_or, Effect.setHeader.injEq, other, false_and] at mem
    rcases mem with inside | last
    · exact (rest _ inside).credentials rfl
    · unfold ending at last
      split at last <;> cases last

end Decision

/-- The functions of the standard library on the texts of the sample. -/
def sampleStrings : Strings where
  toUpper := List.map fun b => if 97 ≤ b ∧ b ≤ 122 then b - 32 else b
  toLower := List.map fun b => if 65 ≤ b ∧ b ≤ 90 then b + 32 else b
  trimSpace text := ((text.dropWhile (· = 32)).reverse.dropWhile (· = 32)).reverse
  parseUrl text :=
    if text = ascii "https://app.example" then
      some ⟨ascii "https", [], false, ascii "app.example", [], false, [], []⟩
    else none

def sampleOptions : CorsOptions where
  allowedOrigins := [ascii "https://app.example"]
  allowedMethods := [ascii "get", ascii "POST"]
  allowedHeaders := [ascii "X-Trace", ascii "Content-Type"]
  exposedHeaders := []
  allowCredentials := true
  maxAge := 10 * minute

def samplePolicy : Policy where
  origins := [ascii "https://app.example"]
  wildcard := false
  methods := [ascii "GET", ascii "POST"]
  headers := [ascii "x-trace", ascii "content-type"]
  options := sampleOptions

theorem accepted_sample : cors sampleStrings sampleOptions = .ok samplePolicy := by decide +kernel

end CorsDecisions
