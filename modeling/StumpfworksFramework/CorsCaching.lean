import StumpfworksFramework.CorsDecisions

/-!
# Cross-origin responses in a shared cache

A cache keeps a response under its URL and the request headers that `Vary` names.
Two responses may differ in their origin's part, then, only if both say that they
vary with it. The middleware says so for every request with an origin and for none
without one.
-/

namespace CorsCaching

open ByteStrings CorsPolicy CorsDecisions
open HttpResponses (cacheControl)
open OidcClients (Values)

/-! ## Two requests and their responses -/

def accessControl : Bytes := ascii "Access-Control-"

/-- The next handler leaves `Vary` and the headers of cross-origin sharing alone. -/
structure Quiet (next : Handler) : Prop where
  sharing : ∀ r w k, accessControl <+: k → (next r w).header k = w.header k
  vary : ∀ r w, (next r w).header varyName = w.header varyName

/-- Two requests that agree in everything except the origin. -/
structure AlikeButOrigin (a b : Request) : Prop where
  method : a.method = b.method
  url : a.url = b.url
  header : ∀ k, k ≠ originName → a.header k = b.header k

/-- Two responses that a client can tell apart by sharing headers or status. -/
def Differ (u v : Writer) : Prop :=
  u.sent ≠ v.sent ∨ ∃ k, accessControl <+: k ∧ u.header k ≠ v.header k

/-- The response says that it varies with the origin. -/
def Varies (w : Writer) : Prop := originName ∈ w.header varyName

/-- The response is shared with the request's origin. -/
def Shared (options : CorsOptions) (r : Request) : Prop :=
  r.origin ≠ [] ∧ Allowed options r.origin

/-- What the next handler finds in the response if nothing is shared. -/
def unsharedWriter (r : Request) : Writer where
  header k := if r.origin ≠ [] ∧ k = varyName then [originName] else []
  status := none

/-- The status of a response that is not shared: a preflight with an origin is refused
here, any other request is the next handler's. -/
def unsharedStatus (next : Handler) (r : Request) : Nat :=
  if r.origin ≠ [] ∧ isPreflight r = true then 403 else (next r (unsharedWriter r)).sent

/-! ## Headers after a list of effects -/

section Headers

variable {next : Handler} {r : Request} {w : Writer} {k : Bytes}

theorem Quiet.effect_header (quiet : Quiet next) (guarded : accessControl <+: k ∨ k = varyName)
    {e : Effect} (other : Effect.changes e ≠ some k) :
    (Writer.effect next r w e).header k = w.header k := by
  cases e with
  | addHeader name value =>
    have ne : k ≠ name := fun same => other (congrArg some same.symm)
    exact if_neg ne
  | setHeader name value =>
    have ne : k ≠ name := fun same => other (congrArg some same.symm)
    exact if_neg ne
  | writeHeader statusCode => rfl
  | serveNext =>
    rcases guarded with sharing | rfl
    · exact quiet.sharing r w k sharing
    · exact quiet.vary r w

theorem Quiet.run_header (quiet : Quiet next) (guarded : accessControl <+: k ∨ k = varyName)
    {effects : List Effect} (others : ∀ e ∈ effects, Effect.changes e ≠ some k) :
    (Writer.run next r w effects).header k = w.header k := by
  induction effects generalizing w with
  | nil => rfl
  | cons e rest ih =>
    rw [run_cons, ih fun e mem => others e (List.mem_cons_of_mem _ mem)]
    exact quiet.effect_header guarded (others e List.mem_cons_self)

/-- Adding to `Vary` takes nothing out of it. -/
theorem Quiet.effect_varies (quiet : Quiet next) (varies : Varies w) {e : Effect}
    (kept : ∀ value, e ≠ .setHeader varyName value) : Varies (Writer.effect next r w e) := by
  by_cases other : Effect.changes e = some varyName
  · cases e with
    | addHeader name value =>
      have same : varyName = name := (Option.some.inj other).symm
      unfold Varies
      simp only [Writer.effect, if_pos same]
      exact List.mem_append_left _ varies
    | setHeader name value =>
      cases Option.some.inj other
      exact absurd rfl (kept value)
    | writeHeader statusCode => cases other
    | serveNext => cases other
  · unfold Varies
    rw [quiet.effect_header (.inr rfl) other]
    exact varies

theorem Quiet.run_varies (quiet : Quiet next) (varies : Varies w) {effects : List Effect}
    (kept : ∀ e ∈ effects, ∀ value, e ≠ .setHeader varyName value) :
    Varies (Writer.run next r w effects) := by
  induction effects generalizing w with
  | nil => exact varies
  | cons e rest ih =>
    rw [run_cons]
    exact ih (quiet.effect_varies varies (kept e List.mem_cons_self))
      fun e mem => kept e (List.mem_cons_of_mem _ mem)

end Headers

/-! ## One response -/

section Response

variable {S : Strings} {options : CorsOptions} {next : Handler} {r : Request}
  {effects : List Effect}

theorem ending_changes : Effect.changes (ending S options r) = none := by
  unfold ending
  split <;> rfl

theorem kept_of_changes {e : Effect} (other : Effect.changes e ≠ some varyName) (value : Bytes) :
    e ≠ .setHeader varyName value := by
  rintro rfl
  exact other rfl

theorem varies_addOrigin (w : Writer) :
    Varies (Writer.effect next r w (.addHeader varyName originName)) := by
  simp [Varies, Writer.effect]

/-- A response varies with the origin exactly if the request has one. -/
theorem varies_iff (served : Served S options r effects) (quiet : Quiet next) :
    Varies (Writer.run next r Writer.fresh effects) ↔ r.origin ≠ [] := by
  cases served with
  | absent empty =>
    refine iff_of_false ?_ (not_not_intro empty)
    unfold Varies
    rw [quiet.run_header (.inr rfl) (by simp [Effect.changes])]
    simp [Writer.fresh]
  | unlisted origin refused simple =>
    refine iff_of_true ?_ origin
    rw [run_cons]
    exact quiet.run_varies (varies_addOrigin _) (by simp)
  | refused origin refused preflight =>
    have other : cacheControl ≠ varyName := by decide +kernel
    refine iff_of_true ?_ origin
    rw [run_cons]
    exact quiet.run_varies (varies_addOrigin _) (by simp [other])
  | @shared further origin share rest =>
    have other : allowOriginName ≠ varyName := by decide +kernel
    refine iff_of_true ?_ origin
    rw [List.cons_append, run_cons]
    refine quiet.run_varies (varies_addOrigin _) ?_
    intro e mem
    rw [List.singleton_append, List.mem_cons, List.mem_append, List.mem_singleton] at mem
    rcases mem with rfl | inside | rfl
    · exact kept_of_changes fun same => other (Option.some.inj same)
    · exact (rest e inside).ne_vary
    · exact kept_of_changes (by simp [ending_changes])

theorem allowOrigin_ne_nil (served : Served S options r effects) (quiet : Quiet next)
    (share : Shared options r) :
    (Writer.run next r Writer.fresh effects).header allowOriginName ≠ [] := by
  have guarded : accessControl <+: allowOriginName := by decide +kernel
  cases served with
  | absent empty => exact absurd empty share.1
  | unlisted origin refused simple => exact absurd share.2 refused
  | refused origin refused preflight => exact absurd share.2 refused
  | @shared further origin allowed rest =>
    rw [run_append, quiet.run_header (.inl guarded)]
    · simp [Writer.run, Writer.effect, Values.set]
    intro e mem
    rcases List.mem_append.mp mem with inside | last
    · exact (rest e inside).ne_origin
    · rw [List.mem_singleton.mp last, ending_changes]
      simp

/-- Nothing in a response that is not shared comes from the options. -/
theorem unshared (served : Served S options r effects) (quiet : Quiet next)
    (alone : ¬ Shared options r) :
    (Writer.run next r Writer.fresh effects).sent = unsharedStatus next r ∧
      ∀ k, accessControl <+: k → (Writer.run next r Writer.fresh effects).header k = [] := by
  have named : ∀ k, accessControl <+: k → varyName ≠ k ∧ cacheControl ≠ k := by
    have vary : ¬ accessControl <+: varyName := by decide +kernel
    have cache : ¬ accessControl <+: cacheControl := by decide +kernel
    intro k sharing
    exact ⟨fun same => vary (same ▸ sharing), fun same => cache (same ▸ sharing)⟩
  cases served with
  | absent empty =>
    have handed : unsharedWriter r = Writer.fresh := by simp [unsharedWriter, Writer.fresh, empty]
    refine ⟨?_, fun k sharing => ?_⟩
    · rw [unsharedStatus, if_neg fun both => both.1 empty, handed]
      rfl
    · exact quiet.run_header (.inl sharing) (by simp [Effect.changes])
  | unlisted origin refused simple =>
    have handed : unsharedWriter r =
        Writer.effect next r Writer.fresh (.addHeader varyName originName) := by
      simp [unsharedWriter, Writer.fresh, Writer.effect, origin]
    refine ⟨?_, fun k sharing => ?_⟩
    · rw [unsharedStatus, if_neg (by simp [simple]), handed]
      rfl
    · exact quiet.run_header (.inl sharing) (by simp [Effect.changes, named k sharing])
  | refused origin refused preflight =>
    refine ⟨?_, fun k sharing => ?_⟩
    · rw [unsharedStatus, if_pos ⟨origin, preflight⟩]
      rfl
    · exact quiet.run_header (.inl sharing) (by simp [Effect.changes, named k sharing])
  | shared origin share rest => exact absurd ⟨origin, share⟩ alone

end Response

/-! ## Pairs of responses -/

theorem Differ.symm {u v : Writer} (differ : Differ u v) : Differ v u := by
  rcases differ with sent | ⟨k, sharing, header⟩
  · exact .inl (Ne.symm sent)
  · exact .inr ⟨k, sharing, Ne.symm header⟩

theorem differ_of_shared {S : Strings} {options : CorsOptions} {next : Handler}
    (quiet : Quiet next) {a b : Request} {first second : List Effect}
    (servedA : Served S options a first) (servedB : Served S options b second)
    (share : Shared options a) (alone : ¬ Shared options b) :
    Differ (Writer.run next a Writer.fresh first) (Writer.run next b Writer.fresh second) := by
  have sharing : accessControl <+: allowOriginName := by decide +kernel
  refine .inr ⟨allowOriginName, sharing, ?_⟩
  rw [(unshared servedB quiet alone).2 _ sharing]
  exact allowOrigin_ne_nil servedA quiet share

/-- The responses to two requests are safe to cache, that is both vary with the origin
if they differ, exactly if both requests have an origin, or neither is shared and the
two get the same status. Nothing is asked of the pair; for requests that agree except
in their origins this is safety under one cache key. -/
theorem cacheable_iff (S : Strings) (options : CorsOptions) (p : Policy)
    (accepted : cors S options = .ok p) (next : Handler) (quiet : Quiet next) (a b : Request) :
    (Differ (response S p next a) (response S p next b) →
        Varies (response S p next a) ∧ Varies (response S p next b)) ↔
      (a.origin ≠ [] ∧ b.origin ≠ []) ∨
        (¬ Shared options a ∧ ¬ Shared options b ∧
          unsharedStatus next a = unsharedStatus next b) := by
  have served := (cors_built accepted).served
  have variesA : Varies (response S p next a) ↔ a.origin ≠ [] := varies_iff (served a) quiet
  have variesB : Varies (response S p next b) ↔ b.origin ≠ [] := varies_iff (served b) quiet
  rw [variesA, variesB]
  constructor
  · intro safe
    by_cases both : a.origin ≠ [] ∧ b.origin ≠ []
    · exact .inl both
    -- one of the two does not vary, so the responses agree
    have agree : ¬ Differ (response S p next a) (response S p next b) := fun d => both (safe d)
    have aloneA : ¬ Shared options a := by
      intro share
      have alone : ¬ Shared options b := fun shareB => both ⟨share.1, shareB.1⟩
      exact agree (differ_of_shared quiet (served a) (served b) share alone)
    have aloneB : ¬ Shared options b := by
      intro share
      exact agree (differ_of_shared quiet (served b) (served a) share aloneA).symm
    refine .inr ⟨aloneA, aloneB, ?_⟩
    rw [← (unshared (served a) quiet aloneA).1, ← (unshared (served b) quiet aloneB).1]
    exact not_not.mp fun sent => agree (.inl sent)
  · rintro (both | ⟨aloneA, aloneB, status⟩) differ
    · exact both
    · obtain ⟨sentA, headersA⟩ := unshared (served a) quiet aloneA
      obtain ⟨sentB, headersB⟩ := unshared (served b) quiet aloneB
      rcases differ with sent | ⟨k, sharing, header⟩
      · exact absurd (sentA.trans (status.trans sentB.symm)) sent
      · exact absurd ((headersA k sharing).trans (headersB k sharing).symm) header

/-- A handler that answers every request with 200. -/
def answering : Handler := fun _ w => { w with status := w.status.or (some 200) }

theorem quiet_answering : Quiet answering := ⟨fun _ _ _ _ => rfl, fun _ _ => rfl⟩

/-- A read of one URL, with these values of the origin's header. -/
def sampleRead (origins : List Bytes) : Request where
  method := ascii "GET"
  url := ascii "/orders"
  header k := if k = originName then origins else []

theorem alike_sampleRead (first second : List Bytes) :
    AlikeButOrigin (sampleRead first) (sampleRead second) := by
  refine ⟨rfl, rfl, fun k other => ?_⟩
  simp [sampleRead, other]

/-- An allowed and a foreign origin get different responses; both vary. -/
theorem cacheable_foreign :
    Varies (response sampleStrings samplePolicy answering
        (sampleRead [ascii "https://app.example"])) ∧
      Varies (response sampleStrings samplePolicy answering
        (sampleRead [ascii "https://other.example"])) := by
  refine (cacheable_iff _ _ _ accepted_sample answering quiet_answering _ _).mpr
    (.inl ⟨by decide +kernel, by decide +kernel⟩) (.inr ⟨allowOriginName, ?_, ?_⟩)
  · decide +kernel
  · decide +kernel

/-- The response to a read without an origin lacks what the response to an allowed
origin has, and does not say that it varies. -/
theorem absent_not_cacheable :
    cors sampleStrings sampleOptions = .ok samplePolicy ∧ Quiet answering ∧
    AlikeButOrigin (sampleRead [ascii "https://app.example"]) (sampleRead []) ∧
    Differ (response sampleStrings samplePolicy answering
        (sampleRead [ascii "https://app.example"]))
      (response sampleStrings samplePolicy answering (sampleRead [])) ∧
    ¬ Varies (response sampleStrings samplePolicy answering (sampleRead [])) := by
  refine ⟨accepted_sample, quiet_answering, alike_sampleRead _ _,
    .inr ⟨allowOriginName, ?_, ?_⟩, ?_⟩
  · decide +kernel
  · decide +kernel
  · unfold Varies
    decide +kernel

end CorsCaching
