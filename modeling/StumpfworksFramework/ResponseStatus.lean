import StumpfworksFramework.ByteStrings

/-!
# Recorded and sent status

The metrics middleware and the access log each wrap the response writer they
are given and note a status on the way. Beneath them is the response of
`net/http`: interim responses leave the final status open, the first other code
or the first byte of the body fixes it, and a handler that does neither gets
200. What becomes of the bytes of a body is left out, since no status depends on
it. Codes outside 100 to 999, for which `net/http` panics, are not considered,
and neither are flushes that a handler reaches through `Unwrap`.
-/

namespace ResponseStatus

open ByteStrings

universe u

/-- What a handler calls on its response writer. -/
inductive Call where
  | writeHeader (code : Int)
  | write (body : Bytes)
  deriving DecidableEq, Repr

structure Writer (σ : Type u) where
  writeHeader : σ → Int → σ
  write : σ → Bytes → σ

def Writer.call {σ : Type u} (w : Writer σ) (s : σ) : Call → σ
  | .writeHeader code => w.writeHeader s code
  | .write body => w.write s body

def Writer.calls {σ : Type u} (w : Writer σ) (s : σ) (calls : List Call) : σ :=
  calls.foldl w.call s

/-! ## The response of the server -/

/-- A 1xx code that announces an interim response. -/
def Informational (code : Int) : Prop := 100 ≤ code ∧ code ≤ 199 ∧ code ≠ 101

instance (code : Int) : Decidable (Informational code) := inferInstanceAs (Decidable (_ ∧ _))

structure Response where
  wroteHeader : Bool
  status : Int
  interim : List Int
  deriving DecidableEq, Repr

def Response.fresh : Response := ⟨false, 0, []⟩

def Response.writeHeader (r : Response) (code : Int) : Response :=
  if r.wroteHeader = true then r
  else if Informational code then { r with interim := r.interim ++ [code] }
  else { r with wroteHeader := true, status := code }

def Response.write (r : Response) (_body : Bytes) : Response := r.writeHeader 200

def netHTTP : Writer Response := ⟨Response.writeHeader, Response.write⟩

/-- The status that is sent once the handler has returned. -/
def Response.sent (r : Response) : Int := (r.writeHeader 200).status

/-! ## The two wrappers -/

/-- A writer that notes a status and passes every call on. -/
structure Recorder (σ : Type u) where
  inner : σ
  status : Int
  deriving DecidableEq, Repr

def Recorder.fresh {σ : Type u} (inner : σ) : Recorder σ := ⟨inner, 0⟩

/-- Both wrappers keep the first code they are given, and 200 for a body before any. -/
def recording {σ : Type u} (w : Writer σ) : Writer (Recorder σ) where
  writeHeader := fun r code =>
    ⟨w.writeHeader r.inner code, if r.status = 0 then code else r.status⟩
  write := fun r body => ⟨w.write r.inner body, if r.status = 0 then 200 else r.status⟩

/-- The wrapper of the metrics middleware. -/
def statusWriter {σ : Type u} (w : Writer σ) : Writer (Recorder σ) := recording w

/-- The wrapper of the access log. -/
def responseWriter {σ : Type u} (w : Writer σ) : Writer (Recorder σ) := recording w

/-- What a middleware takes for the status after the handler has returned. -/
def Recorder.observed {σ : Type u} (r : Recorder σ) : Int :=
  if r.status = 0 then 200 else r.status

/-- The status that the metrics middleware counts. -/
def metricsStatus {σ : Type u} (r : Recorder σ) : Int := r.observed

/-- The status that the access log prints. -/
def accessLogStatus {σ : Type u} (r : Recorder σ) : Int := r.observed

/-! ## The status of a sequence of calls -/

/-- The first code that is not interim and precedes any body, or 200. -/
def finalStatus : List Call → Int
  | [] => 200
  | .write _ :: _ => 200
  | .writeHeader code :: rest => if Informational code then finalStatus rest else code

/-- What a recorder that has seen nothing makes of the calls. -/
def firstStatus : List Call → Int
  | [] => 200
  | .write _ :: _ => 200
  | .writeHeader code :: _ => code

/-- The first call is an interim response. -/
def StartsInterim (calls : List Call) : Prop :=
  ∃ code rest, calls = .writeHeader code :: rest ∧ Informational code

section Sent

theorem not_informational_200 : ¬ Informational 200 := by decide

theorem netHTTP_fixed {r : Response} (wrote : r.wroteHeader = true) (calls : List Call) :
    (netHTTP.calls r calls).sent = r.status := by
  induction calls generalizing r with
  | nil => simp [Writer.calls, Response.sent, Response.writeHeader, wrote]
  | cons call rest ih =>
    rw [Writer.calls, List.foldl_cons]
    have same : netHTTP.call r call = r := by
      cases call with
      | writeHeader code => exact if_pos wrote
      | write body => exact if_pos wrote
    rw [same]
    exact ih wrote

/-- The server sends the final status of the calls. -/
theorem netHTTP_sent {r : Response} (unwritten : r.wroteHeader = false) (calls : List Call) :
    (netHTTP.calls r calls).sent = finalStatus calls := by
  induction calls generalizing r with
  | nil => simp [Writer.calls, Response.sent, Response.writeHeader, unwritten, finalStatus,
      not_informational_200]
  | cons call rest ih =>
    rw [Writer.calls, List.foldl_cons]
    cases call with
    | write body =>
      have wrote : (netHTTP.call r (.write body)).wroteHeader = true ∧
          (netHTTP.call r (.write body)).status = 200 := by
        simp [Writer.call, netHTTP, Response.write, Response.writeHeader, unwritten,
          not_informational_200]
      exact (netHTTP_fixed wrote.1 rest).trans wrote.2
    | writeHeader code =>
      rw [finalStatus]
      by_cases interim : Informational code
      · rw [if_pos interim]
        apply ih
        simp [Writer.call, netHTTP, Response.writeHeader, unwritten, interim]
      · rw [if_neg interim]
        have wrote : (netHTTP.call r (.writeHeader code)).wroteHeader = true ∧
            (netHTTP.call r (.writeHeader code)).status = code := by
          simp [Writer.call, netHTTP, Response.writeHeader, unwritten, interim]
        exact (netHTTP_fixed wrote.1 rest).trans wrote.2

end Sent

section Recorded

variable {σ : Type u} {w : Writer σ}

/-- A wrapper passes every call on. -/
theorem recording_inner (r : Recorder σ) (calls : List Call) :
    ((recording w).calls r calls).inner = w.calls r.inner calls := by
  refine (List.foldl_hom Recorder.inner ?_).symm
  intro r call
  cases call with
  | writeHeader code => rfl
  | write body => rfl

theorem recording_fixed {r : Recorder σ} (noted : r.status ≠ 0) (calls : List Call) :
    ((recording w).calls r calls).observed = r.status := by
  induction calls generalizing r with
  | nil => simp [Writer.calls, Recorder.observed, noted]
  | cons call rest ih =>
    rw [Writer.calls, List.foldl_cons]
    have same : ((recording w).call r call).status = r.status := by
      cases call <;> simp [Writer.call, recording, noted]
    rw [← same]
    exact ih (same ▸ noted)

/-- A wrapper observes the first status. -/
theorem recording_observed (s : σ) {calls : List Call}
    (codes : ∀ code, .writeHeader code ∈ calls → 100 ≤ code ∧ code ≤ 999) :
    ((recording w).calls (Recorder.fresh s) calls).observed = firstStatus calls := by
  cases calls with
  | nil => rfl
  | cons call rest =>
    rw [Writer.calls, List.foldl_cons]
    cases call with
    | writeHeader code =>
      have valid := codes code List.mem_cons_self
      have noted : ((recording w).call (Recorder.fresh s) (.writeHeader code)).status = code := rfl
      refine (recording_fixed ?_ rest).trans noted
      rw [noted]
      omega
    | write body =>
      have noted : ((recording w).call (Recorder.fresh s) (.write body)).status = 200 := rfl
      refine (recording_fixed ?_ rest).trans noted
      rw [noted]
      decide

/-- The final status is never that of an interim response. -/
theorem finalStatus_not_informational (calls : List Call) :
    ¬ Informational (finalStatus calls) := by
  induction calls with
  | nil => exact not_informational_200
  | cons call rest ih =>
    cases call with
    | write body => exact not_informational_200
    | writeHeader code =>
      rw [finalStatus]
      split
      · exact ih
      · assumption

theorem firstStatus_eq_finalStatus_iff (calls : List Call) :
    firstStatus calls = finalStatus calls ↔ ¬ StartsInterim calls := by
  cases calls with
  | nil => simp [firstStatus, finalStatus, StartsInterim]
  | cons call rest =>
    cases call with
    | write body => simp [firstStatus, finalStatus, StartsInterim]
    | writeHeader code =>
      rw [firstStatus, finalStatus]
      by_cases interim : Informational code
      · rw [if_pos interim]
        constructor
        · intro same
          exact absurd (same ▸ interim) (finalStatus_not_informational rest)
        · intro started
          exact absurd ⟨code, rest, rfl, interim⟩ started
      · rw [if_neg interim]
        simp [StartsInterim, interim]

end Recorded

/-- The access log's wrapper around that of the metrics around the response, as the handler
finds them. -/
def stack : Writer (Recorder (Recorder Response)) := responseWriter (statusWriter netHTTP)

def stackStart : Recorder (Recorder Response) := Recorder.fresh (Recorder.fresh Response.fresh)

/-- The server sends the final status of the calls; the metrics and the access log observe it
exactly if the handler does not begin with an interim response. -/
theorem observed_eq_sent_iff {calls : List Call}
    (codes : ∀ code, .writeHeader code ∈ calls → 100 ≤ code ∧ code ≤ 999) :
    (stack.calls stackStart calls).inner.inner.sent = finalStatus calls ∧
    (metricsStatus (stack.calls stackStart calls).inner =
      (stack.calls stackStart calls).inner.inner.sent ↔ ¬ StartsInterim calls) ∧
    (accessLogStatus (stack.calls stackStart calls) =
      (stack.calls stackStart calls).inner.inner.sent ↔ ¬ StartsInterim calls) := by
  have metrics : (stack.calls stackStart calls).inner =
      (statusWriter netHTTP).calls (Recorder.fresh Response.fresh) calls :=
    recording_inner stackStart calls
  have response : (stack.calls stackStart calls).inner.inner =
      netHTTP.calls Response.fresh calls := by
    rw [metrics]
    exact recording_inner (Recorder.fresh Response.fresh) calls
  have sent : (stack.calls stackStart calls).inner.inner.sent = finalStatus calls := by
    rw [response]
    exact netHTTP_sent rfl calls
  refine ⟨sent, ?_, ?_⟩
  · rw [sent, metrics, ← firstStatus_eq_finalStatus_iff]
    rw [metricsStatus, statusWriter, recording_observed _ codes]
  · rw [sent, ← firstStatus_eq_finalStatus_iff]
    rw [accessLogStatus, stack, responseWriter, stackStart, recording_observed _ codes]

/-- Early hints before a page: both wrappers keep the code of the hints. -/
theorem early_hints_recorded :
    let final := stack.calls stackStart [.writeHeader 103, .writeHeader 200, .write [111, 107]]
    final.inner.inner.sent = 200 ∧ metricsStatus final.inner = 103 ∧
      accessLogStatus final = 103 := by
  decide

/-- A page that was not found, with a second code that comes too late. -/
theorem observed_eq_sent_not_found :
    let final := stack.calls stackStart [.writeHeader 404, .write [110, 111], .writeHeader 500]
    metricsStatus final.inner = final.inner.inner.sent ∧
      accessLogStatus final = final.inner.inner.sent := by
  intro final
  have codes : ∀ code, .writeHeader code ∈
      ([.writeHeader 404, .write [110, 111], .writeHeader 500] : List Call) →
      100 ≤ code ∧ code ≤ 999 := by
    intro code mem
    simp at mem
    omega
  have ordinary : ¬ StartsInterim [.writeHeader 404, .write [110, 111], .writeHeader 500] := by
    rintro ⟨code, rest, same, interim⟩
    cases same
    exact absurd interim (by decide)
  obtain ⟨_, metrics, accessLog⟩ := observed_eq_sent_iff codes
  exact ⟨metrics.mpr ordinary, accessLog.mpr ordinary⟩

end ResponseStatus
