import StumpfworksFramework.Runs

/-!
# Programs that ask their surroundings

A program asks questions and goes on with the answers, until it has a result.
Nothing is known of the answers but their types. What holds of a program for all
of them is proved by going through it once, with the questions asked so far; the
rules are those of pre- and postconditions.

Calls of such programs run side by side, and their questions are answered in any
order. What was proved of each program then holds of each call.
-/

namespace Interactions

open Runs

variable {Q : Type} {A : Q → Type} {α β : Type}

/-! ## Programs -/

inductive Program (A : Q → Type) (α : Type) where
  | done (result : α)
  | ask (question : Q) (next : A question → Program A α)

def Program.bind : Program A α → (α → Program A β) → Program A β
  | .done result, f => f result
  | .ask question next, f => .ask question fun answer => (next answer).bind f

instance : Monad (Program A) where
  pure := .done
  bind := .bind

def ask (question : Q) : Program A (A question) := .ask question .done

/-- Questions with their answers, in order. -/
abbrev History (A : Q → Type) := List (Σ question, A question)

/-! ## Conditions -/

/-- After the history `h`, whatever the answers are, `safe` holds of every history to come and
`post` of the last one with the result. -/
def Program.Always (safe : History A → Prop) (post : History A → α → Prop) :
    History A → Program A α → Prop
  | h, .done result => safe h ∧ post h result
  | h, .ask question next =>
    safe h ∧ ∀ answer, (next answer).Always safe post (h ++ [⟨question, answer⟩])

section Conditions

variable {safe : History A → Prop} {post : History A → α → Prop} {h : History A}

theorem Program.Always.now {p : Program A α} (always : p.Always safe post h) : safe h := by
  cases p with
  | done result => exact always.1
  | ask question next => exact always.1

theorem Program.Always.pure {result : α} (here : safe h) (last : post h result) :
    Program.Always safe post h (Pure.pure result : Program A α) :=
  ⟨here, last⟩

theorem Program.Always.ask {question : Q} {f : A question → Program A α} (here : safe h)
    (next : ∀ answer, (f answer).Always safe post (h ++ [⟨question, answer⟩])) :
    Program.Always safe post h (Interactions.ask question >>= f) :=
  ⟨here, next⟩

theorem Program.Always.bind {p : Program A α} {f : α → Program A β} {post' : History A → β → Prop}
    (first : p.Always safe post h)
    (second : ∀ h' result, safe h' → post h' result → (f result).Always safe post' h') :
    Program.Always safe post' h (p >>= f) := by
  induction p generalizing h with
  | done result => exact second h result first.1 first.2
  | ask question next ih => exact ⟨first.1, fun answer => ih answer (first.2 answer)⟩

end Conditions

/-! ## Calls side by side -/

variable {C : Type}

/-- A call, with the questions that it has asked and what is left of its program. -/
structure Thread (C : Type) (A : Q → Type) (α : Type) where
  call : C
  asked : History A
  rest : Program A α

def Thread.finished (t : Thread C A α) : Bool :=
  match t.rest with
  | .done _ => true
  | .ask _ _ => false

theorem Thread.finished_iff {t : Thread C A α} :
    t.finished = true ↔ ∃ result, t.rest = .done result := by
  unfold Thread.finished
  cases t.rest <;> simp

inductive Action (C : Type) (A : Q → Type) where
  | call (c : C)
  | answer (i : Nat) (question : Q) (reply : A question)

variable [DecidableEq Q]

/-- An answer to a question that was not asked changes nothing. -/
def Thread.answer (t : Thread C A α) (question : Q) (reply : A question) : Thread C A α :=
  match t.rest with
  | .done _ => t
  | .ask asked next =>
    if same : question = asked then
      { t with asked := t.asked ++ [⟨question, reply⟩], rest := next (same ▸ reply) }
    else t

def stepThreads (code : C → Program A α) (s : List (Thread C A α)) :
    Action C A → List (Thread C A α)
  | .call c => s ++ [⟨c, [], code c⟩]
  | .answer i question reply =>
    match s[i]? with
    | none => s
    | some t => s.set i (t.answer question reply)

def step (code : C → Program A α) (s : List (Thread C A α)) (a : Action C A) :
    List (Thread C A α) × Unit := (stepThreads code s a, ())

section Runs

variable {code : C → Program A α} {safe : C → History A → Prop}
variable {post : C → History A → α → Prop}

/-- What is proved of the program of a call holds at each point of the call. -/
def Thread.Sound (safe : C → History A → Prop) (post : C → History A → α → Prop)
    (t : Thread C A α) : Prop :=
  t.rest.Always (safe t.call) (post t.call) t.asked

omit [DecidableEq Q] in
theorem Thread.Sound.now {t : Thread C A α} (sound : t.Sound safe post) : safe t.call t.asked :=
  Program.Always.now sound

theorem Thread.Sound.answer {t : Thread C A α} (sound : t.Sound safe post) (question : Q)
    (reply : A question) : (t.answer question reply).Sound safe post := by
  obtain ⟨call, asked, rest⟩ := t
  unfold Thread.answer
  split
  · exact sound
  · rename_i expected next here
    split
    · rename_i same
      subst same
      cases here
      exact sound.2 reply
    · exact sound

theorem sound_step (proved : ∀ c, (code c).Always (safe c) (post c) []) {s : List (Thread C A α)}
    (sound : ∀ t ∈ s, t.Sound safe post) (a : Action C A) :
    ∀ t ∈ stepThreads code s a, t.Sound safe post := by
  cases a with
  | call c => exact forall_mem_concat sound (proved c)
  | answer i question reply =>
    simp only [stepThreads]
    split
    · exact sound
    · rename_i t found
      intro t' mem
      rcases List.mem_or_eq_of_mem_set mem with old | rfl
      · exact sound t' old
      · exact (sound t (List.mem_of_getElem? found)).answer question reply

/-- In every run, what was proved of the programs holds of the calls. -/
theorem run_sound (proved : ∀ c, (code c).Always (safe c) (post c) [])
    {legal : List (Thread C A α) → Action C A → Prop} {h : List (Action C A × Unit)}
    {s : List (Thread C A α)} (run : Run (step code) legal [] h s) :
    ∀ t ∈ s, t.Sound safe post :=
  Run.invariant (P := fun _ s => ∀ t ∈ s, t.Sound safe post) (by simp)
    (fun _ _ a _ sound _ => sound_step proved sound a) run

omit [DecidableEq Q] in
theorem Thread.Sound.concluded {t : Thread C A α} (sound : t.Sound safe post) {result : α}
    (done : t.rest = .done result) : post t.call t.asked result := by
  unfold Thread.Sound at sound
  rw [done] at sound
  exact sound.2

omit [DecidableEq Q] in
/-- What a call holds before it has come back, and returns at the end. -/
theorem sum_le_unfinished {s : List (Thread C A α)} {f : Thread C A α → Nat}
    (sound : ∀ t ∈ s, t.Sound safe post) (one : ∀ t, t.Sound safe post → f t ≤ 1)
    (none : ∀ t result, t.Sound safe post → t.rest = .done result → f t = 0) :
    (s.map f).sum ≤ s.countP fun t => !t.finished := by
  refine sum_map_le_countP fun t mem => ?_
  cases finished : t.finished with
  | false => exact one t (sound t mem)
  | true =>
    obtain ⟨result, done⟩ := Thread.finished_iff.mp finished
    exact Nat.le_of_eq (none t result (sound t mem) done)

end Runs

end Interactions
