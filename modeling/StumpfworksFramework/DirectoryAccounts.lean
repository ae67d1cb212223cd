import StumpfworksFramework.LookupReports
import StumpfworksFramework.SearchFilters

/-!
# What a lookup finds in a directory

The filter of a lookup is assembled as text around the username. Here the text is
read as a directory reads it, and the lookup is run against a directory that
answers searches by what it holds. Nothing in a username can change what the filter
asks: the entries it selects are the enabled accounts of people with that name.
-/

namespace DirectoryAccounts

open ByteStrings DirectoryLookup EarlyReturns LookupReports SearchFilters Utf8Runes

/-! ## The filter -/

def isPerson : Item := .equality (ascii "objectCategory") (ascii "person")

def isUser : Item := .equality (ascii "objectClass") (ascii "user")

/-- The second bit of the account control is set; the rule is that of bitwise conjunction. -/
def isDisabled : Item :=
  .extensible (ascii "userAccountControl") (ascii "1.2.840.113556.1.4.803") false (ascii "2")

def isNamed (name : Bytes) : Item := .equality (ascii "sAMAccountName") name

def accountFilter (name : Bytes) : Filter :=
  .all (.cons (.item isPerson) (.cons (.item isUser) (.cons (.negation (.item isDisabled))
    (.cons (.item (isNamed name)) .nil))))

/-- The fixed part of the filter, cut where the reader cuts it. -/
theorem filter_start :
    ascii "(&(objectCategory=person)(objectClass=user)" ++
      ascii "(!(userAccountControl:1.2.840.113556.1.4.803:=2))(sAMAccountName=" =
      40 :: 38 :: 40 :: (ascii "objectCategory" ++ 61 :: (escape (ascii "person") ++ 41 ::
        40 :: (ascii "objectClass" ++ 61 :: (escape (ascii "user") ++ 41 ::
        40 :: 33 :: 40 :: (ascii "userAccountControl" ++ 58 :: (ascii "1.2.840.113556.1.4.803" ++
          58 :: 61 :: (escape (ascii "2") ++ 41 :: 41 ::
        40 :: (ascii "sAMAccountName" ++ [61])))))))) := by
  repeat rw [ascii_ofList]
  decide +kernel

theorem filter_end : ascii "))" = [41, 41] := by
  decide +kernel

/-- Names that the filter mentions. -/
def Plain (name : Bytes) : Prop := name.all isNameOctet = true ∧ name ≠ []

theorem names_plain : ∀ name ∈ ["objectCategory", "objectClass", "userAccountControl",
    "1.2.840.113556.1.4.803", "sAMAccountName"].map ascii, Plain name := by
  unfold Plain
  decide +kernel

theorem rule_first : ∃ b more, ascii "1.2.840.113556.1.4.803" = b :: more ∧ b ≠ 100 :=
  ⟨49, ascii ".2.840.113556.1.4.803", by decide +kernel, by decide⟩

/-- The text that `GetUser` sends is read as the filter it is meant to be, for every username. -/
theorem read_userFilter {W : World} (standard : W.escapeFilter = escape) (name : Bytes) :
    read (userFilter W name) = some (accountFilter name) := by
  obtain ⟨category, cls, control, rule, account⟩ :
      Plain (ascii "objectCategory") ∧ Plain (ascii "objectClass") ∧
        Plain (ascii "userAccountControl") ∧ Plain (ascii "1.2.840.113556.1.4.803") ∧
        Plain (ascii "sAMAccountName") := by
    simpa using names_plain
  apply read_of_readFilter
  have long : ∃ fuel, (userFilter W name).length + 1 = fuel + 6 := by
    refine ⟨(userFilter W name).length - 5, ?_⟩
    have start : 5 ≤ (userFilter W name).length := by
      rw [userFilter, filter_start]
      simp only [List.length_append, List.length_cons]
      omega
    omega
  obtain ⟨fuel, long⟩ := long
  rw [long, userFilter, standard, filter_start, filter_end]
  simp only [List.cons_append, List.append_assoc, List.nil_append]
  apply readFilter_all
  refine readFilters_cons
    (readFilter_item category.1 category.2 (readItem_equality category.1 category.2 _ _) _) ?_
  refine readFilters_cons
    (readFilter_item cls.1 cls.2 (readItem_equality cls.1 cls.2 _ _) _) ?_
  refine readFilters_cons (readFilter_negation
    (readFilter_item control.1 control.2
      (readItem_extensible control.1 rule.1 rule_first _ _) _)) ?_
  refine readFilters_cons
    (readFilter_item account.1 account.2 (readItem_equality account.1 account.2 _ _) _) ?_
  exact readFilters_nil _ _

/-! ## Directories -/

/-- What a directory holds, which entries lie within a scope, and what its matching rules say
about an item. -/
structure Directory where
  entries : List Entry
  within : Scope → Bytes → Entry → Bool
  decides : Item → Entry → Option Bool

/-- An entry with the attributes that were asked for. -/
def shown (request : SearchRequest) (e : Entry) : Entry :=
  { e with attributes := e.attributes.filter fun a => a.name ∈ request.attributes }

def Directory.selected (D : Directory) (request : SearchRequest) (f : Filter) : List Entry :=
  D.entries.filter fun e =>
    D.within request.scope request.baseDN e && f.evaluate (D.decides · e) == some true

/-- A search fails for a malformed filter or for more entries than it allows. -/
def Directory.search (D : Directory) (referrals : List Bytes) (request : SearchRequest) :
    Except String SearchResult :=
  match read request.filter with
  | none => .error "filter error"
  | some f =>
    if request.sizeLimit ≠ 0 ∧ request.sizeLimit < (D.selected request f).length then
      .error "size limit exceeded"
    else .ok ⟨(D.selected request f).map (shown request), referrals⟩

/-- Searches may fail for any reason; what they return is what the directory holds, in any
order. -/
def Answers (D : Directory) (W : World) : Prop :=
  ∀ request result, W.search request = .ok result → ∃ found,
    D.search result.referrals request = .ok found ∧ result.entries.Perm found.entries

/-- An enabled account of a person with that name, below the base. -/
structure Account (D : Directory) (base name : Bytes) (e : Entry) : Prop where
  inside : D.within .wholeSubtree base e = true
  person : D.decides isPerson e = some true
  user : D.decides isUser e = some true
  enabled : D.decides isDisabled e = some false
  named : D.decides (isNamed name) e = some true

theorem account_iff {D : Directory} {base name : Bytes} {e : Entry} :
    Account D base name e ↔ D.within .wholeSubtree base e = true ∧
      (accountFilter name).evaluate (D.decides · e) = some true := by
  simp only [accountFilter, evaluate_all_cons_iff, evaluate_item_iff, evaluate_negation_iff,
    evaluate_all_nil, and_true]
  constructor
  · rintro ⟨inside, person, user, enabled, named⟩
    exact ⟨inside, person, user, enabled, named⟩
  · rintro ⟨inside, person, user, enabled, named⟩
    exact ⟨inside, person, user, enabled, named⟩

instance (D : Directory) (base name : Bytes) (e : Entry) : Decidable (Account D base name e) :=
  decidable_of_iff _ account_iff.symm

def Directory.accounts (D : Directory) (base name : Bytes) : List Entry :=
  D.entries.filter fun e => Account D base name e

/-! ## What a lookup makes of them -/

/-- The results of a lookup that nothing interferes with. -/
def verdict : List Entry → Results
  | [] => (none, some .errNotFound)
  | [e] => if e.user.username = [] then (none, some .errUnavailable) else (some e.user, none)
  | _ => (none, some .errAmbiguous)

section Searches

variable {D : Directory} {W : World} {r : Reader} {name : Bytes}

theorem selected_eq :
    D.selected (searchRequest W r name) (accountFilter name) = D.accounts r.baseDN name := by
  unfold Directory.selected Directory.accounts
  apply List.filter_congr
  intro e _
  rw [Bool.eq_iff_iff, Bool.and_eq_true, beq_iff_eq, decide_eq_true_eq, account_iff]
  rfl

/-- A response shows all that a user is made of. -/
theorem shown_user (e : Entry) : (shown (searchRequest W r name) e).user = e.user := by
  have asked : ∀ attr ∈ (searchRequest W r name).attributes,
      (shown (searchRequest W r name) e).getAttributeValue attr = e.getAttributeValue attr := by
    intro attr listed
    have kept : (fun a : Attribute =>
        decide (decide (a.name ∈ (searchRequest W r name).attributes) = true ∧
          (a.name == attr) = true)) = fun a => a.name == attr := by
      funext a
      by_cases same : a.name = attr
      · simp [same, listed]
      · simp [same]
    unfold Entry.getAttributeValue shown
    rw [List.find?_filter, kept]
  simp only [searchRequest, List.forall_mem_cons] at asked
  obtain ⟨account, display, mail, _⟩ := asked
  simp only [Entry.user, searchRequest, account, display, mail]
  rfl

/-- The answer to the search of a lookup. -/
theorem search_answer (standard : W.escapeFilter = escape) (answers : Answers D W)
    {result : SearchResult} (answered : W.search (searchRequest W r name) = .ok result) :
    result.entries.Perm ((D.accounts r.baseDN name).map (shown (searchRequest W r name))) ∧
      (D.accounts r.baseDN name).length ≤ 2 := by
  obtain ⟨found, searched, same⟩ := answers _ _ answered
  have reads : read (searchRequest W r name).filter = some (accountFilter name) :=
    read_userFilter standard name
  unfold Directory.search at searched
  rw [reads] at searched
  simp only [selected_eq] at searched
  split at searched
  · cases searched
  · rename_i few
    cases searched
    refine ⟨same, ?_⟩
    have limit : (searchRequest W r name).sizeLimit = 2 := rfl
    omega

end Searches

section Lookups

variable {D : Directory} {W : World} {r : Reader} {parent : Context} {username : Bytes}

/-- What a lookup returns when the connection, the bind and the search succeed in time. -/
def conclusion (result : SearchResult) : Results :=
  if result.entries = [] ∧ result.referrals ≠ [] then (none, some .errUnavailable)
  else verdict result.entries

theorem finish_conclude (result : SearchResult) (f : Frame) :
    (Body.finish (conclude result) f).1 = conclusion result := by
  unfold conclude conclusion
  by_cases elsewhere : result.entries = [] ∧ result.referrals ≠ []
  · rw [if_pos elsewhere, Body.onlyIf, if_pos elsewhere]
    rfl
  · rw [if_neg elsewhere, Body.finish_bind (Body.onlyIf_skipped elsewhere _ f)]
    rcases result.entries with _ | ⟨entry, _ | ⟨second, more⟩⟩
    · rfl
    · change (Body.finish (Body.onlyIf _ _ >>= _) _).1 = verdict [entry]
      by_cases unnamed : entry.user.username = []
      · rw [verdict, if_pos unnamed, Body.onlyIf, if_pos unnamed]
        rfl
      · rw [verdict, if_neg unnamed, Body.finish_bind (Body.onlyIf_skipped unnamed _ _)]
        rfl
    · rfl

/-- The connection, the bind and the search succeed while the context lasts. -/
structure Undisturbed (W : World) (r : Reader) (ctx : Option Context) (username : Bytes)
    (result : SearchResult) : Prop where
  accepted : ¬Rejected W ctx username
  dialed : W.dial r.address r.hostname = .ok ()
  bound : W.bind r.bindDN r.bindPassword = .ok ()
  answered : answer W r username = .ok result
  lasted : ∀ parent, ctx = some parent → Lasted W r parent

theorem checkedUsername_ok (accepted : ¬Rejected W (some parent) username) (f : Frame) :
    checkedUsername W username f = (.ok (W.trimSpace username), f) := by
  simp only [Rejected, not_or] at accepted
  obtain ⟨_, short, wellFormed, filled, plain⟩ := accepted
  have shaped : ¬(username.length > 256 ∨ validUTF8 username = false) :=
    not_or.mpr ⟨short, wellFormed⟩
  have trimmed : ¬(W.trimSpace username = [] ∨ 0 ∈ W.trimSpace username) :=
    not_or.mpr ⟨filled, plain⟩
  unfold checkedUsername Body.onlyIf
  rw [if_neg shaped, if_neg trimmed]
  rfl

theorem returnIfEnded_lasting {ctx : Context} {f : Frame}
    (lasts : ctx.err (W.clock f.trace.length) = none) :
    returnIfEnded W ctx f = (.ok ⟨⟩, f.log (.contextErr none)) := by
  have reading : contextErr W ctx f = (.ok none, f.log (.contextErr none)) := by
    rw [contextErr, lasts]
  rw [returnIfEnded, Body.bind_fell reading]
  exact Body.onlyIf_skipped (by simp) _ _

theorem setStage_runs (stage : LookupStage) (f : Frame) :
    setStage stage f = (.ok ⟨⟩, { f with stage }) := rfl

theorem perform_runs {α : Type} (e : Event) (reply : α) (f : Frame) :
    perform e reply f = (.ok reply, f.log e) := rfl

theorem finish_undisturbed {result : SearchResult}
    (calm : Undisturbed W r (some parent) username result) :
    (Body.finish (body W r (some parent) username) ⟨.unavailable, .validation, []⟩).1 =
      conclusion result := by
  have answered : W.search (searchRequest W r (W.trimSpace username)) = .ok result :=
    calm.answered
  rw [body, Body.finish_bind (checkedUsername_ok calm.accepted _),
    Body.finish_bind (setStage_runs _ _), Body.finish_bind (perform_runs _ _ _)]
  simp only [calm.dialed, Body.finish_deferring]
  -- the part with a connection: bind, search, and a reading of the context
  rw [converse, Body.finish_bind (setStage_runs _ _), Body.finish_bind (perform_runs _ _ _)]
  simp only [calm.bound]
  rw [Body.finish_bind (setStage_runs _ _), Body.finish_bind (perform_runs _ _ _),
    Body.finish_bind (returnIfEnded_lasting (by exact calm.lasted parent rfl))]
  simp only [answered]
  exact finish_conclude result _

/-- What the entries of a response say about the accounts they show. -/
theorem verdict_shown {request : SearchRequest} {entries accounts : List Entry}
    (same : entries.Perm (accounts.map (shown request)))
    (whole : ∀ e, (shown request e).user = e.user) : verdict entries = verdict accounts := by
  rcases accounts with _ | ⟨e, _ | ⟨e', more⟩⟩
  · rw [List.map_nil, List.perm_nil] at same
    rw [same]
  · rw [List.map_cons, List.map_nil, List.perm_singleton] at same
    rw [same, verdict, verdict, whole]
  · have length := same.length_eq
    rcases entries with _ | ⟨f, _ | ⟨f', more'⟩⟩
    · simp at length
    · simp at length
    · rfl

end Lookups

/-- Results that agree with the accounts there are, unless the lookup fails. -/
structure Faithful (accounts : List Entry) (results : Results) : Prop where
  user : ∀ u, results.1 = some u → ∃ e, accounts = [e] ∧ u = e.user
  missing : results.2 = some .errNotFound → accounts = []
  several : results.2 = some .errAmbiguous → accounts.length = 2

theorem faithful_error {accounts : List Entry} {e : LookupError} (missing : e ≠ .errNotFound)
    (several : e ≠ .errAmbiguous) : Faithful accounts (none, some e) where
  user u returned := by cases returned
  missing same := absurd (Option.some.inj same) missing
  several same := absurd (Option.some.inj same) several

section Endings

variable {D : Directory} {W : World} {r : Reader} {parent : Context} {username : Bytes}

theorem Ending.faithful (standard : W.escapeFilter = escape) (answers : Answers D W)
    {results : Results} {outcome : LookupOutcome} {trace : List Event}
    (ending : Ending W r parent username results outcome trace) :
    Faithful (D.accounts r.baseDN (W.trimSpace username)) results := by
  cases ending with
  | interrupted e => exact faithful_error nofun nofun
  | unavailable => exact faithful_error nofun nofun
  | missing answered empty _ =>
    obtain ⟨same, _⟩ := search_answer standard answers answered
    rw [empty, List.nil_perm, List.map_eq_nil_iff] at same
    exact ⟨nofun, fun _ => same, nofun⟩
  | several answered many =>
    obtain ⟨same, few⟩ := search_answer standard answers answered
    have length := same.length_eq
    rw [List.length_map] at length
    exact ⟨nofun, nofun, fun _ => by omega⟩
  | found answered one _ _ _ =>
    obtain ⟨same, _⟩ := search_answer standard answers answered
    rw [one, List.singleton_perm, eq_comm, List.map_eq_singleton_iff] at same
    obtain ⟨e, alone, rfl⟩ := same
    refine ⟨fun u returned => ⟨e, alone, ?_⟩, nofun, nofun⟩
    rw [← Option.some.inj returned, shown_user]

end Endings

/-- In a directory that answers by what it holds, a lookup of any username returns the one
enabled account of that name, says that there is none only if there is none, and that there
are several only if there are; and unless something interferes it does return its account. -/
theorem lookups_find_accounts (D : Directory) (W : World) (r : Reader) (ctx : Option Context)
    (username : Bytes) (standard : W.escapeFilter = escape) (answers : Answers D W) :
    ∃ results, (getUser W r ctx username).results = some results ∧
      Faithful (D.accounts r.baseDN (W.trimSpace username)) results ∧
      ∀ result, Undisturbed W r ctx username result →
        result.referrals = [] ∨ D.accounts r.baseDN (W.trimSpace username) ≠ [] →
        results = verdict (D.accounts r.baseDN (W.trimSpace username)) := by
  obtain ⟨_, _, call⟩ := getUser_eq W r ctx username
  refine ⟨_, by rw [call], ?_, ?_⟩
  · rcases left_finish W r ctx username with ⟨_, _, _, text, results⟩ | ⟨_, ⟨parent, _, ended⟩, _⟩
    · rw [results]
      exact faithful_error nofun nofun
    · exact Ending.faithful standard answers ended.ending
  · intro result calm here
    rcases ctx with _ | parent
    · exact absurd (Or.inl rfl) calm.accepted
    · obtain ⟨same, _⟩ := search_answer standard answers calm.answered
      have settled : ¬ (result.entries = [] ∧ result.referrals ≠ []) := by
        rintro ⟨empty, referred⟩
        rw [empty, List.nil_perm, List.map_eq_nil_iff] at same
        exact here.elim referred fun held => held same
      rw [finish_undisturbed calm, conclusion, if_neg settled]
      exact verdict_shown same shown_user

/-- A directory with a disabled account, an account named by an asterisk, and two of one name;
its rules compare octets. -/
def sampleDirectory : Directory where
  entries :=
    let account (name control : Bytes) : Entry :=
      ⟨[0], [⟨ascii "objectCategory", [ascii "person"]⟩, ⟨ascii "objectClass", [ascii "user"]⟩,
        ⟨ascii "userAccountControl", [control]⟩, ⟨ascii "sAMAccountName", [name]⟩]⟩
    [account (ascii "*") (ascii "512"), account (ascii "b") (ascii "514"),
      account (ascii "c") (ascii "512"), account (ascii "c") (ascii "512")]
  within := fun _ _ _ => true
  decides := fun item e =>
    match item with
    | .equality attr v => some (e.getAttributeValue attr == v)
    | .extensible attr _ _ _ => some (e.getAttributeValue attr == ascii "514")
    | _ => none

def sampleWorld : World :=
  { LookupReports.sampleWorld with escapeFilter := escape, search := sampleDirectory.search [] }

/-- The name `*` finds the account of that name and no other. -/
theorem lookups_find_accounts_asterisk :
    (getUser sampleWorld sampleReader (some ⟨none⟩) (ascii "*")).results =
      some (some ⟨ascii "*", ascii "*", [0], []⟩, none) := by
  have answers : Answers sampleDirectory sampleWorld := by
    intro request result answered
    have unreferred : result.referrals = [] := by
      change sampleDirectory.search [] request = .ok result at answered
      unfold Directory.search at answered
      split at answered
      · cases answered
      · split at answered
        · cases answered
        · cases answered
          rfl
    exact ⟨result, by rw [unreferred]; exact answered, .refl _⟩
  obtain ⟨results, returned, _, undisturbed⟩ := lookups_find_accounts sampleDirectory sampleWorld
    sampleReader (some ⟨none⟩) (ascii "*") rfl answers
  have calm : Undisturbed sampleWorld sampleReader (some ⟨none⟩) (ascii "*")
      ⟨[⟨[0], [⟨ascii "sAMAccountName", [ascii "*"]⟩]⟩], []⟩ := by
    refine ⟨?_, rfl, rfl, ?_, ?_⟩
    · simp only [Rejected, not_or]
      decide +kernel
    · decide +kernel
    · rintro _ ⟨⟩
      unfold Lasted
      decide
  rw [returned, undisturbed _ calm (.inl rfl)]
  decide +kernel

end DirectoryAccounts
