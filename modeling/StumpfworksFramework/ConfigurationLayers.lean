import StumpfworksFramework.AppConfiguration
import StumpfworksFramework.ConcurrencyLimit
import StumpfworksFramework.LayeredValues

/-!
# Configuration field by field

The purpose of loading a configuration: each of fifteen fields is decided by its
own layers, the override, its own environment variable and its own place in the
file, in this order, and by its default if they say nothing. Loading succeeds
exactly if the file is there, everything given parses, and the result passes the
checks; and what passes the checks is accepted where it is used.
-/

namespace ConfigurationLayers

open AppConfiguration ByteStrings ConcurrencyLimit Instants LayeredValues

inductive Field where
  | httpAddress
  | httpReadTimeout
  | httpReadHeaderTimeout
  | httpWriteTimeout
  | httpIdleTimeout
  | httpMaxHeaderBytes
  | httpMaxConcurrentRequests
  | httpQueueTimeout
  | postgresURL
  | postgresMaxConnections
  | postgresMinConnections
  | postgresConnectTimeout
  | postgresMaxMessageBytes
  | postgresAllowInsecure
  | shutdownTimeout
  deriving DecidableEq, Repr

inductive Value where
  | text (value : Bytes)
  | number (value : Int)
  | flag (value : Bool)
  deriving DecidableEq, Repr

def get (cfg : Config) : Field → Value
  | .httpAddress => .text cfg.http.address
  | .httpReadTimeout => .number cfg.http.readTimeout
  | .httpReadHeaderTimeout => .number cfg.http.readHeaderTimeout
  | .httpWriteTimeout => .number cfg.http.writeTimeout
  | .httpIdleTimeout => .number cfg.http.idleTimeout
  | .httpMaxHeaderBytes => .number cfg.http.maxHeaderBytes
  | .httpMaxConcurrentRequests => .number cfg.http.maxConcurrentRequests
  | .httpQueueTimeout => .number cfg.http.queueTimeout
  | .postgresURL => .text cfg.postgres.url
  | .postgresMaxConnections => .number cfg.postgres.maxConnections
  | .postgresMinConnections => .number cfg.postgres.minConnections
  | .postgresConnectTimeout => .number cfg.postgres.connectTimeout
  | .postgresMaxMessageBytes => .number cfg.postgres.maxMessageBytes
  | .postgresAllowInsecure => .flag cfg.postgres.allowInsecure
  | .shutdownTimeout => .number cfg.shutdownTimeout

/-- The field's own environment variable. -/
def Field.variable : Field → String
  | .httpAddress => "SWF_HTTP_ADDRESS"
  | .httpReadTimeout => "SWF_HTTP_READ_TIMEOUT"
  | .httpReadHeaderTimeout => "SWF_HTTP_READ_HEADER_TIMEOUT"
  | .httpWriteTimeout => "SWF_HTTP_WRITE_TIMEOUT"
  | .httpIdleTimeout => "SWF_HTTP_IDLE_TIMEOUT"
  | .httpMaxHeaderBytes => "SWF_HTTP_MAX_HEADER_BYTES"
  | .httpMaxConcurrentRequests => "SWF_HTTP_MAX_CONCURRENT_REQUESTS"
  | .httpQueueTimeout => "SWF_HTTP_QUEUE_TIMEOUT"
  | .postgresURL => "SWF_POSTGRES_URL"
  | .postgresMaxConnections => "SWF_POSTGRES_MAX_CONNECTIONS"
  | .postgresMinConnections => "SWF_POSTGRES_MIN_CONNECTIONS"
  | .postgresConnectTimeout => "SWF_POSTGRES_CONNECT_TIMEOUT"
  | .postgresMaxMessageBytes => "SWF_POSTGRES_MAX_MESSAGE_BYTES"
  | .postgresAllowInsecure => "SWF_POSTGRES_ALLOW_INSECURE"
  | .shutdownTimeout => "SWF_SHUTDOWN_TIMEOUT"

/-! ## Layers -/

section Layers

variable (P : Platform)

/-- A text is given if it is not empty. -/
def textLayer (text : Bytes) : Layer Bytes Bytes := if text ≠ [] then some (.ok text) else none

def durationLayer (text : Bytes) : Layer Bytes Int :=
  if text ≠ [] then some (P.parseDuration text) else none

def numberLayer (number : Option Int) : Layer Bytes Int := number.map .ok

/-- A flag is given if it is true. -/
def flagLayer (flag : Bool) : Layer Bytes Bool := if flag = true then some (.ok true) else none

/-- What the file says about the field. -/
def fileLayer (values : FileConfig) : Field → Layer Bytes Value
  | .httpAddress => (textLayer values.http.address).map .text
  | .httpReadTimeout => (durationLayer P values.http.readTimeout).map .number
  | .httpReadHeaderTimeout => (durationLayer P values.http.readHeaderTimeout).map .number
  | .httpWriteTimeout => (durationLayer P values.http.writeTimeout).map .number
  | .httpIdleTimeout => (durationLayer P values.http.idleTimeout).map .number
  | .httpMaxHeaderBytes => (numberLayer values.http.maxHeaderBytes).map .number
  | .httpMaxConcurrentRequests => (numberLayer values.http.maxConcurrentRequests).map .number
  | .httpQueueTimeout => (durationLayer P values.http.queueTimeout).map .number
  | .postgresURL => (textLayer values.postgres.url).map .text
  | .postgresMaxConnections => (numberLayer values.postgres.maxConnections).map .number
  | .postgresMinConnections => (numberLayer values.postgres.minConnections).map .number
  | .postgresConnectTimeout => (durationLayer P values.postgres.connectTimeout).map .number
  | .postgresMaxMessageBytes => (numberLayer values.postgres.maxMessageBytes).map .number
  | .postgresAllowInsecure => (flagLayer values.postgres.allowInsecure).map .flag
  | .shutdownTimeout => (durationLayer P values.shutdownTimeout).map .number

/-- How the text of the field's variable is read. -/
def Field.parse : Field → Bytes → Except Bytes Value
  | .httpAddress | .postgresURL => fun text => .ok (.text text)
  | .httpReadTimeout | .httpReadHeaderTimeout | .httpWriteTimeout | .httpIdleTimeout
  | .httpQueueTimeout | .postgresConnectTimeout | .shutdownTimeout =>
    fun text => (P.parseDuration text).map .number
  | .httpMaxHeaderBytes | .httpMaxConcurrentRequests | .postgresMaxMessageBytes =>
    fun text => (atoi P text).map .number
  | .postgresMaxConnections | .postgresMinConnections =>
    fun text => (parseInt32 P text).map .number
  | .postgresAllowInsecure => fun text => (parseBool P text).map .flag

/-- What the environment says about the field. -/
def environmentLayer (environment : Environment) (field : Field) : Layer Bytes Value :=
  (environment field.variable).map (field.parse P)

/-- What the command line says about the field. -/
def overrideLayer (overrides : Overrides) : Field → Layer Bytes Value
  | .httpAddress => (textLayer overrides.httpAddress).map .text
  | _ => none

/-- The value of the field by its layers. -/
def resolve (environment : Environment) (overrides : Overrides) (values : FileConfig)
    (field : Field) : Except Bytes Value :=
  choose [overrideLayer overrides field, environmentLayer P environment field,
    fileLayer P values field] (get defaults field)

/-- No file is named and nothing is given by one, or the named file can be read and holds one
value. -/
def FileGiven (environment : Environment) (overrides : Overrides) (values : FileConfig) : Prop :=
  (configFilename environment overrides = [] ∧ values = FileConfig.zero) ∨
  (configFilename environment overrides ≠ [] ∧ ∃ contents rest,
    P.readFile (configFilename environment overrides) = .ok contents ∧
    P.decode contents = .ok (values, rest) ∧ rest.all isSpace = true)

end Layers

/-! ## One layer at a time -/

section Steps

variable {P : Platform} {environment : Environment} {overrides : Overrides}
variable {cfg cfg' : Config} {values : FileConfig}

theorem number_injective : Function.Injective Value.number := fun _ _ same => Value.number.inj same

theorem text_injective : Function.Injective Value.text := fun _ _ same => Value.text.inj same

theorem flag_injective : Function.Injective Value.flag := fun _ _ same => Value.flag.inj same

/-- The fields determine the configuration. -/
theorem eq_of_get (same : ∀ field, get cfg field = get cfg' field) : cfg = cfg' := by
  obtain ⟨⟨_, _, _, _, _, _, _, _⟩, ⟨_, _, _, _, _, _⟩, _⟩ := cfg
  obtain ⟨⟨_, _, _, _, _, _, _, _⟩, ⟨_, _, _, _, _, _⟩, _⟩ := cfg'
  cases same .httpAddress
  cases same .httpReadTimeout
  cases same .httpReadHeaderTimeout
  cases same .httpWriteTimeout
  cases same .httpIdleTimeout
  cases same .httpMaxHeaderBytes
  cases same .httpMaxConcurrentRequests
  cases same .httpQueueTimeout
  cases same .postgresURL
  cases same .postgresMaxConnections
  cases same .postgresMinConnections
  cases same .postgresConnectTimeout
  cases same .postgresMaxMessageBytes
  cases same .postgresAllowInsecure
  cases same .shutdownTimeout
  rfl

theorem fileDuration_ok {subject : String} {text : Bytes} {current value : Int} :
    fileDuration P subject text current = .ok value ↔
      choose [durationLayer P text] current = .ok value := by
  unfold fileDuration durationLayer
  split
  · exact mapError_eq_ok
  · exact Iff.rfl

theorem choose_textLayer (text current : Bytes) :
    choose [textLayer text] current = .ok (fileText text current) := by
  unfold textLayer fileText
  split <;> rfl

theorem choose_numberLayer (number : Option Int) (current : Int) :
    choose [numberLayer number] current = .ok (fileNumber number current) := by
  cases number <;> rfl

theorem choose_flagLayer (flag current : Bool) :
    choose [flagLayer flag] current = .ok (fileFlag flag current) := by
  unfold flagLayer fileFlag
  split <;> rfl

/-- Applying the file puts its layer over the fields. -/
theorem get_applyValues (applied : applyValues P cfg values = .ok cfg') (field : Field) :
    choose [fileLayer P values field] (get cfg field) = .ok (get cfg' field) := by
  simp only [applyValues, bind_eq_ok, fileDuration_ok] at applied
  obtain ⟨_, h1, _, h2, _, h3, _, h4, _, h5, _, h6, _, h7, result⟩ := applied
  cases result
  cases field with
  | httpAddress => exact (choose_map_ok text_injective).mpr (choose_textLayer _ _)
  | httpReadTimeout => exact (choose_map_ok number_injective).mpr h1
  | httpReadHeaderTimeout => exact (choose_map_ok number_injective).mpr h2
  | httpWriteTimeout => exact (choose_map_ok number_injective).mpr h4
  | httpIdleTimeout => exact (choose_map_ok number_injective).mpr h5
  | httpMaxHeaderBytes => exact (choose_map_ok number_injective).mpr (choose_numberLayer _ _)
  | httpMaxConcurrentRequests =>
    exact (choose_map_ok number_injective).mpr (choose_numberLayer _ _)
  | httpQueueTimeout => exact (choose_map_ok number_injective).mpr h3
  | postgresURL => exact (choose_map_ok text_injective).mpr (choose_textLayer _ _)
  | postgresMaxConnections => exact (choose_map_ok number_injective).mpr (choose_numberLayer _ _)
  | postgresMinConnections => exact (choose_map_ok number_injective).mpr (choose_numberLayer _ _)
  | postgresConnectTimeout => exact (choose_map_ok number_injective).mpr h6
  | postgresMaxMessageBytes => exact (choose_map_ok number_injective).mpr (choose_numberLayer _ _)
  | postgresAllowInsecure => exact (choose_map_ok flag_injective).mpr (choose_flagLayer _ _)
  | shutdownTimeout => exact (choose_map_ok number_injective).mpr h7

/-- A file whose durations parse is applied. -/
theorem applyValues_of_parses (cfg : Config)
    (parses : ∀ field, (fileLayer P values field).Parses) :
    ∃ cfg', applyValues P cfg values = .ok cfg' := by
  have durations : ∀ text (current : Int),
      Layer.Parses ((durationLayer P text).map Value.number) →
      ∃ value, ∀ subject, fileDuration P subject text current = .ok value := by
    intro text current mapped
    obtain ⟨value, chosen⟩ := choose_of_parses (Layer.parses_map.mp mapped) current
    exact ⟨value, fun _ => fileDuration_ok.mpr chosen⟩
  obtain ⟨_, h1⟩ := durations _ cfg.http.readTimeout (parses .httpReadTimeout)
  obtain ⟨_, h2⟩ := durations _ cfg.http.readHeaderTimeout (parses .httpReadHeaderTimeout)
  obtain ⟨_, h3⟩ := durations _ cfg.http.queueTimeout (parses .httpQueueTimeout)
  obtain ⟨_, h4⟩ := durations _ cfg.http.writeTimeout (parses .httpWriteTimeout)
  obtain ⟨_, h5⟩ := durations _ cfg.http.idleTimeout (parses .httpIdleTimeout)
  obtain ⟨_, h6⟩ := durations _ cfg.postgres.connectTimeout (parses .postgresConnectTimeout)
  obtain ⟨_, h7⟩ := durations _ cfg.shutdownTimeout (parses .shutdownTimeout)
  simp only [applyValues, h1, h2, h3, h4, h5, h6, h7]
  exact ⟨_, rfl⟩

theorem parsedEnv_ok {α : Type} {parse : Bytes → Except Bytes α} {name : String}
    {fallback value : α} : parsedEnv environment parse name fallback = .ok value ↔
      choose [(environment name).map parse] fallback = .ok value := by
  unfold parsedEnv
  cases environment name with
  | none => exact Iff.rfl
  | some text => exact mapError_eq_ok

theorem choose_envOr (name : String) (fallback : Bytes) :
    choose [(environment name).map fun text => (.ok text : Except Bytes Bytes)] fallback =
      .ok (envOr environment name fallback) := by
  unfold envOr
  cases environment name <;> rfl

/-- A variable read as a value of a field. -/
theorem choose_parsed {α : Type} {parse : Bytes → Except Bytes α} {wrap : α → Value}
    (injective : Function.Injective wrap) {name : String} {fallback value : α} :
    choose [(environment name).map fun text => (parse text).map wrap] (wrap fallback) =
        .ok (wrap value) ↔
      choose [(environment name).map parse] fallback = .ok value := by
  rw [← choose_map_ok injective]
  cases environment name <;> rfl

/-- Reading the environment puts its layer over the fields. -/
theorem get_applyEnvironment (applied : applyEnvironment P environment cfg = .ok cfg')
    (field : Field) :
    choose [environmentLayer P environment field] (get cfg field) = .ok (get cfg' field) := by
  simp only [applyEnvironment, durationEnv, int32Env, intEnv, boolEnv, bind_eq_ok,
    parsedEnv_ok] at applied
  obtain ⟨_, h1, _, h2, _, h3, _, h4, _, h5, _, h6, _, h7, _, h8, _, h9, _, h10, _, h11, _, h12,
    _, h13, result⟩ := applied
  cases result
  cases field with
  | httpAddress => exact (choose_parsed text_injective).mpr (choose_envOr _ _)
  | httpReadTimeout => exact (choose_parsed number_injective).mpr h7
  | httpReadHeaderTimeout => exact (choose_parsed number_injective).mpr h8
  | httpWriteTimeout => exact (choose_parsed number_injective).mpr h10
  | httpIdleTimeout => exact (choose_parsed number_injective).mpr h11
  | httpMaxHeaderBytes => exact (choose_parsed number_injective).mpr h1
  | httpMaxConcurrentRequests => exact (choose_parsed number_injective).mpr h2
  | httpQueueTimeout => exact (choose_parsed number_injective).mpr h9
  | postgresURL => exact (choose_parsed text_injective).mpr (choose_envOr _ _)
  | postgresMaxConnections => exact (choose_parsed number_injective).mpr h3
  | postgresMinConnections => exact (choose_parsed number_injective).mpr h4
  | postgresConnectTimeout => exact (choose_parsed number_injective).mpr h13
  | postgresMaxMessageBytes => exact (choose_parsed number_injective).mpr h5
  | postgresAllowInsecure => exact (choose_parsed flag_injective).mpr h6
  | shutdownTimeout => exact (choose_parsed number_injective).mpr h12

/-- An environment whose variables parse is applied. -/
theorem applyEnvironment_of_parses (cfg : Config)
    (parses : ∀ field, (environmentLayer P environment field).Parses) :
    ∃ cfg', applyEnvironment P environment cfg = .ok cfg' := by
  have parsed : ∀ {α : Type} (parse : Bytes → Except Bytes α) (wrap : α → Value) (name : String)
      (fallback : α),
      Layer.Parses ((environment name).map fun text => (parse text).map wrap) →
      ∃ value, parsedEnv environment parse name fallback = .ok value := by
    intro α parse wrap name fallback wrapped
    have layer : Layer.Parses ((environment name).map parse) := by
      rw [← Layer.parses_map (f := wrap)]
      rw [Layer.map, Option.map_map]
      exact wrapped
    obtain ⟨value, chosen⟩ := choose_of_parses layer fallback
    exact ⟨value, parsedEnv_ok.mpr chosen⟩
  obtain ⟨_, h1⟩ := parsed _ _ _ cfg.http.maxHeaderBytes (parses .httpMaxHeaderBytes)
  obtain ⟨_, h2⟩ := parsed _ _ _ cfg.http.maxConcurrentRequests
    (parses .httpMaxConcurrentRequests)
  obtain ⟨_, h3⟩ := parsed _ _ _ cfg.postgres.maxConnections (parses .postgresMaxConnections)
  obtain ⟨_, h4⟩ := parsed _ _ _ cfg.postgres.minConnections (parses .postgresMinConnections)
  obtain ⟨_, h5⟩ := parsed _ _ _ cfg.postgres.maxMessageBytes (parses .postgresMaxMessageBytes)
  obtain ⟨_, h6⟩ := parsed _ _ _ cfg.postgres.allowInsecure (parses .postgresAllowInsecure)
  obtain ⟨_, h7⟩ := parsed _ _ _ cfg.http.readTimeout (parses .httpReadTimeout)
  obtain ⟨_, h8⟩ := parsed _ _ _ cfg.http.readHeaderTimeout (parses .httpReadHeaderTimeout)
  obtain ⟨_, h9⟩ := parsed _ _ _ cfg.http.queueTimeout (parses .httpQueueTimeout)
  obtain ⟨_, h10⟩ := parsed _ _ _ cfg.http.writeTimeout (parses .httpWriteTimeout)
  obtain ⟨_, h11⟩ := parsed _ _ _ cfg.http.idleTimeout (parses .httpIdleTimeout)
  obtain ⟨_, h12⟩ := parsed _ _ _ cfg.shutdownTimeout (parses .shutdownTimeout)
  obtain ⟨_, h13⟩ := parsed _ _ _ cfg.postgres.connectTimeout (parses .postgresConnectTimeout)
  simp only [Field.variable] at h1 h2 h3 h4 h5 h6 h7 h8 h9 h10 h11 h12 h13
  simp only [applyEnvironment, durationEnv, int32Env, intEnv, boolEnv, h1, h2, h3, h4, h5, h6,
    h7, h8, h9, h10, h11, h12, h13]
  exact ⟨_, rfl⟩

/-- The override is a layer over the fields. -/
theorem get_applyOverrides (overrides : Overrides) (cfg : Config) (field : Field) :
    choose [overrideLayer overrides field] (get cfg field) =
      .ok (get (applyOverrides overrides cfg) field) := by
  by_cases absent : overrides.httpAddress = []
  · have same : applyOverrides overrides cfg = cfg := by simp [applyOverrides, absent]
    have silent : overrideLayer overrides field = none := by
      cases field <;> simp [overrideLayer, textLayer, absent, Layer.map]
    rw [same, silent]
    rfl
  · cases field <;> simp [overrideLayer, textLayer, absent, Layer.map, applyOverrides, choose,
      get, Except.map]

/-! ## All layers -/

theorem fileLayer_zero (field : Field) : fileLayer P FileConfig.zero field = none := by
  cases field <;> rfl

theorem readValues_ok {filename : Bytes} : readValues P filename = .ok values ↔
    ∃ contents rest, P.readFile filename = .ok contents ∧
      P.decode contents = .ok (values, rest) ∧ rest.all isSpace = true := by
  simp only [readValues, bind_eq_ok, mapError_eq_ok]
  constructor
  · rintro ⟨contents, read, ⟨decoded, rest⟩, decodes, single⟩
    by_cases blank : rest.all isSpace = true
    · simp only [blank, if_true] at single
      cases single
      exact ⟨contents, rest, read, decodes, blank⟩
    · simp only [blank, if_false, Bool.false_eq_true] at single
      cases single
  · rintro ⟨contents, rest, read, decodes, blank⟩
    refine ⟨contents, read, (values, rest), decodes, ?_⟩
    simp only [blank, if_true]
    rfl

/-- The first step gives the file's layer over the defaults. -/
theorem applied_of_fileGiven (given : FileGiven P environment overrides values)
    (parses : ∀ field, (fileLayer P values field).Parses) :
    ∃ cfg, defaultsAndFile P environment overrides = .ok cfg ∧
      ∀ field, choose [fileLayer P values field] (get defaults field) = .ok (get cfg field) := by
  rcases given with ⟨unnamed, rfl⟩ | ⟨named, read⟩
  · refine ⟨defaults, if_neg (not_not_intro unnamed), fun field => ?_⟩
    rw [fileLayer_zero]
    rfl
  · obtain ⟨cfg, applied⟩ := applyValues_of_parses defaults parses
    refine ⟨cfg, ?_, get_applyValues applied⟩
    rw [defaultsAndFile, if_pos named, applyFile, bind_eq_ok]
    exact ⟨values, readValues_ok.mpr read, applied⟩

theorem fileGiven_of_applied (applied : defaultsAndFile P environment overrides = .ok cfg) :
    ∃ values, FileGiven P environment overrides values ∧
      ∀ field, choose [fileLayer P values field] (get defaults field) = .ok (get cfg field) := by
  by_cases unnamed : configFilename environment overrides = []
  · rw [defaultsAndFile, if_neg (not_not_intro unnamed)] at applied
    cases applied
    refine ⟨FileConfig.zero, Or.inl ⟨unnamed, rfl⟩, fun field => ?_⟩
    rw [fileLayer_zero]
    rfl
  · rw [defaultsAndFile, if_pos unnamed, applyFile, bind_eq_ok] at applied
    obtain ⟨values, read, applied⟩ := applied
    exact ⟨values, Or.inr ⟨unnamed, readValues_ok.mp read⟩, get_applyValues applied⟩

/-- Three steps, each with its own layer, resolve the fields. -/
theorem resolve_of_steps (overrides : Overrides) {fromFile fromEnvironment : Config}
    (file : ∀ field, choose [fileLayer P values field] (get defaults field) =
      .ok (get fromFile field))
    (read : applyEnvironment P environment fromFile = .ok fromEnvironment) (field : Field) :
    resolve P environment overrides values field =
      .ok (get (applyOverrides overrides fromEnvironment) field) := by
  have lower : choose [environmentLayer P environment field, fileLayer P values field]
      (get defaults field) = .ok (get fromEnvironment field) :=
    (choose_cons (file field)).trans (get_applyEnvironment read field)
  exact (choose_cons lower).trans (get_applyOverrides overrides fromEnvironment field)

theorem assemble_ok : assemble P environment overrides = .ok cfg ↔
    ∃ values, FileGiven P environment overrides values ∧
      (∀ field, (environmentLayer P environment field).Parses) ∧
      (∀ field, (fileLayer P values field).Parses) ∧
      ∀ field, resolve P environment overrides values field = .ok (get cfg field) := by
  simp only [assemble, bind_eq_ok]
  constructor
  · rintro ⟨fromFile, applied, fromEnvironment, read, result⟩
    cases result
    obtain ⟨values, given, file⟩ := fileGiven_of_applied applied
    exact ⟨values, given, fun field => parses_of_choose (get_applyEnvironment read field),
      fun field => parses_of_choose (file field), resolve_of_steps overrides file read⟩
  · rintro ⟨values, given, settings, durations, resolved⟩
    obtain ⟨fromFile, applied, file⟩ := applied_of_fileGiven given durations
    obtain ⟨fromEnvironment, read⟩ := applyEnvironment_of_parses fromFile settings
    refine ⟨fromFile, applied, fromEnvironment, read, congrArg Except.ok (eq_of_get ?_)⟩
    intro field
    have steps := resolve_of_steps overrides file read field
    rw [resolved field] at steps
    exact (Except.ok.inj steps).symm

theorem loadWithOverrides_ok : loadWithOverrides P environment overrides = .ok cfg ↔
    assemble P environment overrides = .ok cfg ∧ cfg.validate = .ok () := by
  simp only [loadWithOverrides, bind_eq_ok, mapError_eq_ok]
  constructor
  · rintro ⟨assembled, steps, _, valid, result⟩
    cases result
    exact ⟨steps, valid⟩
  · rintro ⟨steps, valid⟩
    exact ⟨cfg, steps, (), valid, rfl⟩

end Steps

/-! ## Checks -/

/-- What the checks of a configuration establish. -/
structure Valid (c : Config) : Prop where
  address : c.http.address ≠ []
  readTimeout : 0 < c.http.readTimeout
  readHeaderTimeout : 0 < c.http.readHeaderTimeout
  maxHeaderBytes : 0 < c.http.maxHeaderBytes
  maxConcurrentRequests : 0 < c.http.maxConcurrentRequests
  queueTimeout : 0 ≤ c.http.queueTimeout
  writeTimeout : 0 < c.http.writeTimeout
  idleTimeout : 0 < c.http.idleTimeout
  shutdownTimeout : 0 < c.shutdownTimeout
  maxConnections : 0 < c.postgres.maxConnections
  minConnections : 0 ≤ c.postgres.minConnections ∧
    c.postgres.minConnections ≤ c.postgres.maxConnections
  connectTimeout : 0 < c.postgres.connectTimeout
  maxMessageBytes : 0 < c.postgres.maxMessageBytes

theorem valid_of_validate {c : Config} (accepted : c.validate = .ok ()) : Valid c := by
  simp only [Config.validate, ite_error_eq_ok, not_le, not_lt, not_or, gt_iff_lt] at accepted
  obtain ⟨address, read, header, bytes, requests, queue, write, idle, shutdown, maximum, minimum,
    connect, message, _⟩ := accepted
  exact ⟨address, read, header, bytes, requests, queue, write, idle, shutdown, maximum, minimum,
    connect, message⟩

section Accepted

variable {c : Config} (valid : Valid c)
include valid

theorem newApp_accepts {name : Bytes} (named : name ≠ []) (version : Bytes) :
    newApp (c.appOptions name version) = .ok ⟨c.appOptions name version⟩ := by
  simp only [newApp, ite_error_eq_ok, not_le, not_or]
  exact ⟨named, valid.address, Bool.noConfusion, ⟨valid.readTimeout, valid.readHeaderTimeout,
    valid.writeTimeout, valid.idleTimeout, valid.shutdownTimeout⟩, valid.maxHeaderBytes, trivial⟩

theorem limitConcurrency_accepts :
    ∃ limiter, limitConcurrency c.http.maxConcurrentRequests c.http.queueTimeout = .ok limiter := by
  have positive := valid.maxConcurrentRequests
  have nonnegative := valid.queueTimeout
  rw [limitConcurrency, dif_neg (by omega), dif_neg (by omega)]
  exact ⟨_, rfl⟩

theorem postgres_accepts (given : c.postgres.url ≠ []) : c.postgres.validateOptions = .ok () := by
  simp only [Postgres.validateOptions, ite_error_eq_ok, not_le, not_lt, not_or, gt_iff_lt]
  exact ⟨given, valid.maxConnections, valid.minConnections, valid.connectTimeout,
    valid.maxMessageBytes, trivial⟩

end Accepted

/-! ## Results -/

theorem variable_injective : Function.Injective Field.variable := by
  intro field field' same
  cases field <;> cases field' <;> first | rfl | exact absurd same (by decide)

theorem variable_ne_configFile (field : Field) : field.variable ≠ "SWF_CONFIG_FILE" := by
  cases field <;> decide

theorem loaded_iff (P : Platform) (environment : Environment) (overrides : Overrides)
    (cfg : Config) : loadWithOverrides P environment overrides = .ok cfg ↔
      ∃ values, FileGiven P environment overrides values ∧
        (∀ field, (environmentLayer P environment field).Parses) ∧
        (∀ field, (fileLayer P values field).Parses) ∧
        (∀ field, resolve P environment overrides values field = .ok (get cfg field)) ∧
        cfg.validate = .ok () := by
  rw [loadWithOverrides_ok, assemble_ok]
  constructor
  · rintro ⟨⟨values, given, settings, durations, resolved⟩, valid⟩
    exact ⟨values, given, settings, durations, resolved, valid⟩
  · rintro ⟨values, given, settings, durations, resolved, valid⟩
    exact ⟨⟨values, given, settings, durations, resolved⟩, valid⟩

theorem fileGiven_unique {P : Platform} {environment : Environment} {overrides : Overrides}
    {values values' : FileConfig} (given : FileGiven P environment overrides values)
    (given' : FileGiven P environment overrides values') : values = values' := by
  rcases given with ⟨unnamed, rfl⟩ | ⟨named, contents, rest, read, decoded, _⟩
  · rcases given' with ⟨_, rfl⟩ | ⟨named, _⟩
    · rfl
    · exact absurd unnamed named
  · rcases given' with ⟨unnamed, _⟩ | ⟨_, contents', rest', read', decoded', _⟩
    · exact absurd unnamed named
    · cases read.symm.trans read'
      cases decoded.symm.trans decoded'
      rfl

/-- A loaded field depends on its own sources only. -/
theorem get_congr {P : Platform} {environment environment' : Environment}
    {overrides overrides' : Overrides} {values values' : FileConfig} {cfg cfg' : Config}
    (given : FileGiven P environment overrides values)
    (given' : FileGiven P environment' overrides' values')
    (loaded : loadWithOverrides P environment overrides = .ok cfg)
    (loaded' : loadWithOverrides P environment' overrides' = .ok cfg') {field : Field}
    (onCommandLine : overrideLayer overrides field = overrideLayer overrides' field)
    (inEnvironment : environment field.variable = environment' field.variable)
    (inFile : fileLayer P values field = fileLayer P values' field) :
    get cfg field = get cfg' field := by
  obtain ⟨_, read, _, _, resolved, _⟩ := (loaded_iff P environment overrides cfg).mp loaded
  obtain ⟨_, read', _, _, resolved', _⟩ := (loaded_iff P environment' overrides' cfg').mp loaded'
  cases fileGiven_unique given read
  cases fileGiven_unique given' read'
  have value := resolved field
  rw [resolve, onCommandLine, environmentLayer, inEnvironment, inFile] at value
  exact Except.ok.inj (value.symm.trans (resolved' field))

/-- Loading succeeds exactly if the file is given, everything parses and the resolved fields pass
the checks; every field depends on its own sources only; and the result is accepted wherever it
is used. -/
theorem configuration_resolved (P : Platform) (environment : Environment)
    (overrides : Overrides) :
    (∀ cfg, loadWithOverrides P environment overrides = .ok cfg ↔
      ∃ values, FileGiven P environment overrides values ∧
        (∀ field, (environmentLayer P environment field).Parses) ∧
        (∀ field, (fileLayer P values field).Parses) ∧
        (∀ field, resolve P environment overrides values field = .ok (get cfg field)) ∧
        cfg.validate = .ok ()) ∧
    (Function.Injective Field.variable ∧ (∀ field : Field, field.variable ≠ "SWF_CONFIG_FILE") ∧
      ∀ environment' overrides' values values' cfg cfg' field,
        FileGiven P environment overrides values → FileGiven P environment' overrides' values' →
        loadWithOverrides P environment overrides = .ok cfg →
        loadWithOverrides P environment' overrides' = .ok cfg' →
        overrideLayer overrides field = overrideLayer overrides' field →
        environment field.variable = environment' field.variable →
        fileLayer P values field = fileLayer P values' field →
        get cfg field = get cfg' field) ∧
    ∀ cfg, loadWithOverrides P environment overrides = .ok cfg →
      (∀ name version, name ≠ [] → ∃ app, newApp (cfg.appOptions name version) = .ok app) ∧
      (∃ limiter,
        limitConcurrency cfg.http.maxConcurrentRequests cfg.http.queueTimeout = .ok limiter) ∧
      (cfg.postgres.url ≠ [] → cfg.postgres.validateOptions = .ok ()) := by
  refine ⟨loaded_iff P environment overrides, ⟨variable_injective, variable_ne_configFile, ?_⟩, ?_⟩
  · intro environment' overrides' values values' cfg cfg' field given given' loaded loaded'
    exact get_congr given given' loaded loaded'
  · intro cfg loaded
    have valid : Valid cfg := valid_of_validate (loadWithOverrides_ok.mp loaded).2
    exact ⟨fun name version named => ⟨_, newApp_accepts valid named version⟩,
      limitConcurrency_accepts valid, postgres_accepts valid⟩

def sampleContents : Bytes := ascii
  "\x7b\"HTTP\":\x7b\"Address\":\"127.0.0.1:9000\",\"ReadTimeout\":\"7s\"\x7d\x7d\n"

/-- A file system with one file, and the library functions at what it holds. -/
def samplePlatform : Platform where
  readFile := fun name =>
    if name = ascii "config.json" then .ok sampleContents
    else .error (ascii "open: no such file or directory")
  decode := fun contents =>
    if contents = sampleContents then
      .ok (⟨⟨ascii "127.0.0.1:9000", ascii "7s", [], [], [], [], none, none⟩,
        FileConfig.zero.postgres, []⟩, [10])
    else .error (ascii "invalid character")
  parseDuration := fun text =>
    if text = ascii "7s" then .ok (7 * second)
    else .error (ascii "time: invalid duration")
  numError := fun function text =>
    ascii "strconv." ++ ascii function ++ ascii ": parsing " ++ text

/-- A file, a variable and an override for the address beside two other fields. -/
def sampleEnvironment : Environment := fun name =>
  if name = "SWF_CONFIG_FILE" then some (ascii "config.json")
  else if name = "SWF_HTTP_ADDRESS" then some (ascii "127.0.0.1:9001")
  else if name = "SWF_POSTGRES_MAX_CONNECTIONS" then some (ascii "4")
  else none

def sampleOverrides : Overrides := ⟨[], ascii "127.0.0.1:9002"⟩

def sampleConfig : Config :=
  { defaults with
    http := { defaults.http with address := ascii "127.0.0.1:9002", readTimeout := 7 * second }
    postgres := { defaults.postgres with maxConnections := 4 } }

theorem configuration_resolved_sample :
    loadWithOverrides samplePlatform sampleEnvironment sampleOverrides = .ok sampleConfig ∧
    ∃ limiter, limitConcurrency sampleConfig.http.maxConcurrentRequests
      sampleConfig.http.queueTimeout = .ok limiter := by
  have loaded : loadWithOverrides samplePlatform sampleEnvironment sampleOverrides =
      .ok sampleConfig := by
    decide +kernel
  have accepted := (configuration_resolved samplePlatform sampleEnvironment sampleOverrides).2.2
  exact ⟨loaded, (accepted sampleConfig loaded).2.1⟩

end ConfigurationLayers
