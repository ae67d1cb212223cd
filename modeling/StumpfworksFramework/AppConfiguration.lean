import StumpfworksFramework.Decimals
import StumpfworksFramework.Instants

/-!
# Application configuration

`LoadWithOverrides` with its file, its environment variables and its checks, and
the constructors that receive the result. The file system, the JSON decoder and
`time.ParseDuration` are parameters, and so are the texts of `strconv` errors;
the numbers and truth values that `strconv` accepts are spelled out. Durations
are in nanoseconds. Whether a duration assigned before an error was seen is kept
does not matter, since an error discards the configuration.
-/

namespace AppConfiguration

open ByteStrings Decimals Instants

/-! ## Configurations -/

structure HTTP where
  address : Bytes
  readTimeout : Int
  readHeaderTimeout : Int
  writeTimeout : Int
  idleTimeout : Int
  maxHeaderBytes : Int
  maxConcurrentRequests : Int
  queueTimeout : Int
  deriving DecidableEq, Repr

structure Postgres where
  url : Bytes
  maxConnections : Int
  minConnections : Int
  connectTimeout : Int
  maxMessageBytes : Int
  allowInsecure : Bool
  deriving DecidableEq, Repr

structure Config where
  http : HTTP
  postgres : Postgres
  shutdownTimeout : Int
  deriving DecidableEq, Repr

/-- The decoded file: strings are empty and numbers absent where it says nothing. -/
structure FileHTTP where
  address : Bytes
  readTimeout : Bytes
  readHeaderTimeout : Bytes
  writeTimeout : Bytes
  idleTimeout : Bytes
  queueTimeout : Bytes
  maxHeaderBytes : Option Int
  maxConcurrentRequests : Option Int
  deriving DecidableEq, Repr

structure FilePostgres where
  url : Bytes
  maxConnections : Option Int
  minConnections : Option Int
  maxMessageBytes : Option Int
  connectTimeout : Bytes
  allowInsecure : Bool
  deriving DecidableEq, Repr

structure FileConfig where
  http : FileHTTP
  postgres : FilePostgres
  shutdownTimeout : Bytes
  deriving DecidableEq, Repr

def FileConfig.zero : FileConfig where
  http := ⟨[], [], [], [], [], [], none, none⟩
  postgres := ⟨[], none, none, none, [], false⟩
  shutdownTimeout := []

structure Overrides where
  configFile : Bytes
  httpAddress : Bytes
  deriving DecidableEq, Repr

/-- The variables that are set. -/
abbrev Environment := String → Option Bytes

/-- What is taken from the standard library. `decode` reads one value without unknown fields and
leaves the rest of the text; `numError` is the text of an error of a `strconv` function. -/
structure Platform where
  readFile : Bytes → Except Bytes Bytes
  decode : Bytes → Except Bytes (FileConfig × Bytes)
  parseDuration : Bytes → Except Bytes Int
  numError : String → Bytes → Bytes

def millisecond : Int := 10 ^ 6

def defaults : Config where
  http := ⟨ascii "127.0.0.1:8080", 5 * second, 5 * second, 10 * second, 60 * second, 1 <<< 20,
    128, 100 * millisecond⟩
  postgres := ⟨[], 10, 1, 5 * second, 16 <<< 20, false⟩
  shutdownTimeout := 10 * second

/-! ## The file -/

section Loading

variable (P : Platform)

def parseError (subject : String) (cause : Bytes) : Bytes :=
  ascii "parse " ++ ascii subject ++ ascii ": " ++ cause

def fileText (value current : Bytes) : Bytes := if value ≠ [] then value else current

def fileDuration (subject : String) (value : Bytes) (current : Int) : Except Bytes Int :=
  if value ≠ [] then (P.parseDuration value).mapError (parseError subject) else .ok current

def fileNumber (value : Option Int) (current : Int) : Int := value.getD current

def fileFlag (value current : Bool) : Bool := if value = true then true else current

/-- The part of `applyFile` after decoding. -/
def applyValues (cfg : Config) (values : FileConfig) : Except Bytes Config := do
  let readTimeout ← fileDuration P "HTTP read timeout" values.http.readTimeout
    cfg.http.readTimeout
  let readHeaderTimeout ← fileDuration P "HTTP read header timeout" values.http.readHeaderTimeout
    cfg.http.readHeaderTimeout
  let queueTimeout ← fileDuration P "HTTP queue timeout" values.http.queueTimeout
    cfg.http.queueTimeout
  let writeTimeout ← fileDuration P "HTTP write timeout" values.http.writeTimeout
    cfg.http.writeTimeout
  let idleTimeout ← fileDuration P "HTTP idle timeout" values.http.idleTimeout
    cfg.http.idleTimeout
  let connectTimeout ← fileDuration P "PostgreSQL connect timeout" values.postgres.connectTimeout
    cfg.postgres.connectTimeout
  let shutdownTimeout ← fileDuration P "shutdown timeout" values.shutdownTimeout
    cfg.shutdownTimeout
  return {
    http := {
      address := fileText values.http.address cfg.http.address
      readTimeout
      readHeaderTimeout
      writeTimeout
      idleTimeout
      maxHeaderBytes := fileNumber values.http.maxHeaderBytes cfg.http.maxHeaderBytes
      maxConcurrentRequests :=
        fileNumber values.http.maxConcurrentRequests cfg.http.maxConcurrentRequests
      queueTimeout }
    postgres := {
      url := fileText values.postgres.url cfg.postgres.url
      maxConnections := fileNumber values.postgres.maxConnections cfg.postgres.maxConnections
      minConnections := fileNumber values.postgres.minConnections cfg.postgres.minConnections
      connectTimeout
      maxMessageBytes := fileNumber values.postgres.maxMessageBytes cfg.postgres.maxMessageBytes
      allowInsecure := fileFlag values.postgres.allowInsecure cfg.postgres.allowInsecure }
    shutdownTimeout }

/-- The part of `applyFile` that reads and decodes. A second `Decode` finds the end of the input
if only blanks are left. -/
def readValues (filename : Bytes) : Except Bytes FileConfig := do
  let contents ← (P.readFile filename).mapError (ascii "read configuration file: " ++ ·)
  let (values, rest) ← (P.decode contents).mapError (ascii "parse configuration file: " ++ ·)
  if rest.all isSpace = true then return values
  else .error (ascii "parse configuration file: multiple JSON values")

def applyFile (cfg : Config) (filename : Bytes) : Except Bytes Config := do
  let values ← readValues P filename
  applyValues P cfg values

/-! ## The environment -/

def atoi (text : Bytes) : Except Bytes Int :=
  match readDecimal text with
  | none => .error (P.numError "Atoi" text)
  | some i => if -2 ^ 63 ≤ i ∧ i < 2 ^ 63 then .ok i else .error (P.numError "Atoi" text)

/-- `strconv.ParseInt` with base 10 and 32 bits. -/
def parseInt32 (text : Bytes) : Except Bytes Int :=
  match readDecimal text with
  | none => .error (P.numError "ParseInt" text)
  | some i => if -2 ^ 31 ≤ i ∧ i < 2 ^ 31 then .ok i else .error (P.numError "ParseInt" text)

def parseBool (text : Bytes) : Except Bytes Bool :=
  if text ∈ ["1", "t", "T", "TRUE", "true", "True"].map ascii then .ok true
  else if text ∈ ["0", "f", "F", "FALSE", "false", "False"].map ascii then .ok false
  else .error (P.numError "ParseBool" text)

variable (environment : Environment)

def envOr (name : String) (fallback : Bytes) : Bytes := (environment name).getD fallback

/-- The fallback, or the variable's value if it is set and parses. -/
def parsedEnv {α : Type} (parse : Bytes → Except Bytes α) (name : String) (fallback : α) :
    Except Bytes α :=
  match environment name with
  | none => .ok fallback
  | some value => (parse value).mapError (parseError name)

def durationEnv (name : String) (fallback : Int) : Except Bytes Int :=
  parsedEnv environment P.parseDuration name fallback

def int32Env (name : String) (fallback : Int) : Except Bytes Int :=
  parsedEnv environment (parseInt32 P) name fallback

def intEnv (name : String) (fallback : Int) : Except Bytes Int :=
  parsedEnv environment (atoi P) name fallback

def boolEnv (name : String) (fallback : Bool) : Except Bytes Bool :=
  parsedEnv environment (parseBool P) name fallback

/-- The part of `LoadWithOverrides` that reads the variables of the fields. -/
def applyEnvironment (cfg : Config) : Except Bytes Config := do
  let maxHeaderBytes ← intEnv P environment "SWF_HTTP_MAX_HEADER_BYTES" cfg.http.maxHeaderBytes
  let maxConcurrentRequests ← intEnv P environment "SWF_HTTP_MAX_CONCURRENT_REQUESTS"
    cfg.http.maxConcurrentRequests
  let maxConnections ← int32Env P environment "SWF_POSTGRES_MAX_CONNECTIONS"
    cfg.postgres.maxConnections
  let minConnections ← int32Env P environment "SWF_POSTGRES_MIN_CONNECTIONS"
    cfg.postgres.minConnections
  let maxMessageBytes ← intEnv P environment "SWF_POSTGRES_MAX_MESSAGE_BYTES"
    cfg.postgres.maxMessageBytes
  let allowInsecure ← boolEnv P environment "SWF_POSTGRES_ALLOW_INSECURE"
    cfg.postgres.allowInsecure
  let readTimeout ← durationEnv P environment "SWF_HTTP_READ_TIMEOUT" cfg.http.readTimeout
  let readHeaderTimeout ← durationEnv P environment "SWF_HTTP_READ_HEADER_TIMEOUT"
    cfg.http.readHeaderTimeout
  let queueTimeout ← durationEnv P environment "SWF_HTTP_QUEUE_TIMEOUT" cfg.http.queueTimeout
  let writeTimeout ← durationEnv P environment "SWF_HTTP_WRITE_TIMEOUT" cfg.http.writeTimeout
  let idleTimeout ← durationEnv P environment "SWF_HTTP_IDLE_TIMEOUT" cfg.http.idleTimeout
  let shutdownTimeout ← durationEnv P environment "SWF_SHUTDOWN_TIMEOUT" cfg.shutdownTimeout
  let connectTimeout ← durationEnv P environment "SWF_POSTGRES_CONNECT_TIMEOUT"
    cfg.postgres.connectTimeout
  return {
    http := {
      address := envOr environment "SWF_HTTP_ADDRESS" cfg.http.address
      readTimeout
      readHeaderTimeout
      writeTimeout
      idleTimeout
      maxHeaderBytes
      maxConcurrentRequests
      queueTimeout }
    postgres := {
      url := envOr environment "SWF_POSTGRES_URL" cfg.postgres.url
      maxConnections
      minConnections
      connectTimeout
      maxMessageBytes
      allowInsecure }
    shutdownTimeout }

/-! ## Checks -/

def Config.validate (c : Config) : Except Bytes Unit :=
  if c.http.address = [] then .error (ascii "HTTP address must not be empty")
  else if c.http.readTimeout ≤ 0 then .error (ascii "HTTP read timeout must be positive")
  else if c.http.readHeaderTimeout ≤ 0 then
    .error (ascii "HTTP read header timeout must be positive")
  else if c.http.maxHeaderBytes ≤ 0 then .error (ascii "HTTP max header bytes must be positive")
  else if c.http.maxConcurrentRequests ≤ 0 then
    .error (ascii "HTTP max concurrent requests must be positive")
  else if c.http.queueTimeout < 0 then .error (ascii "HTTP queue timeout must not be negative")
  else if c.http.writeTimeout ≤ 0 then .error (ascii "HTTP write timeout must be positive")
  else if c.http.idleTimeout ≤ 0 then .error (ascii "HTTP idle timeout must be positive")
  else if c.shutdownTimeout ≤ 0 then .error (ascii "shutdown timeout must be positive")
  else if c.postgres.maxConnections ≤ 0 then
    .error (ascii "PostgreSQL max connections must be positive")
  else if c.postgres.minConnections < 0 ∨ c.postgres.minConnections > c.postgres.maxConnections then
    .error (ascii "PostgreSQL min connections must be between zero and max connections")
  else if c.postgres.connectTimeout ≤ 0 then
    .error (ascii "PostgreSQL connect timeout must be positive")
  else if c.postgres.maxMessageBytes ≤ 0 then
    .error (ascii "PostgreSQL max message bytes must be positive")
  else .ok ()

variable (overrides : Overrides)

/-- The file that is read, if the name is not empty. -/
def configFilename : Bytes :=
  if overrides.configFile ≠ [] then overrides.configFile
  else (environment "SWF_CONFIG_FILE").getD []

def applyOverrides (cfg : Config) : Config :=
  if overrides.httpAddress ≠ [] then
    { cfg with http := { cfg.http with address := overrides.httpAddress } }
  else cfg

/-- The defaults with the file, if there is one. -/
def defaultsAndFile : Except Bytes Config :=
  if configFilename environment overrides ≠ [] then
    applyFile P defaults (configFilename environment overrides)
  else .ok defaults

/-- Defaults, file, environment and overrides, before the checks. -/
def assemble : Except Bytes Config := do
  let cfg ← defaultsAndFile P environment overrides
  let cfg ← applyEnvironment P environment cfg
  return applyOverrides overrides cfg

def loadWithOverrides : Except Bytes Config := do
  let cfg ← assemble P environment overrides
  cfg.validate.mapError (ascii "validate configuration: " ++ ·)
  return cfg

end Loading

/-! ## Where the configuration goes -/

/-- The options of an application; a logger is there or not. -/
structure AppOptions where
  name : Bytes
  version : Bytes
  address : Bytes
  readTimeout : Int
  readHeaderTimeout : Int
  writeTimeout : Int
  idleTimeout : Int
  shutdownTimeout : Int
  maxHeaderBytes : Int
  logger : Bool
  deriving DecidableEq, Repr

/-- An application as `New` returns it, without routes and resources. -/
structure App where
  options : AppOptions
  deriving DecidableEq, Repr

def newApp (options : AppOptions) : Except Bytes App :=
  if options.name = [] then .error (ascii "application name is required")
  else if options.address = [] then .error (ascii "HTTP address is required")
  else if options.logger = false then .error (ascii "logger is required")
  else if options.readTimeout ≤ 0 ∨ options.readHeaderTimeout ≤ 0 ∨ options.writeTimeout ≤ 0 ∨
      options.idleTimeout ≤ 0 ∨ options.shutdownTimeout ≤ 0 then
    .error (ascii "all timeouts must be positive")
  else if options.maxHeaderBytes ≤ 0 then .error (ascii "max header bytes must be positive")
  else .ok ⟨options⟩

/-- The options of a pool, which are those of the configuration. -/
def Postgres.validateOptions (o : Postgres) : Except Bytes Unit :=
  if o.url = [] then .error (ascii "PostgreSQL URL is required")
  else if o.maxConnections ≤ 0 then .error (ascii "PostgreSQL max connections must be positive")
  else if o.minConnections < 0 ∨ o.minConnections > o.maxConnections then
    .error (ascii "PostgreSQL min connections must be between zero and max connections")
  else if o.connectTimeout ≤ 0 then .error (ascii "PostgreSQL connect timeout must be positive")
  else if o.maxMessageBytes ≤ 0 then
    .error (ascii "PostgreSQL max message bytes must be positive")
  else .ok ()

/-- The options that an application makes of its configuration. -/
def Config.appOptions (cfg : Config) (name version : Bytes) : AppOptions where
  name := name
  version := version
  address := cfg.http.address
  readTimeout := cfg.http.readTimeout
  readHeaderTimeout := cfg.http.readHeaderTimeout
  writeTimeout := cfg.http.writeTimeout
  idleTimeout := cfg.http.idleTimeout
  shutdownTimeout := cfg.shutdownTimeout
  maxHeaderBytes := cfg.http.maxHeaderBytes
  logger := true

end AppConfiguration
