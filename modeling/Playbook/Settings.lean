import Playbook.Dialogue
import Playbook.JsonText.Reader
/-!
# Settings

What a service is told by its environment: where the graph database and the language model are,
which data systems there are, how far a walk may go, and where contexts are kept. A variable that is
not set leaves a setting at its default; a number that cannot be read is a fault.
-/

namespace Playbook

abbrev Environment := OrderedMap String String

structure Settings where
  graphAddress : String
  graphUser : String
  graphPassword : String
  graphDatabase : Option String
  poolSize : Int
  acquisitionTimeout : Binary64
  connectionLifetime : Int
  connectionTimeout : Binary64
  keepAlive : Bool
  apiKey : String
  chatModel : String
  chatTimeout : Binary64
  threshold : Binary64
  /-- The address of the system that is the default one unless another is named so. -/
  sqlAddress : String
  /-- The addresses of the systems by name, as they were stated. -/
  sqlSystems : Datum
  limit : Int
  strict : Bool
  cacheLifetime : Int
  audited : Bool
  contextBackend : String
  contextLifetime : Option Binary64
  contextFolder : String
  contextAddress : Option String

namespace Environment

/-- The variables that settings are made of. -/
def names : List String :=
  ["NEO4J_AURA_URI", "NEO4J_AURA_USER", "NEO4J_AURA_PASSWORD", "NEO4J_LOCAL_URI",
    "NEO4J_LOCAL_USER", "NEO4J_LOCAL_PASSWORD", "NEO4J_DATABASE", "NEO4J_MAX_POOL_SIZE",
    "NEO4J_ACQUISITION_TIMEOUT", "NEO4J_MAX_CONNECTION_LIFETIME", "NEO4J_CONNECTION_TIMEOUT",
    "NEO4J_KEEP_ALIVE", "OPENAI_API_KEY", "OPENAI_CHAT_MODEL", "NLU_TIMEOUT",
    "NLU_CONFIDENCE_THRESHOLD", "SQL_URL", "SQL_SYSTEMS", "KGFLOW_MAX_STEPS", "KGFLOW_STRICT",
    "KGFLOW_CACHE_TTL", "KGFLOW_VERIFY", "CONTEXT_BACKEND", "CONTEXT_TTL", "CONTEXT_STORAGE_DIR",
    "REDIS_URL"]

/-- The text of a variable, or a default. -/
def text (env : Environment) (name missing : String) : String :=
  (env.get? name).getD missing

/-- The text of a variable, unless it is empty. -/
def filled? (env : Environment) (name : String) : Option String :=
  (env.get? name).filter (· ≠ "")

def integer (env : Environment) (name : String) (missing : Int) : Except Fault Int :=
  match env.get? name with
  | none => .ok missing
  | some text =>
    match Text.readInteger? text with
    | some i => .ok i
    | none => .error (.unreadable s!"no integer: {Text.quoted text}")

/-- The number that a text writes. -/
def readNumber (text : String) : Except Fault Binary64 :=
  match Text.readFloat? text with
  | some x => .ok x
  | none => .error (.unreadable s!"no number: {Text.quoted text}")

def number (env : Environment) (name : String) (missing : Binary64) : Except Fault Binary64 :=
  match env.get? name with
  | none => .ok missing
  | some text => readNumber text

/-- A number that may be missing. -/
def number? (env : Environment) (name : String) : Except Fault (Option Binary64) :=
  match env.filled? name with
  | none => .ok none
  | some text => some <$> readNumber text

/-- Whether a variable is the word for true, in letters of any case. -/
def flag (env : Environment) (name : String) (missing : Bool) : Bool :=
  match env.get? name with
  | none => missing
  | some text => text.map Char.toLower = "true"

end Environment

namespace Settings

/-- The settings of an environment for a graph database in the cloud or on the same machine. -/
def ofEnvironment (env : Environment) (mode : String) : Except Fault Settings := do
  let place := if mode = "local" then "NEO4J_LOCAL" else "NEO4J_AURA"
  let poolSize ← env.integer "NEO4J_MAX_POOL_SIZE" 50
  let acquisitionTimeout ← env.number "NEO4J_ACQUISITION_TIMEOUT" (.ofInt 60)
  let connectionLifetime ← env.integer "NEO4J_MAX_CONNECTION_LIFETIME" 3600
  let connectionTimeout ← env.number "NEO4J_CONNECTION_TIMEOUT" (.ofInt 30)
  let chatTimeout ← env.number "NLU_TIMEOUT" Recogniser.defaultTimeout
  let threshold ← env.number "NLU_CONFIDENCE_THRESHOLD" Dialogue.defaultThreshold
  let sqlSystems ← JsonText.read ((env.filled? "SQL_SYSTEMS").getD "\x7b\x7d")
  let limit ← env.integer "KGFLOW_MAX_STEPS" Traversal.defaultLimit
  let cacheLifetime ← env.integer "KGFLOW_CACHE_TTL" 300
  let contextLifetime ← env.number? "CONTEXT_TTL"
  return {
    graphAddress := env.text (place ++ "_URI") ""
    graphUser := env.text (place ++ "_USER") "neo4j"
    graphPassword := env.text (place ++ "_PASSWORD") ""
    graphDatabase := env.filled? "NEO4J_DATABASE"
    poolSize, acquisitionTimeout, connectionLifetime, connectionTimeout
    keepAlive := env.flag "NEO4J_KEEP_ALIVE" true
    apiKey := env.text "OPENAI_API_KEY" ""
    chatModel := env.text "OPENAI_CHAT_MODEL" Recogniser.defaultModel
    chatTimeout, threshold
    sqlAddress := env.text "SQL_URL" ""
    sqlSystems, limit
    strict := env.flag "KGFLOW_STRICT" false
    cacheLifetime
    audited := env.flag "KGFLOW_VERIFY" true
    contextBackend := env.text "CONTEXT_BACKEND" "memory"
    contextLifetime
    contextFolder := env.text "CONTEXT_STORAGE_DIR" "./contexts"
    contextAddress := env.get? "REDIS_URL" }

/-- The name and the address in an item, which has to have two parts, the first of them a key. -/
def pair (item : Datum) : Except Fault (String × Datum) := do
  match ← item.items with
  | [name, address] =>
    if name.isKey then return (name.asText, address)
    else throw (.wrongType s!"'{name.typeName}' object is no key")
  | parts => throw (.unreadable s!"2 parts expected, not {parts.length.repr}")

/-- A mapping, or a list of pairs that make one. -/
def mapping : Datum → Except Fault Record
  | .dict fields => .ok (.ofEntries fields)
  | d => do return .ofEntries (← (← d.items).mapM pair)

/-- The addresses of all systems by name. -/
def systems (settings : Settings) : Except Fault Record := do
  let stated ← mapping settings.sqlSystems
  if settings.sqlAddress = "" || stated.contains "default" then return stated
  else return stated.insert "default" (.text settings.sqlAddress)

/-- A setting that is a floating-point number. -/
def ofFloat (x : Binary64) : Datum := .plain (.float x)

/-- The settings by the names under which they are shown. -/
def listing (settings : Settings) : List (String × Datum) :=
  [("neo4j_uri", .text settings.graphAddress), ("neo4j_user", .text settings.graphUser),
    ("neo4j_password", .text settings.graphPassword),
    ("neo4j_database", .ofText? settings.graphDatabase),
    ("neo4j_max_connection_pool_size", .int settings.poolSize),
    ("neo4j_connection_acquisition_timeout", ofFloat settings.acquisitionTimeout),
    ("neo4j_max_connection_lifetime", .int settings.connectionLifetime),
    ("neo4j_connection_timeout", ofFloat settings.connectionTimeout),
    ("neo4j_keep_alive", .bool settings.keepAlive), ("openai_api_key", .text settings.apiKey),
    ("openai_chat_model", .text settings.chatModel),
    ("nlu_timeout", ofFloat settings.chatTimeout),
    ("nlu_confidence_threshold", ofFloat settings.threshold),
    ("sql_url", .text settings.sqlAddress), ("sql_systems", settings.sqlSystems),
    ("max_steps", .int settings.limit), ("strict", .bool settings.strict),
    ("graph_cache_ttl", .int settings.cacheLifetime), ("verify_enabled", .bool settings.audited),
    ("context_backend", .text settings.contextBackend),
    ("context_ttl", (settings.contextLifetime.map ofFloat).getD .null),
    ("context_storage_dir", .text settings.contextFolder),
    ("redis_url", .ofText? settings.contextAddress)]

end Settings

end Playbook
