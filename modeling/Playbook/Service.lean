import Playbook.Audit
import Playbook.World
/-!
# The service

A service is what an environment describes. It sets the graph database up, reads and audits the
playbook in it, writes to it, and answers users. What the environment leaves out the service goes
without: a part that needs the database or the language model is refused when there is none.
-/

namespace Playbook

structure Service where
  settings : Settings
  systems : SqlSystems

/-- What a service connects to when it starts. -/
inductive Client where
  | database (address : String) (options : Record)
  | chat (key : String)

namespace Service

/-- The service that the environment describes, for a database in the cloud or on the same
machine. -/
def start (mode : String) (world : World) : Except Fault Service := do
  let settings ← Settings.ofEnvironment world.environment mode
  let systems ← settings.systems
  let registered := systems.mapValues fun d => SqlTarget.address d.asText
  let default := if registered.contains "default" then some "default" else none
  return ⟨settings, .ofRegistered registered default settings.strict world.reachable⟩

def hasDatabase (service : Service) : Bool := service.settings.graphAddress ≠ ""

def hasChat (service : Service) : Bool := service.settings.apiKey ≠ ""

section Connections

/-- How the graph database is connected to. -/
def connection (service : Service) : Record :=
  let s := service.settings
  .ofEntries [("auth", .list [.text s.graphUser, .text s.graphPassword]),
    ("max_connection_pool_size", .int s.poolSize),
    ("connection_acquisition_timeout", Settings.ofFloat s.acquisitionTimeout),
    ("max_connection_lifetime", .int s.connectionLifetime),
    ("connection_timeout", Settings.ofFloat s.connectionTimeout),
    ("keep_alive", .bool s.keepAlive)]

/-- The clients of a service, in the order in which it makes them. -/
def clients (service : Service) : List Client :=
  (if service.hasDatabase then [.database service.settings.graphAddress service.connection]
    else []) ++
  if service.hasChat then [.chat service.settings.apiKey] else []

/-- What can be reached, and the names of the data systems. -/
def health (service : Service) (world : World) : Record :=
  .ofEntries [("neo4j", .bool (service.hasDatabase && world.database.connectable)),
    ("openai", .bool (service.hasChat && world.listsModels)),
    ("query_systems", .list (service.systems.registered.keys.mergeSort.map .text))]

/-- Disposes of the engines and lets the database go. -/
def close (service : Service) : Attempt World Unit := fun world =>
  match world.lookup.close with
  | (.error fault, lookup) => (.error fault, { world with lookup := lookup })
  | (.ok (), lookup) =>
    (.ok (), { world with
      lookup := lookup
      closings := if service.hasDatabase then world.closings + 1 else world.closings })

end Connections

section Statements

/-- Runs a statement in a session of its own. -/
def query (service : Service) (statement : Statement) (parameters : List (String × Datum)) :
    Attempt World (List Record) := fun world =>
  if service.hasDatabase then
    let (rows, database) :=
      Database.ask service.settings.graphDatabase statement parameters world.database
    (rows, { world with database := database })
  else (.error .noDatabase, world)

/-- Requires ids and keys to be unique. A statement that fails is passed over: the constraint may be
there. -/
def ensureConstraints (service : Service) : Attempt World Unit := fun world =>
  if service.hasDatabase then
    let database := Database.openSession service.settings.graphDatabase world.database
    let database := Statement.constraints.foldl (fun d s => (Database.send s [] d).2) database
    (.ok (), { world with database := database })
  else (.error .noDatabase, world)

/-- Whether a list has a name in it, or a text has it as a part; one that is not there has none. -/
def lists (d : Datum) (name : String) : Except Fault Bool :=
  match d with
  | .plain (.text s) => .ok (Text.has name s)
  | d =>
    if d.isTruthy then d.items.map fun items => items.any fun item => item.same (.text name)
    else .ok false

/-- Whether a list of keys has all of some names in it; one that is not there has none. -/
def listsAll (d : Datum) (names : List String) : Except Fault Bool := do
  let items ← if d.isTruthy then d.items else .ok []
  if items.all Datum.isKey then
    return names.all fun name => items.any fun item => item.same (.text name)
  else throw (.wrongType "a list or a mapping is no key")

/-- Whether a row tells of a constraint on the nodes with a label, with properties as they have to
be. -/
def guards (label : String) (properties : Datum → Except Fault Bool) (row : Record) :
    Except Fault Bool := do
  if ← lists (row.column "labelsOrTypes") label then properties (row.column "properties")
  else return false

/-- Whether rows tell of constraints on the ids of problems and on the keys of steps. -/
def constrained (rows : List Record) : Except Fault Bool := do
  let problems ← rows.mapM (guards "Problem" fun d => lists d "problem_id")
  let steps ← rows.mapM (guards "Step" fun d => listsAll d ["problem_id", "step_id"])
  return problems.any id && steps.any id

/-- Whether ids and keys are required to be unique. -/
def checkConstraints (service : Service) : Attempt World Bool := fun world =>
  match service.query .showConstraints [] world with
  | (.ok rows, world) => (constrained rows, world)
  | (.error f, world) => (.error f, world)

end Statements

section Playbooks

/-- The playbook in the database. -/
def graph (service : Service) : Except Fault (RemoteGraph Binary64 (Database × Binary64)) :=
  let s := service.settings
  if service.hasDatabase then
    .ok ⟨Database.source, s.graphDatabase, s.strict, .ofInt s.cacheLifetime⟩
  else .error .noDatabase

/-- The most steps of a walk through the playbook. -/
def limit (service : Service) : Except Fault Nat :=
  if service.hasDatabase then
    if service.settings.limit < 1 then .error .limitBelowOne
    else .ok service.settings.limit.toNat
  else .error .noDatabase

/-- Reads the playbook. -/
def read {α : Type} (service : Service)
    (question : GraphSource (RemoteState Binary64 (Database × Binary64)) →
      Attempt (RemoteState Binary64 (Database × Binary64)) α) :
    Attempt World α := fun world =>
  match service.graph with
  | .error f => (.error f, world)
  | .ok graph =>
    let (r, s) := question graph.source world.graph
    (r, { world with database := s.outside.1 })

/-- Audits all problems, also when audits are off. -/
def reports (service : Service) : Attempt World (OrderedMap (Option String) Report) :=
  service.read fun graph => Audit.all graph Audit.defaultDepth

/-- Whether the playbook passes the audit, if audits are on. -/
def verdict (service : Service) : Attempt World Bool :=
  service.read fun graph => Audit.verdict graph Audit.defaultDepth service.settings.audited

/-- Writes to the database, or to nowhere without one. -/
def build {α : Type} (service : Service) (write : Builder → Option Database → α × Option Database)
    (world : World) : α × World :=
  let database := if service.hasDatabase then some world.database else none
  let (a, database) := write ⟨service.settings.graphDatabase⟩ database
  (a, { world with database := database.getD world.database })

end Playbooks

section Dialogues

/-- Where contexts are kept. -/
def contextChoice (service : Service) : Except Fault ContextStoreChoice :=
  let s := service.settings
  ContextStoreChoice.make s.contextBackend ((s.contextLifetime.map Value.float).getD .null)
    (some s.contextFolder) s.contextAddress

/-- Starts the context store. -/
def openContexts (service : Service) : Attempt World ContextStoreChoice := fun world =>
  match service.contextChoice with
  | .error f => (.error f, world)
  | .ok choice => (.ok choice, { world with contexts := choice.start world.contexts })

/-- How intents are recognised. -/
def recogniser (service : Service) : Recogniser :=
  { Recogniser.standard with
    model := service.settings.chatModel
    timeout := .float service.settings.chatTimeout }

/-- What users are answered with. It needs the language model, the database and a walk of at least
one step, and starts the context store. -/
def assistant (service : Service) :
    Attempt World
      (Assistant (RemoteState Binary64 (Database × Binary64)) SqlConnections ContextState) :=
  fun world =>
    if service.hasChat then
      match service.graph, service.limit with
      | .ok graph, .ok limit =>
        match service.openContexts world with
        | (.ok choice, world) =>
          (.ok ⟨graph.source, service.systems.source, choice.source, service.recogniser, limit,
            service.settings.threshold⟩, world)
        | (.error f, world) => (.error f, world)
      | .error f, _ | _, .error f => (.error f, world)
    else (.error .noApiKey, world)

/-- Answers a question of a user, and reads the context of the user after it. -/
def turn (service : Service) (user question : String) : Attempt World (String × Context) :=
  fun world =>
    match service.assistant world with
    | (.error f, world) => (.error f, world)
    | (.ok assistant, world) =>
      match Dialogue.answer assistant user question world.dialogue with
      | (.error f, s) => (.error f, world.after s)
      | (.ok response, s) =>
        let (r, contexts) := assistant.contexts.get user s.contexts
        (r.map fun context => (response, context), world.after { s with contexts := contexts })

end Dialogues

section Listings

/-- How the playbook is read, by shown names. -/
def graphListing (service : Service) : Except Fault Record :=
  let s := service.settings
  service.graph.map fun _ => .ofEntries [("database", .ofText? s.graphDatabase),
    ("strict", .bool s.strict), ("cache_ttl", .int s.cacheLifetime)]

/-- How the playbook is walked, by shown names. -/
def walkListing (service : Service) : Except Fault Record :=
  service.limit.map fun _ => .ofEntries [("max_steps", .int service.settings.limit),
    ("default_system", .ofText? service.systems.default), ("strict", .bool service.systems.strict)]

/-- How users are answered, by shown names. -/
def dialogueListing (service : Service) : Record :=
  let s := service.settings
  .ofEntries [("threshold", Settings.ofFloat s.threshold), ("model", .text s.chatModel),
    ("timeout", Settings.ofFloat s.chatTimeout), ("max_steps", .int s.limit)]

end Listings

end Service

end Playbook
