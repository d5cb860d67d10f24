import Playbook.Database.Recorder
import Playbook.Graph.Source
/-!
# The graph database

A database answers statements from a script, in turn, or from a graph that records what is written.
It keeps the statements it was sent and the database name of each session. What reads a playbook
asks any source of records, of which the database beside a clock is one.
-/

namespace Playbook

/-- A statement that was sent, with its parameters. -/
structure Call where
  statement : Statement
  parameters : Record

/-- Where records come from: a statement is sent with parameters, in a session on the database of a
name, and takes its time. -/
structure RecordSource (θ δ : Type) where
  ask : Option String → Statement → List (String × Datum) → Attempt δ (List Record)
  time : δ → θ

/-- What a scripted database answers to one statement. -/
inductive ScriptedAnswer where
  | records (rows : List Record)
  | failed (text : String)

/-- Where answers come from. -/
inductive Backend where
  | script (answers : List ScriptedAnswer)
  | recorder (graph : RecordedGraph)

structure Database where
  backend : Backend
  /-- Whether a check of the connection succeeds. -/
  connectable : Bool
  calls : List Call
  sessions : List (Option String)

namespace Database

def ofBackend (backend : Backend) (connectable : Bool) : Database := ⟨backend, connectable, [], []⟩

instance : Inhabited Database := ⟨ofBackend (.script []) true⟩

/-- Opens a session on a named database. -/
def openSession (name : Option String) (database : Database) : Database :=
  { database with sessions := database.sessions ++ [name] }

/-- What a backend answers, and the backend after it. -/
def answer (backend : Backend) (call : Call) : Except Fault (List Record) × Backend :=
  match backend with
  | .script [] => (.ok [], .script [])
  | .script (.records rows :: rest) => (.ok rows, .script rest)
  | .script (.failed text :: rest) => (.error (.unavailable text), .script rest)
  | .recorder graph =>
    let (rows, graph) := graph.answer call.statement call.parameters
    (rows, .recorder graph)

/-- Sends a statement in the open session. -/
def send (statement : Statement) (parameters : List (String × Datum)) :
    Attempt Database (List Record) := fun database =>
  let call : Call := ⟨statement, .ofEntries parameters⟩
  let (rows, backend) := answer database.backend call
  (rows, { database with backend := backend, calls := database.calls ++ [call] })

/-- Sends a statement in a session of its own. -/
def ask (name : Option String) (statement : Statement) (parameters : List (String × Datum)) :
    Attempt Database (List Record) := fun database =>
  send statement parameters (openSession name database)

/-- The database beside a clock, which stands still while it answers. -/
def source {θ : Type} : RecordSource θ (Database × θ) where
  ask name statement parameters := fun (database, now) =>
    let (r, database) := ask name statement parameters database
    (r, database, now)
  time := Prod.snd

end Database

end Playbook
