import Playbook.CommandLine
/-!
# Commands

What a user can ask for on the command line. Every command works on a graph database in the cloud or
on the same machine.
-/

namespace Playbook

inductive Command where
  /-- Requires ids and keys to be unique. -/
  | constrain
  /-- Writes what the tables of a relational database state. -/
  | seed (address : String) (clear audited : Bool)
  /-- Writes what a document states. -/
  | ingest (path : String) (audited : Bool)
  | audit
  /-- Answers one question of a user. -/
  | turn (user question : String)
  /-- Answers the lines that a user writes. -/
  | talk (user : Option String)
  /-- Forgets the context of a user. -/
  | forget (user : String)
  | health
  | query (statement : String)
deriving DecidableEq

/-- A command and the place of the database that it works on. -/
structure Invocation where
  command : Command
  mode : String
deriving DecidableEq

namespace Command

def modes : List String := ["aura", "local"]

def modeSwitch : Switch := ⟨"--db", .choice "db" modes⟩

def auditSwitch : Switch := ⟨"--no-verify", .flag "no_verify"⟩

def clearSwitch : Switch := ⟨"--clear", .flag "clear"⟩

def operand (field : String) : Operand := ⟨field, false⟩

/-- How each command is written. -/
def grammars : List CommandGrammar :=
  [⟨"setup-schema", [modeSwitch], []⟩,
    ⟨"seed", [modeSwitch, clearSwitch, auditSwitch], [operand "sql_url"]⟩,
    ⟨"ingest", [modeSwitch, auditSwitch], [operand "ttl_path"]⟩,
    ⟨"verify", [modeSwitch], []⟩,
    ⟨"turn", [modeSwitch], [operand "user_id", operand "text"]⟩,
    ⟨"repl", [modeSwitch], [⟨"user_id", true⟩]⟩,
    ⟨"clear-context", [modeSwitch], [operand "user_id"]⟩,
    ⟨"health", [modeSwitch], []⟩,
    ⟨"query", [modeSwitch], [operand "query"]⟩]

/-- How the commands are used. -/
def usage : String :=
  let names := String.intercalate "," (grammars.map CommandGrammar.name)
  "usage: kgflow [-h] \x7b" ++ names ++ "\x7d ...\n"

/-- The command of a name with its fields. -/
def ofFields (name : String) (fields : Record) : Option Command :=
  let text (field : String) : String := (fields.column field).asText
  let audited := !(fields.column "no_verify").isTruthy
  match name with
  | "setup-schema" => some .constrain
  | "seed" => some (.seed (text "sql_url") (fields.column "clear").isTruthy audited)
  | "ingest" => some (.ingest (text "ttl_path") audited)
  | "verify" => some .audit
  | "turn" => some (.turn (text "user_id") (text "text"))
  | "repl" => some (.talk ((fields.column "user_id").textOf?.filter (· ≠ "")))
  | "clear-context" => some (.forget (text "user_id"))
  | "health" => some .health
  | "query" => some (.query (text "query"))
  | _ => none

end Command

namespace Invocation

/-- What a command line asks for; nothing if it names no command. -/
def read (texts : List String) : Except Halt (Option Invocation) := do
  match ← readCommandLine Command.grammars texts false with
  | none => return none
  | some (name, fields) =>
    return (Command.ofFields name fields).map (⟨·, (fields.column "db").asText⟩)

end Invocation

end Playbook
