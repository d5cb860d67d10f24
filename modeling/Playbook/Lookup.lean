import Playbook.Datum
import Playbook.Graph.Source
/-!
# Looking up single values

A lookup asks a data system for one column of one row. Systems are registered by name; the answer
comes from the engine of the named system, or from that of the default one when the name is not
registered. An engine that is given by its address is created when it is first needed, and from then
on is ours to dispose of.
-/

namespace Playbook

/-- Where single values are looked up: a system, a table, a field and a condition. -/
structure LookupSource (τ : Type) where
  scalar : Option String → Option String → Option String → String → Attempt τ Value

/-- What a database answers to a statement. -/
inductive SqlAnswer where
  /-- The first row of the result, if it has one. -/
  | row (values : Option (List Datum))
  | failed (text : String)

instance : Inhabited SqlAnswer := ⟨.row none⟩

/-- A database whose answers depend only on the text of the statement. -/
abbrev SqlTable := OrderedMap String SqlAnswer

namespace SqlTable

/-- The answer to a statement; one that the database does not know fails. -/
def answer (table : SqlTable) (sql : String) : SqlAnswer :=
  (table.get? sql).getD (.failed "no such statement")

end SqlTable

/-- The first column of the first row as a value; null when there is no row. -/
def SqlAnswer.scalar : SqlAnswer → Except Fault Value
  | failed text => .error (.unavailable text)
  | row none => .ok .null
  | row (some []) => .error (.missingEntry "tuple index out of range")
  | row (some (d :: _)) => d.toValue

/-- The statement that selects a field of a table under a condition; a blank condition is left
out. -/
def selectText (table field : Option String) (condition : Option String) : String :=
  let sql := s!"SELECT {shownText field} FROM {shownText table}"
  let rest := Text.trimmed (condition.getD "")
  if rest = "" then sql else s!"{sql} {rest}"

/-- A fault as the fault of a lookup. -/
def lookupFault (fault : Fault) : Fault :=
  if fault.kind = .lookupFailed then fault else .lookupFailed fault.message

namespace LookupSource

variable {τ : Type}

/-- The answer of a service to what a statement gave: a strict service reports a fault, any other
finds null instead. -/
def settle (strict : Bool) (attempt : Attempt τ Value) : Attempt τ Value := fun t =>
  match attempt t with
  | (.ok v, t) => (.ok v, t)
  | (.error fault, t) => if strict then (.error (lookupFault fault), t) else (.ok .null, t)

/-- The service that looks values up by running statements on systems, whatever these answer. -/
def running (strict : Bool) (run : Option String → String → Attempt τ Value) :
    LookupSource τ where
  scalar system table field condition :=
    settle strict (run system (selectText table field (some condition)))

end LookupSource

/-- An engine that is there, or the address of one. -/
inductive SqlTarget where
  | engine (table : SqlTable)
  | address (url : String)

instance : Inhabited SqlTarget := ⟨.address ""⟩

/-- The registered systems. A lookup in a strict service reports its faults; any other service
finds nothing instead. -/
structure SqlSystems where
  registered : OrderedMap String SqlTarget
  default : Option String
  strict : Bool
  /-- The databases that can be reached, by address. -/
  reachable : OrderedMap String SqlTable

/-- A live engine: its system, the name it is logged under, and its database. -/
structure SqlEngine where
  system : String
  label : String
  table : SqlTable

/-- What a service did with its engines, by system. -/
inductive SqlEvent where
  | created (system url : String)
  /-- There is no engine for an address. -/
  | refused (system url : String)
  | ran (system label sql : String)
  | disposed (system label : String)
deriving DecidableEq

/-- The live engines by system, the systems whose engines are ours, and what was done with them. -/
structure SqlConnections where
  live : OrderedMap String SqlEngine
  owned : List String
  log : List SqlEvent

namespace SqlConnections

def fresh : SqlConnections := ⟨.empty, [], []⟩

instance : Inhabited SqlConnections := ⟨fresh⟩

def record (connections : SqlConnections) (event : SqlEvent) : SqlConnections :=
  { connections with log := connections.log ++ [event] }

/-- The names of the systems with a live engine, in order. -/
def liveNames (connections : SqlConnections) : List String :=
  connections.live.keys.mergeSort

/-- The name under which the engine of a system is logged. -/
def labelOf (connections : SqlConnections) (name : String) : String :=
  ((connections.live.get? name).map SqlEngine.label).getD name

/-- Disposes of the engines of some systems, which have to be live. -/
def dispose : List String → Attempt SqlConnections Unit
  | [], connections => (.ok (), connections)
  | name :: rest, connections =>
    match connections.live.get? name with
    | none => (.error (.missingEntry (Text.quoted name)), connections)
    | some engine => dispose rest (connections.record (.disposed name engine.label))

/-- Disposes of our engines, in the order of their labels, and lets go of all. -/
def close : Attempt SqlConnections Unit := fun connections =>
  let label := connections.labelOf
  match dispose (connections.owned.mergeSort fun a b => label a ≤ label b) connections with
  | (.error fault, connections) => (.error fault, connections)
  | (.ok (), connections) => (.ok (), { connections with live := .empty, owned := [] })

end SqlConnections

namespace SqlSystems

/-- Systems with a default one: the first, if no other is named. -/
def ofRegistered (registered : OrderedMap String SqlTarget) (default : Option String)
    (strict : Bool) (reachable : OrderedMap String SqlTable) : SqlSystems where
  registered := registered
  default := if default.getD "" = "" then registered.keys.head? else default
  strict := strict
  reachable := reachable

/-- The system that answers for a name. -/
def chosen (systems : SqlSystems) (system : Option String) : Option String :=
  if system.any systems.registered.contains then system else systems.default

/-- The engine for the address of a system. -/
def create (systems : SqlSystems) (name url : String) : Attempt SqlConnections SqlEngine :=
  fun connections =>
    match systems.reachable.get? url with
    | none => (.error (.unavailable s!"bad url: {url}"), connections.record (.refused name url))
    | some table =>
      let engine : SqlEngine := ⟨name, url, table⟩
      (.ok engine, { connections.record (.created name url) with
        live := connections.live.insert name engine
        owned := connections.owned.insert name })

/-- The engine of the system that answers for a name. -/
def engineFor (systems : SqlSystems) (system : Option String) : Attempt SqlConnections SqlEngine :=
  fun connections =>
    match systems.chosen system with
    | none => (.error (.unknownSystem system), connections)
    | some name =>
      match connections.live.get? name with
      | some engine => (.ok engine, connections)
      | none =>
        match systems.registered.get? name with
        | none => (.error (.missingEntry (Text.quoted name)), connections)
        | some (.address url) => systems.create name url connections
        | some (.engine table) =>
          let engine : SqlEngine := ⟨name, name, table⟩
          (.ok engine, { connections with live := connections.live.insert name engine })

/-- Runs a statement on the engine that answers for a system. -/
def run (systems : SqlSystems) (system : Option String) (sql : String) :
    Attempt SqlConnections Value := fun connections =>
  match systems.engineFor system connections with
  | (.error fault, connections) => (.error fault, connections)
  | (.ok engine, connections) =>
    ((engine.table.answer sql).scalar, connections.record (.ran engine.system engine.label sql))

/-- The value of a field of a table under a condition. A service that is not strict answers null
to what it cannot look up. -/
def query (systems : SqlSystems) (system table field condition : Option String) :
    Attempt SqlConnections Value :=
  LookupSource.settle systems.strict (systems.run system (selectText table field condition))

def source (systems : SqlSystems) : LookupSource SqlConnections :=
  .running systems.strict systems.run

end SqlSystems

end Playbook
