import Playbook.Database.Statement
import Playbook.Datum
/-!
# A graph that records what is written

A small graph database of problems and steps. Writing a problem replaces its fields, writing a step
merges its properties; relations are accepted and not kept.
-/

namespace Playbook

/-- The problems and steps of a graph: a problem with its fields, a step with its properties under
the two parts of its key. -/
structure RecordedGraph where
  problems : List Record
  steps : List ((Datum × Datum) × Record)

namespace RecordedGraph

def empty : RecordedGraph := ⟨[], []⟩

instance : Inhabited RecordedGraph := ⟨empty⟩

/-- Whether a problem has an id. -/
def hasId (id : Datum) (problem : Record) : Bool :=
  (problem.column "problemId").same id

def hasProblem (graph : RecordedGraph) (id : Datum) : Bool :=
  graph.problems.any (hasId id)

/-- Whether a step has a key. -/
def hasKey (problem id : Datum) (step : (Datum × Datum) × Record) : Bool :=
  step.1.1.same problem && step.1.2.same id

def hasStep (graph : RecordedGraph) (problem id : Datum) : Bool :=
  graph.steps.any (hasKey problem id)

/-- Writes a problem in its place, or at the end if it is new. -/
def putProblem (fields : Record) (problems : List Record) : List Record :=
  let id := fields.column "problemId"
  if problems.any (hasId id) then problems.map fun p => if hasId id p then fields else p
  else problems ++ [fields]

/-- A graph of problems without steps. -/
def ofProblems (problems : List Record) : RecordedGraph :=
  ⟨problems.foldl (fun done fields => putProblem fields done) [], []⟩

/-- Merges properties into a step, which is added if it is new. -/
def putStep (problem id : Datum) (properties : List (String × Datum))
    (steps : List ((Datum × Datum) × Record)) : List ((Datum × Datum) × Record) :=
  if steps.any (hasKey problem id) then
    steps.map fun s =>
      if hasKey problem id s then (s.1, OrderedMap.insertAll s.2 properties) else s
  else steps ++ [((problem, id), .ofEntries properties)]

/-- The names of the columns of a step in an answer, by property. -/
def stepColumn : String → String
  | "system_a" => "system"
  | "table_name" => "tableName"
  | "condition_sql" => "conditionSql"
  | "reply_content" => "replyContent"
  | name => name

/-- A step as a row: its key and the properties that were set. -/
def stepRow (step : (Datum × Datum) × Record) : Record :=
  .ofEntries (("problemId", step.1.1) :: ("stepId", step.1.2) ::
    step.2.entries.map fun (name, d) => (stepColumn name, d))

/-- The greatest of some ids; none when two of them have no order. -/
def greatest? (ids : List Datum) : Option (List Datum) :=
  (Datum.sortBy? id ids).map fun sorted => sorted.getLast?.toList

def row (name : String) (d : Datum) : Record :=
  .ofEntries [(name, d)]

/-- A count as an answer. -/
def counted (name : String) (n : Nat) : List Record :=
  [row name (.int n)]

/-- What keys without an order fail with. -/
def noOrder : Fault := .unavailable "keys without an order"

/-- The fields of a step that a statement sets: its operation and its properties. -/
def setFields (parameters : Record) : List (String × Datum) :=
  let properties := match parameters.column "properties" with
    | .dict fields => fields
    | _ => []
  ("operation", parameters.column "operation") :: properties

/-- The answer to a statement with parameters, and the graph after it. -/
def answer (graph : RecordedGraph) (statement : Statement) (parameters : Record) :
    Except Fault (List Record) × RecordedGraph :=
  let problem := parameters.column "problemId"
  let step := parameters.column "stepId"
  match statement with
  | .latestProblem =>
    let matching := graph.problems.filter fun p =>
      (p.column "problemType").same (parameters.column "problemType")
    match greatest? (matching.map fun p => p.column "problemId") with
    | some ids => (.ok (ids.map (row "problemId")), graph)
    | none => (.error noOrder, graph)
  | .mergeProblem =>
    (.ok [row "problemId" problem], { graph with problems := putProblem parameters graph.problems })
  | .updateProblem =>
    if graph.hasProblem problem then
      (.ok [row "problemId" problem],
        { graph with problems := putProblem parameters graph.problems })
    else (.ok [], graph)
  | .mergeStep =>
    (.ok [row "stepId" step],
      { graph with steps := putStep problem step (setFields parameters) graph.steps })
  | .countProblem => (.ok (counted "count" (graph.hasProblem problem).toNat), graph)
  | .countStep => (.ok (counted "count" (graph.hasStep problem step).toNat), graph)
  | .createFirst | .createDefault | .createGuarded =>
    (.ok [row "relationId" (.text "relation")], graph)
  | .allProblems =>
    match Datum.sortBy? (fun p => p.column "problemId") graph.problems with
    | some sorted => (.ok sorted, graph)
    | none => (.error noOrder, graph)
  | .stepsOfProblem =>
    match Datum.sortBy? (fun s => s.1.2) (graph.steps.filter fun s => s.1.1.same problem) with
    | some sorted => (.ok (sorted.map stepRow), graph)
    | none => (.error noOrder, graph)
  | .deleteProblem =>
    if graph.hasProblem problem then
      let (gone, left) := graph.steps.partition fun s => s.1.1.same problem
      (.ok (counted "deleted" (max 1 gone.length)),
        { problems := graph.problems.filter fun p => !hasId problem p, steps := left })
    else (.ok (counted "deleted" 0), graph)
  | .clear => (.ok [], empty)
  | _ => (.ok [], graph)

end RecordedGraph

end Playbook
