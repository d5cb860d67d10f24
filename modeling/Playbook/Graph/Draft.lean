import Playbook.Datum
import Playbook.Graph.Record
/-!
# Problems, steps and relations as they are stated

A draft is a problem, step or relation as a document, a table or an answer states it: its fields
may hold any datum. A draft whose fields hold texts and numbers where these belong resolves to a
record of a playbook.
-/

namespace Playbook

structure ProblemDraft where
  id : Datum
  type : Datum
  description : Datum
  active : Datum

structure StepDraft where
  problem : Datum
  id : Datum
  operation : Datum
  system : Datum
  table : Datum
  field : Datum
  condition : Datum
  reply : Datum

structure RelationDraft where
  problem : Datum
  source : Datum
  target : Datum
  type : Datum
  condition : Datum

namespace ProblemDraft

/-- A problem from a row, with columns in either of two spellings; the first truthy one counts. A
problem is active unless its row denies it. -/
def ofRecord (record : Record) : ProblemDraft where
  id := (record.column "problemId").orElse (record.column "problem_id")
  type := ((record.column "problemType").orElse (record.column "problem_type")).orElse (.text "")
  description := (record.column "description").orElse (.text "")
  active :=
    let stated := (record.get? "isActive").orElse fun _ => record.get? "is_active"
    match stated with
    | none => .bool true
    | some d => .bool (d.isNull || d.isTruthy)

def ofProblem (problem : Problem) : ProblemDraft where
  id := .ofText? problem.id
  type := .ofText? problem.type
  description := .ofText? problem.description
  active := .bool problem.active

/-- The fields by the names under which they are shown. -/
def listing (draft : ProblemDraft) : List (String × Datum) :=
  [("problem_id", draft.id), ("problem_type", draft.type), ("description", draft.description),
    ("is_active", draft.active)]

def resolve (draft : ProblemDraft) : Except Fault Problem := do
  let id ← draft.id.toText?
  let type ← draft.type.toText?
  let description ← draft.description.toText?
  return ⟨id, type, description, draft.active.isTruthy⟩

end ProblemDraft

namespace StepDraft

/-- A step from a row, with columns in either of two spellings; the first that is not null
counts. -/
def ofRecord (record : Record) : StepDraft where
  problem := record.either "problemId" "problem_id"
  id := record.either "stepId" "step_id"
  operation := (record.column "operation").orElse (.text "")
  system := record.either "system" "system_a"
  table := record.either "tableName" "table_name"
  field := record.column "field"
  condition := record.either "conditionSql" "condition_sql"
  reply := record.either "replyContent" "reply_content"

def ofStep (step : Step) : StepDraft where
  problem := .ofText? step.problem
  id := .ofInt? step.id
  operation := .ofText? step.operation
  system := .ofText? step.system
  table := .ofText? step.table
  field := .ofText? step.field
  condition := .ofText? step.condition
  reply := .ofText? step.reply

/-- The fields by the names under which they are shown. -/
def listing (draft : StepDraft) : List (String × Datum) :=
  [("problem_id", draft.problem), ("step_id", draft.id), ("operation", draft.operation),
    ("system", draft.system), ("table_name", draft.table), ("field", draft.field),
    ("condition_sql", draft.condition), ("reply_content", draft.reply)]

def isQuery (draft : StepDraft) : Bool := draft.operation.textOf? = some queryOperation

def isReply (draft : StepDraft) : Bool := draft.operation.textOf? = some replyOperation

/-- The optional fields that are set, by the names of their properties. -/
def properties (draft : StepDraft) : List (String × Datum) :=
  [("system_a", draft.system), ("table_name", draft.table), ("field", draft.field),
    ("condition_sql", draft.condition), ("reply_content", draft.reply)].filter fun p => !p.2.isNull

def resolve (draft : StepDraft) : Except Fault Step := do
  let problem ← draft.problem.toText?
  let id ← draft.id.toInt?
  let operation ← draft.operation.toText?
  let system ← draft.system.toText?
  let table ← draft.table.toText?
  let field ← draft.field.toText?
  let condition ← draft.condition.toText?
  let reply ← draft.reply.toText?
  return ⟨problem, id, operation, system, table, field, condition, reply⟩

end StepDraft

namespace RelationDraft

/-- A column that a row needs to have. -/
def needed (record : Record) (name : String) : Except Fault Datum :=
  match record.get? name with
  | some d => .ok d
  | none => .error (.missingEntry (Text.quoted name))

/-- A relation from a row, which needs a problem, a target and a type. -/
def ofRecord (record : Record) : Except Fault RelationDraft := do
  let problem ← needed record "problem_id"
  let target ← needed record "to_step_id"
  let type ← needed record "relation_type"
  return ⟨problem, record.column "from_step_id", target, type,
    record.column "condition_expression"⟩

def ofRelation (relation : Relation) : RelationDraft where
  problem := .ofText? relation.problem
  source := .ofInt? relation.source
  target := .ofInt? relation.target
  type := .ofText? relation.type
  condition := .ofText? relation.condition

/-- The data of all fields. -/
def fields (draft : RelationDraft) : List Datum :=
  [draft.problem, draft.target, draft.type, draft.source, draft.condition]

/-- What is wrong with a relation; nothing if it is valid. -/
def defects (draft : RelationDraft) : List Defect :=
  let type := if draft.type.isNull then none else some draft.type.asText
  Relation.defectsOf type (!draft.source.isNull) draft.condition.textOf?

/-- The fields, and what is wrong with them, by the names under which they are shown. -/
def listing (draft : RelationDraft) : List (String × Datum) :=
  [("problem_id", draft.problem), ("from_step_id", draft.source), ("to_step_id", draft.target),
    ("relation_type", draft.type), ("condition_expression", draft.condition),
    ("errors", .list (draft.defects.map fun d => .text d.message))]

end RelationDraft

end Playbook
