import Playbook.Construction.Builder
import Playbook.Turtle.Reader
/-!
# Ingesting a playbook from statements

Problems, steps and transitions are the members of three classes. The properties of a member are
known by their local names, whatever ontology they come from; the last value of a property counts.
A step belongs to the problem whose id it states, or else to the problem it refers to. A relation
whose ends are no steps is left out.
-/

namespace Playbook.Ingest

open Turtle

/-- The local names of the properties of problems and steps. -/
def knownProperties : List String :=
  ["problemId", "problemType", "description", "isActive", "stepId", "operation", "system",
    "tableName", "field", "conditionSql", "replyContent"]

/-- The properties that are stated of a subject, by local name. -/
def properties (triples : Triples) (subject : Term) : Record :=
  .ofEntries ((triples.about subject).filterMap fun (predicate, object) =>
    let name := localName predicate.text
    if knownProperties.contains name then some (name, object.value) else none)

/-- The problem that a member of its class states. Its id is the local name of the member unless it
states another. -/
def problem (triples : Triples) (subject : Term) : ProblemDraft :=
  let stated := properties triples subject
  { id := (stated.column "problemId").orElse (.text (localName subject.text))
    type := (stated.get? "problemType").getD (.text "")
    description := (stated.get? "description").getD (.text "")
    active := (stated.get? "isActive").getD (.bool true) }

abbrev Problems := OrderedMap Term ProblemDraft

abbrev Steps := OrderedMap Term StepDraft

def problems (triples : Triples) : Problems :=
  .ofEntries ((triples.members (ontologyTerm "Problem")).map fun s => (s, problem triples s))

/-- The step that a member of its class states. -/
def step (triples : Triples) (problems : Problems) (subject : Term) : StepDraft :=
  let stated := properties triples subject
  let referred := (triples.object? subject (ontologyTerm "problem")).bind problems.get?
  { problem := (stated.get? "problemId").getD ((referred.map ProblemDraft.id).getD .null)
    id := stated.column "stepId"
    operation := (stated.get? "operation").getD (.text "")
    system := stated.column "system"
    table := stated.column "tableName"
    field := stated.column "field"
    condition := stated.column "conditionSql"
    reply := stated.column "replyContent" }

def steps (triples : Triples) (problems : Problems) : Steps :=
  .ofEntries ((triples.members (ontologyTerm "Step")).map fun s => (s, step triples problems s))

/-- The relation to a step from nowhere or from another step. -/
def relationTo (target : StepDraft) (source : Datum) (type : String) (condition : Datum) :
    RelationDraft :=
  ⟨target.problem, source, target.id, .text type, condition⟩

/-- The relations to first steps. The subject need not be a problem: the relation belongs to the
problem of the step. -/
def firstRelations (triples : Triples) (steps : Steps) : List RelationDraft :=
  (triples.pairs (ontologyTerm "firstStep")).filterMap fun (_, object) => do
    let target ← steps.get? object
    return relationTo target .null firstRelation .null

/-- The relations to the steps that follow by default. -/
def defaultRelations (triples : Triples) (steps : Steps) : List RelationDraft :=
  (triples.pairs (ontologyTerm "nextDefault")).filterMap fun (subject, object) => do
    let target ← steps.get? object
    let source ← steps.get? subject
    return relationTo target source.id defaultRelation .null

/-- The relation that a transition states. -/
def transition? (triples : Triples) (steps : Steps) (subject : Term) : Option RelationDraft := do
  let source ← (triples.object? subject (ontologyTerm "from")).bind steps.get?
  let target ← (triples.object? subject (ontologyTerm "to")).bind steps.get?
  let condition := triples.object? subject (ontologyTerm "condition")
  return relationTo target source.id guardedRelation (.ofText? (condition.map Term.text))

/-- The relations that transitions state. -/
def guardedRelations (triples : Triples) (steps : Steps) : List RelationDraft :=
  (triples.members (ontologyTerm "Transition")).filterMap (transition? triples steps)

/-- All relations: those to first steps, those by default, and those under a condition. -/
def relations (triples : Triples) (steps : Steps) : List RelationDraft :=
  firstRelations triples steps ++ defaultRelations triples steps ++ guardedRelations triples steps

end Playbook.Ingest

namespace Playbook.Builder

/-- Writes what statements state. -/
def ingest (b : Builder) (triples : Turtle.Triples) : Attempt (Option Database) Tally := fun s =>
  let problems := Ingest.problems triples
  let steps := Ingest.steps triples problems
  let (r, s) := b.createGraph problems.values steps.values (Ingest.relations triples steps) s
  (r.map Prod.fst, s)

/-- Writes what a document of a name states. -/
def ingestText (b : Builder) (document text : String) : Attempt (Option Database) Tally := fun s =>
  match Turtle.read document text with
  | .ok triples => b.ingest triples s
  | .error f => (.error f, s)

end Playbook.Builder
