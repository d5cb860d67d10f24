import Playbook.Construction.Builder
import Playbook.Construction.SeedTable
/-!
# Seeding a playbook from tables

A relational database states problems, steps and relations in three tables. Active problems are read
in the order of their rows, and each is followed by its steps and relations; a problem without an id
has none. A table that is missing is a fault only when it is read.
-/

namespace Playbook

/-- The tables of a relational database; one that is not there is none. -/
structure SeedTables where
  problems : Option (List Record)
  steps : Option (List Record)
  relations : Option (List Record)

namespace SeedTables

/-- A database without tables. -/
def empty : SeedTables := ⟨none, none, none⟩

instance : Inhabited SeedTables := ⟨empty⟩

/-- Rows from their data in the order of the columns. -/
def rows (columns : List String) (data : List (List Datum)) : List Record :=
  data.map fun row => .ofEntries (columns.zip row)

/-- Tables from the data of their rows. -/
def ofRows (problems steps relations : Option (List (List Datum))) : SeedTables where
  problems := problems.map (rows SeedTable.problemColumns)
  steps := steps.map (rows SeedTable.stepColumns)
  relations := relations.map (rows SeedTable.relationColumns)

/-- The place of the type of a datum in the order of a column: null, numbers, texts. -/
def typeRank (d : Datum) : Nat :=
  if d.isNull then 0 else if d.number?.isSome then 1 else 2

/-- Whether a datum comes before another one in a column. -/
def isBefore (d d' : Datum) : Bool :=
  typeRank d < typeRank d' || (typeRank d = typeRank d' && (d.before? d').getD false)

/-- Rows in the order of a column; rows with the same datum stay in their order. -/
def orderedBy (column : String) (rows : List Record) : List Record :=
  rows.mergeSort fun a b => !isBefore (b.column column) (a.column column)

/-- The rows of a table. -/
def table (name : String) : Option (List Record) → Except Fault (List Record)
  | some rows => .ok rows
  | none => .error (.missingTable s!"no such table: {name}")

/-- The rows of a table that have a datum in a column, in the order of another column. -/
def select (name : String) (rows : Option (List Record)) (column : String) (d : Datum)
    (order : String) : Except Fault (List Record) :=
  (table name rows).map fun rows =>
    orderedBy order (rows.filter fun row => (row.column column).same d)

def activeProblems (tables : SeedTables) : Except Fault (List ProblemDraft) :=
  (select "problem_definitions" tables.problems "is_active" (.int 1) "id").map
    (List.map ProblemDraft.ofRecord)

def stepsOf (tables : SeedTables) (problem : Datum) : Except Fault (List StepDraft) :=
  (select "solution_steps" tables.steps "problem_id" problem "step_id").map
    (List.map StepDraft.ofRecord)

def relationsOf (tables : SeedTables) (problem : Datum) : Except Fault (List RelationDraft) := do
  let rows ← select "step_relations" tables.relations "problem_id" problem "id"
  rows.mapM RelationDraft.ofRecord

/-- The steps and relations of problems, in order. -/
def partsOf (tables : SeedTables) :
    List ProblemDraft → Except Fault (List StepDraft × List RelationDraft)
  | [] => .ok ([], [])
  | problem :: rest => do
    if problem.id.isTruthy then
      let steps ← tables.stepsOf problem.id
      let relations ← tables.relationsOf problem.id
      let (otherSteps, otherRelations) ← tables.partsOf rest
      return (steps ++ otherSteps, relations ++ otherRelations)
    else
      Builder.note [problem.type]
      tables.partsOf rest

/-- The active problems with their steps and relations. -/
def contents (tables : SeedTables) :
    Except Fault (List ProblemDraft × List StepDraft × List RelationDraft) := do
  let problems ← tables.activeProblems
  let (steps, relations) ← tables.partsOf problems
  return (problems, steps, relations)

end SeedTables

/-- Writes what tables state. -/
def Builder.seed (b : Builder) (tables : SeedTables) : Attempt (Option Database) Tally := fun s =>
  match tables.contents with
  | .error f => (.error f, s)
  | .ok (problems, steps, relations) =>
    let (r, s) := b.createGraph problems steps relations s
    (r.map Prod.fst, s)

end Playbook
