import Playbook.Database
import Playbook.Graph.Draft
import Playbook.Graph.ProblemId
/-!
# Writing a playbook to the database

Problems, steps and relations are written by statements that find what is there and replace it, so
that a playbook may be written again. A statement that fails, or that has no database to go to,
answers nothing. A problem without an id is given the one after the latest of its type; nothing
keeps two writers from choosing the same. What is written and what is left out is noted, and data
that cannot be written in a note are a fault (`Builder.note`).
-/

namespace Playbook

/-- How much of a playbook was written, and how much was not. -/
structure Tally where
  problems : Nat
  steps : Nat
  relations : Nat
  failed : Nat
deriving DecidableEq, Inhabited

def Tally.zero : Tally := ⟨0, 0, 0, 0⟩

/-- The counts by the names under which they are shown. -/
def Tally.listing (tally : Tally) : List (String × Nat) :=
  [("problems", tally.problems), ("steps", tally.steps), ("relations", tally.relations),
    ("failed", tally.failed)]

/-- Writes to the database of a name. -/
structure Builder where
  database : Option String
deriving DecidableEq, Inhabited

namespace Builder

/-- The rows that a statement answers. -/
def ask (b : Builder) (statement : Statement) (parameters : List (String × Datum)) :
    Option Database → List Record × Option Database
  | none => ([], none)
  | some database =>
    match Database.ask b.database statement parameters database with
    | (.ok rows, database) => (rows, some database)
    | (.error _, database) => ([], some database)

/-- Notes data, which have to be written for it. -/
def note (data : List Datum) : Except Fault Unit :=
  if data.all Datum.isWritable then .ok () else .error .integerTooLong

/-- Whether a statement answers with any row. -/
def succeeds (b : Builder) (statement : Statement) (parameters : List (String × Datum))
    (s : Option Database) : Bool × Option Database :=
  let (rows, s) := b.ask statement parameters s
  (!rows.isEmpty, s)

/-- The number in a column of the first row; zero when there is no row, or nothing in it. -/
def countIn (column : String) : List Record → Except Fault Int
  | [] => .ok 0
  | row :: _ =>
    let d := row.column column
    if d.isTruthy then d.whole else .ok 0

/-- What a statement counts. -/
def count (b : Builder) (statement : Statement) (parameters : List (String × Datum)) :
    Attempt (Option Database) Int := fun s =>
  let (rows, s) := b.ask statement parameters s
  (countIn "count" rows, s)

/-- Whether a statement deletes anything. -/
def deletes (b : Builder) (statement : Statement) (parameters : List (String × Datum)) :
    Attempt (Option Database) Bool := fun s =>
  let (rows, s) := b.ask statement parameters s
  ((countIn "deleted" rows).map fun n => 0 < n, s)

section Problems

/-- The number after that of the latest id; 1 when there is none, or it has no number. -/
def nextNumber : List Record → Except Fault Int
  | [] => .ok 1
  | row :: _ =>
    match row.column "problemId" with
    | .plain (.text id) => .ok (((ProblemId.number? id).map (· + 1)).getD 1)
    | d =>
      if d.isTruthy then .error (.missingOperation s!"'{d.typeName}' object is no id") else .ok 1

/-- The id of the next problem of a type. -/
def newId (b : Builder) (type : Datum) : Attempt (Option Database) String := fun s =>
  let (rows, s) := b.ask .latestProblem [("problemType", type)] s
  let id := do
    let number ← nextNumber rows
    ProblemId.write (← type.write) number
  (id, s)

def problemParameters (draft : ProblemDraft) : List (String × Datum) :=
  [("problemId", draft.id), ("problemType", draft.type), ("description", draft.description),
    ("isActive", draft.active)]

def mergeProblem (b : Builder) (draft : ProblemDraft) (s : Option Database) :
    Bool × Option Database :=
  b.succeeds .mergeProblem (problemParameters draft) s

/-- Writes a problem, after giving it an id if it has none. -/
def createProblem (b : Builder) (draft : ProblemDraft) :
    Attempt (Option Database) (Bool × ProblemDraft) := fun s =>
  if draft.id.isTruthy then
    match note [draft.id, draft.type] with
    | .error f => (.error f, s)
    | .ok () =>
      let (done, s) := b.mergeProblem draft s
      (.ok (done, draft), s)
  else
    match b.newId draft.type s with
    | (.error f, s) => (.error f, s)
    | (.ok id, s) =>
      let draft := { draft with id := .text id }
      let (done, s) := b.mergeProblem draft s
      (.ok (done, draft), s)

/-- Writes the fields of a problem that is there. -/
def updateProblem (b : Builder) (draft : ProblemDraft) : Attempt (Option Database) Bool := fun s =>
  match note [draft.id, draft.type] with
  | .error f => (.error f, s)
  | .ok () =>
    let (done, s) := b.succeeds .updateProblem (problemParameters draft) s
    (.ok done, s)

/-- Deletes a problem with its steps. -/
def deleteProblem (b : Builder) (id : Datum) : Attempt (Option Database) Bool :=
  b.deletes .deleteProblem [("problemId", id)]

def problems (b : Builder) (s : Option Database) : List ProblemDraft × Option Database :=
  let (rows, s) := b.ask .allProblems [] s
  (rows.map ProblemDraft.ofRecord, s)

end Problems

section Steps

/-- Writes a step, which has to look something up or to reply. -/
def createStep (b : Builder) (draft : StepDraft) : Attempt (Option Database) Bool := fun s =>
  if draft.operation.textOf?.any operations.contains then
    let (done, s) := b.succeeds .mergeStep [("problemId", draft.problem), ("stepId", draft.id),
      ("operation", draft.operation), ("properties", .dict draft.properties)] s
    (.ok done, s)
  else ((note [draft.operation, draft.problem, draft.id]).map fun _ => false, s)

/-- The steps of a problem. -/
def stepsOf (b : Builder) (problem : Datum) (s : Option Database) :
    List StepDraft × Option Database :=
  let (rows, s) := b.ask .stepsOfProblem [("problemId", problem)] s
  (rows.map StepDraft.ofRecord, s)

end Steps

section Relations

def isFirst (draft : RelationDraft) : Bool := draft.type.textOf? = some firstRelation

/-- The steps that have to be there for a relation, in the order in which they are looked for. -/
def endsOf (draft : RelationDraft) : List Datum :=
  if isFirst draft then [draft.target] else [draft.source, draft.target]

/-- The statement that writes a relation of a type. -/
def relationStatement (draft : RelationDraft) : Statement :=
  if isFirst draft then .createFirst
  else if draft.type.textOf? = some defaultRelation then .createDefault
  else .createGuarded

/-- Whether all of some steps of a problem are there. -/
def hasSteps (b : Builder) (problem : Datum) : List Datum → Attempt (Option Database) Bool
  | [], s => (.ok true, s)
  | id :: rest, s =>
    match b.count .countStep [("problemId", problem), ("stepId", id)] s with
    | (.error f, s) => (.error f, s)
    | (.ok n, s) =>
      if n = 0 then ((note [problem, id]).map fun _ => false, s) else b.hasSteps problem rest s

/-- Whether the problem and the ends of a relation are there. -/
def hasEnds (b : Builder) (draft : RelationDraft) : Attempt (Option Database) Bool := fun s =>
  match b.count .countProblem [("problemId", draft.problem)] s with
  | (.error f, s) => (.error f, s)
  | (.ok n, s) =>
    if n = 0 then ((note [draft.problem]).map fun _ => false, s)
    else b.hasSteps draft.problem (endsOf draft) s

/-- Writes a relation, which has to be valid and to have its problem and ends in the database. -/
def createRelation (b : Builder) (draft : RelationDraft) :
    Attempt (Option Database) Bool := fun s =>
  if draft.defects.isEmpty then
    match b.hasEnds draft s with
    | (.ok true, s) =>
      let (done, s) := b.succeeds (relationStatement draft)
        [("problemId", draft.problem), ("fromStepId", draft.source), ("toStepId", draft.target),
          ("condition", draft.condition)] s
      (.ok done, s)
    | found => found
  else ((note draft.fields).map fun _ => false, s)

end Relations

section Whole

/-- Deletes what has an id of the database. -/
def deleteElement (b : Builder) (statement : Statement) (id : Datum) :
    Attempt (Option Database) Bool := fun s =>
  match id.write with
  | .error f => (.error f, s)
  | .ok id => b.deletes statement [("elementId", .text id)] s

def deleteNode (b : Builder) : Datum → Attempt (Option Database) Bool :=
  b.deleteElement .deleteNode

def deleteRelation (b : Builder) : Datum → Attempt (Option Database) Bool :=
  b.deleteElement .deleteRelation

/-- Empties the database. -/
def clear (b : Builder) : Option Database → Bool × Option Database
  | none => (false, none)
  | some database =>
    let (r, database) := Database.ask b.database .clear [] database
    (r.isOk, some database)

/-- All nodes and all relations. -/
def contents (b : Builder) (s : Option Database) : (List Record × List Record) × Option Database :=
  let (nodes, s) := b.ask .nodes [] s
  let (edges, s) := b.ask .edges [] s
  ((nodes, edges), s)

/-- What has come of some problems: how many were written, their ids, and all problems with the
ids they have now. -/
structure Written where
  tally : Tally
  ids : List Datum
  problems : List ProblemDraft

/-- Takes in a problem that was written or not. -/
def Written.add (w : Written) (done : Bool) (draft : ProblemDraft) : Written :=
  let problems := w.problems ++ [draft]
  if done then
    ⟨{ w.tally with problems := w.tally.problems + 1 }, w.ids ++ [draft.id], problems⟩
  else ⟨{ w.tally with failed := w.tally.failed + 1 }, w.ids, problems⟩

/-- Writes the active ones of some problems. -/
def createProblems (b : Builder) : List ProblemDraft → Written → Attempt (Option Database) Written
  | [], w, s => (.ok w, s)
  | draft :: rest, w, s =>
    if draft.active.isTruthy then
      match b.createProblem draft s with
      | (.error f, s) => (.error f, s)
      | (.ok (done, draft), s) => b.createProblems rest (w.add done draft) s
    else b.createProblems rest { w with problems := w.problems ++ [draft] } s

def createSteps (b : Builder) : List StepDraft → Tally → Attempt (Option Database) Tally
  | [], tally, s => (.ok tally, s)
  | draft :: rest, tally, s =>
    match b.createStep draft s with
    | (.error f, s) => (.error f, s)
    | (.ok true, s) => b.createSteps rest { tally with steps := tally.steps + 1 } s
    | (.ok false, s) => b.createSteps rest { tally with failed := tally.failed + 1 } s

def createRelations (b : Builder) :
    List RelationDraft → Tally → Attempt (Option Database) Tally
  | [], tally, s => (.ok tally, s)
  | draft :: rest, tally, s =>
    match b.createRelation draft s with
    | (.error f, s) => (.error f, s)
    | (.ok true, s) => b.createRelations rest { tally with relations := tally.relations + 1 } s
    | (.ok false, s) => b.createRelations rest { tally with failed := tally.failed + 1 } s

/-- Whether an id is one of some ids. -/
def isAmong (ids : List Datum) (id : Datum) : Bool :=
  ids.any id.same

/-- Writes the active ones of some problems, then the steps and then the relations of those that
were written. Answers with what was written and with the ids that the problems have now. -/
def createGraph (b : Builder) (problems : List ProblemDraft) (steps : List StepDraft)
    (relations : List RelationDraft) :
    Attempt (Option Database) (Tally × List ProblemDraft) := fun s =>
  match b.createProblems problems ⟨.zero, [], []⟩ s with
  | (.error f, s) => (.error f, s)
  | (.ok w, s) =>
    match b.createSteps (steps.filter fun d => isAmong w.ids d.problem) w.tally s with
    | (.error f, s) => (.error f, s)
    | (.ok tally, s) =>
      match b.createRelations (relations.filter fun d => isAmong w.ids d.problem) tally s with
      | (.error f, s) => (.error f, s)
      | (.ok tally, s) => (.ok (tally, w.problems), s)

end Whole

end Builder

end Playbook
