import Playbook.Database
import Playbook.Graph.Draft
/-!
# Playbooks in a database

Answers come from the graph database and are kept for a while: an answer that is not empty serves
again as long as it is younger than a lifetime. A failure of the database is a fault in a strict
store, and an empty answer that is not kept in any other.
-/

namespace Playbook

/-- Where a store reads its records, the name of its database, and how long answers are kept. -/
structure RemoteGraph (θ δ : Type) where
  records : RecordSource θ δ
  database : Option String
  strict : Bool
  lifetime : θ

/-- What the records come from, and the answers that are kept with the time they came. -/
structure RemoteState (θ δ : Type) where
  outside : δ
  kept : OrderedMap String (θ × List Record)

namespace RemoteState

variable {θ δ : Type}

/-- Forgets all answers. -/
def forget (s : RemoteState θ δ) : RemoteState θ δ :=
  { s with kept := .empty }

end RemoteState

namespace RemoteGraph

variable {θ δ : Type} [Sub θ] [LT θ] [DecidableLT θ]

/-- The name under which an answer is kept. -/
def firstStepName (problem : Option String) : String :=
  s!"first_{shownText problem}"

/-- A step whose number cannot be written has no name. -/
def candidatesName (problem : Option String) (step : Option Int) : Except Fault String :=
  (shownNumber step).map fun number => s!"next_{shownText problem}_{number}"

def problemName (type : Option String) : String :=
  s!"intent_{shownText type}"

/-- The answer kept under a name, unless it has outlived its time. -/
def keptAnswer (graph : RemoteGraph θ δ) (name : String) (s : RemoteState θ δ) :
    Option (List Record) :=
  match s.kept.get? name with
  | some (born, rows) =>
    if graph.records.time s.outside - born < graph.lifetime then some rows else none
  | none => none

/-- Asks the database. -/
def ask (graph : RemoteGraph θ δ) (statement : Statement) (parameters : List (String × Datum)) :
    Attempt (RemoteState θ δ) (List Record) := fun s =>
  match graph.records.ask graph.database statement parameters s.outside with
  | (.ok rows, outside) => (.ok rows, { s with outside := outside })
  | (.error f, outside) =>
    let s := { s with outside := outside }
    if graph.strict then (.error (.storageFailed f.message), s) else (.ok [], s)

/-- Answers with what is kept under a name, or asks the database and keeps what it answers. -/
def answer (graph : RemoteGraph θ δ) (name : String) (statement : Statement)
    (parameters : List (String × Datum)) : Attempt (RemoteState θ δ) (List Record) := fun s =>
  match graph.keptAnswer name s with
  | some rows => (.ok rows, s)
  | none =>
    match graph.ask statement parameters s with
    | (.ok rows, s) =>
      if rows.isEmpty then (.ok rows, s)
      else (.ok rows, { s with kept := s.kept.insert name (graph.records.time s.outside, rows) })
    | (.error f, s) => (.error f, s)

/-- What the answer to a statement says, be it kept or new. -/
def read {α : Type} (graph : RemoteGraph θ δ) (name : String) (statement : Statement)
    (parameters : List (String × Datum)) (meaning : List Record → Except Fault α) :
    Attempt (RemoteState θ δ) α := fun s =>
  match graph.answer name statement parameters s with
  | (.error f, s) => (.error f, s)
  | (.ok rows, s) => (meaning rows, s)

/-- The step in the first row. -/
def stepIn (problem : Option String) : List Record → Except Fault Step
  | [] => .error (.noFirstStep problem)
  | row :: _ => (StepDraft.ofRecord row).resolve

/-- A candidate from a row, which needs a type. -/
def candidateOf (row : Record) : Except Fault Candidate := do
  let type ← RelationDraft.needed row "relationType"
  let type ← type.toText?
  let condition ← (row.column "condition").toText?
  let step ← (StepDraft.ofRecord row).resolve
  return ⟨type, condition, step⟩

/-- The id of a problem in the first row. -/
def idIn (type : Option String) : List Record → Except Fault String
  | [] => .error (.noProblemFor type)
  | row :: _ =>
    let id := row.column "problemId"
    if id.isTruthy then .ok id.asText else .error (.noProblemFor type)

def firstStep (graph : RemoteGraph θ δ) (problem : Option String) :
    Attempt (RemoteState θ δ) Step :=
  graph.read (firstStepName problem) .firstStep [("problemId", .ofText? problem)] (stepIn problem)

/-- What is not named is not asked for either. -/
def candidates (graph : RemoteGraph θ δ) (problem : Option String) (step : Option Int) :
    Attempt (RemoteState θ δ) (List Candidate) := fun s =>
  match candidatesName problem step with
  | .error f => (.error f, s)
  | .ok name =>
    graph.read name .candidates [("problemId", .ofText? problem), ("stepId", .ofInt? step)]
      (fun rows => rows.mapM candidateOf) s

def problemFor (graph : RemoteGraph θ δ) (type : Option String) :
    Attempt (RemoteState θ δ) String :=
  graph.read (problemName type) .problemByType [("problemType", .ofText? type)] (idIn type)

def problems (graph : RemoteGraph θ δ) : Attempt (RemoteState θ δ) (List Problem) := fun s =>
  match graph.ask .allProblems [] s with
  | (.error f, s) => (.error f, s)
  | (.ok rows, s) => (rows.mapM fun row => (ProblemDraft.ofRecord row).resolve, s)

/-- Answers from the database and from what is kept of its answers. -/
def source (graph : RemoteGraph θ δ) : GraphSource (RemoteState θ δ) where
  firstStep := graph.firstStep
  candidates := graph.candidates
  problemFor := graph.problemFor
  problems := graph.problems

end RemoteGraph

end Playbook
