import Playbook.Graph.Source
import Playbook.OrderedMap
/-!
# Playbooks in memory

A local graph holds problems by id, steps by key, and relations in the order in which they were
added, which is the order in which they are tried. Additions through `add…` keep every relation
valid and its ends present.
-/

namespace Playbook

/-- Problems and steps stand under their own ids and keys. -/
structure LocalGraph where
  problems : OrderedMap String Problem
  steps : OrderedMap StepKey Step
  relations : List Relation
  problemsById : problems.Every fun id problem => problem.id = some id
  stepsByKey : steps.Every fun key step => step.key = key
deriving DecidableEq

/-- What may be added to a playbook. -/
inductive Addition where
  | problem (problem : Problem)
  | step (step : Step)
  | relation (relation : Relation)
deriving DecidableEq

namespace LocalGraph

def empty : LocalGraph :=
  ⟨.empty, .empty, [], OrderedMap.every_empty _, OrderedMap.every_empty _⟩

instance : Inhabited LocalGraph := ⟨empty⟩

/-- Adds a problem, which needs an id, or replaces the one with its id. -/
def addProblem (graph : LocalGraph) (problem : Problem) : Except Fault LocalGraph :=
  match h : problem.id with
  | some id =>
    if id = "" then .error .problemWithoutId
    else .ok { graph with
      problems := graph.problems.insert id problem
      problemsById := graph.problemsById.insert h }
  | none => .error .problemWithoutId

/-- Adds a step, or replaces the one with its key. -/
def addStep (graph : LocalGraph) (step : Step) : LocalGraph :=
  { graph with
    steps := graph.steps.insert step.key step
    stepsByKey := graph.stepsByKey.insert rfl }

def hasProblem (graph : LocalGraph) (problem : Option String) : Bool :=
  problem.any graph.problems.contains

/-- The first of two ends of a relation that is set and no step of the graph. -/
def missingEnd (graph : LocalGraph) (relation : Relation) : Option (Option Int) :=
  [relation.source, relation.target].find? fun id =>
    id.isSome && !graph.steps.contains (relation.problem, id)

/-- Adds a relation, which has to be valid and to have its problem and ends in the graph. -/
def addRelation (graph : LocalGraph) (relation : Relation) : Except Fault LocalGraph :=
  if relation.defects ≠ [] then .error (.invalidRelation relation.defects)
  else if !graph.hasProblem relation.problem then .error (.unknownProblem relation.problem)
  else
    match graph.missingEnd relation with
    | some id => (shownNumber id).bind fun step => .error (.unknownStep relation.problem step)
    | none => .ok { graph with relations := graph.relations ++ [relation] }

/-- The graph with an addition. -/
def add (graph : LocalGraph) : Addition → Except Fault LocalGraph
  | .problem problem => graph.addProblem problem
  | .step step => .ok (graph.addStep step)
  | .relation relation => graph.addRelation relation

/-- Makes an addition, or leaves the graph as it is when the addition is refused. -/
def enter (addition : Addition) : Attempt LocalGraph Unit := fun graph =>
  match graph.add addition with
  | .ok next => (.ok (), next)
  | .error f => (.error f, graph)

/-- The step with a key. -/
def step (graph : LocalGraph) (key : StepKey) : Except Fault Step :=
  match graph.steps.get? key with
  | some step => .ok step
  | none => .error (.missingEntry key.shown)

/-- The target of the first relation of a problem to a first step. -/
def firstStep (graph : LocalGraph) (problem : Option String) : Except Fault Step :=
  match graph.relations.find? fun r => r.problem = problem && r.type = some firstRelation with
  | some relation => graph.step (problem, relation.target)
  | none => .error (.noFirstStep problem)

/-- The relations from a step to the next, in order. -/
def relationsFrom (graph : LocalGraph) (problem : Option String) (id : Option Int) :
    List Relation :=
  graph.relations.filter fun r => r.problem = problem && r.source = id && r.isNext

/-- A relation with the step it leads to. -/
def candidate (graph : LocalGraph) (relation : Relation) : Except Fault Candidate := do
  let step ← graph.step (relation.problem, relation.target)
  return ⟨relation.type, relation.condition, step⟩

def candidates (graph : LocalGraph) (problem : Option String) (id : Option Int) :
    Except Fault (List Candidate) :=
  (graph.relationsFrom problem id).mapM graph.candidate

/-- The problems in the order of their ids by code points. -/
def sortedProblems (graph : LocalGraph) : List Problem :=
  (graph.problems.entries.mergeSort fun a b => a.1 ≤ b.1).map Prod.snd

/-- The least id of an active problem of a type. -/
def problemFor (graph : LocalGraph) (type : Option String) : Except Fault String :=
  match graph.sortedProblems.find? fun p => p.type = type && p.active with
  | some problem => .ok (problem.id.getD "")
  | none => .error (.noProblemFor type)

/-- Answers from the graph, which reading does not change. -/
def source (graph : LocalGraph) : GraphSource Unit where
  firstStep problem _ := (graph.firstStep problem, ())
  candidates problem id _ := (graph.candidates problem id, ())
  problemFor type _ := (graph.problemFor type, ())
  problems _ := (.ok graph.sortedProblems, ())

end LocalGraph

end Playbook
