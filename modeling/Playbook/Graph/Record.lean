import Playbook.Fault
import Playbook.Text.Blank
/-!
# Problems, steps and relations

A playbook is a graph: a problem leads to its first step, and a step to the steps that may follow
it. A step looks something up or replies. Any field may be unset.
-/

namespace Playbook

/-- What a step does. -/
def queryOperation : String := "query"
def replyOperation : String := "reply"
def operations : List String := [queryOperation, replyOperation]

/-- What a relation is. -/
def firstRelation : String := "FIRST_STEP"
def defaultRelation : String := "NEXT_DEFAULT"
def guardedRelation : String := "NEXT_IF"
def nextRelations : List String := [defaultRelation, guardedRelation]
def relationTypes : List String := [firstRelation, defaultRelation, guardedRelation]

/-- A kind of question that a playbook answers. -/
structure Problem where
  id : Option String
  type : Option String
  description : Option String
  active : Bool
deriving DecidableEq, Inhabited

/-- A problem and a number in it. -/
abbrev StepKey := Option String × Option Int

/-- A step of a problem. -/
structure Step where
  problem : Option String
  id : Option Int
  operation : Option String
  system : Option String
  table : Option String
  field : Option String
  condition : Option String
  reply : Option String
deriving DecidableEq, Inhabited

namespace Step

def key (step : Step) : StepKey := (step.problem, step.id)

def isQuery (step : Step) : Bool := step.operation = some queryOperation

def isReply (step : Step) : Bool := step.operation = some replyOperation

end Step

/-- A key as it is shown in a listing, with all digits of its number. Only what lacks the key is
told so, and that is no text that is written on the way. -/
def StepKey.shown (key : StepKey) : String :=
  let problem := match key.1 with
    | some s => Text.quoted s
    | none => "None"
  let number := match key.2 with
    | some i => Text.integerText i
    | none => "None"
  s!"({problem}, {number})"

/-- Whether a text is unset or holds nothing but blanks. -/
def isUnstated (text : Option String) : Bool :=
  Text.isAllBlank (text.getD "")

/-- A relation from a problem to its first step, or from a step to one that may follow it. -/
structure Relation where
  problem : Option String
  source : Option Int
  target : Option Int
  type : Option String
  condition : Option String
deriving DecidableEq, Inhabited

/-- What is wrong with a relation of a type, with or without a source, under a condition. -/
def Relation.defectsOf (type : Option String) (hasSource : Bool) (condition : Option String) :
    List Defect :=
  (if type.any relationTypes.contains then [] else [.unknownType type]) ++
    (if type ≠ some firstRelation ∧ !hasSource then [.noSource] else []) ++
    (if type = some guardedRelation ∧ isUnstated condition then [.noCondition] else [])

/-- What is wrong with a relation; nothing if it is valid. -/
def Relation.defects (relation : Relation) : List Defect :=
  defectsOf relation.type relation.source.isSome relation.condition

/-- Whether a relation leads from a step to the next. -/
def Relation.isNext (relation : Relation) : Bool :=
  relation.type = some defaultRelation || relation.type = some guardedRelation

/-- A step that may follow, with the relation that leads to it. -/
structure Candidate where
  type : Option String
  condition : Option String
  step : Step
deriving DecidableEq, Inhabited

end Playbook
