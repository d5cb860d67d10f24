import Playbook.Condition
import Playbook.Fields
import Playbook.Lookup
import Playbook.Template
/-!
# Walking a playbook

A walk starts at the first step of a problem. A query step looks a value up, adds it to the context
and moves on to the first candidate that applies; a reply step ends the walk with its text. Nothing
that goes wrong leaves the walk: it ends interrupted, with a reason and a message for the user.
-/

namespace Playbook

/-- How far a walk has come: what it knows, what of this it has looked up, and the steps visited in
order. -/
structure Progress where
  known : Fields
  found : Fields
  visited : List StepKey
deriving DecidableEq

namespace Progress

/-- Before the first step. -/
def initial (context : Context) : Progress := ⟨.ofContext context, .empty, []⟩

/-- What is known by name. -/
def context (progress : Progress) : Context := progress.known.named

/-- What was looked up, by name. -/
def results (progress : Progress) : Context := progress.found.named

@[simp]
theorem context_initial (context : Context) : (initial context).context = context :=
  Fields.named_ofContext context

@[simp]
theorem results_initial (context : Context) : (initial context).results = .empty := rfl

@[simp]
theorem visited_initial (context : Context) : (initial context).visited = [] := rfl

end Progress

/-- Why a walk is interrupted. -/
inductive Stop where
  /-- The problem has no first step. -/
  | noFirstStep (fault : Fault)
  /-- A step neither queries nor replies. -/
  | unsupportedOperation
  /-- A reply step has no text. -/
  | missingReply
  /-- The condition of a query names a variable without a value. -/
  | queryVariable (name : String)
  /-- A reply names a variable without a value. -/
  | replyVariable (name : String)
  | fault (fault : Fault)
deriving DecidableEq

/-- How a walk ends. -/
inductive Ending where
  | replied (message : String)
  | stopped (stop : Stop)
deriving DecidableEq

namespace Stop

def reason : Stop → String
  | noFirstStep _ => "no first step"
  | unsupportedOperation => "unsupported operation"
  | missingReply => "missing reply"
  | queryVariable _ | replyVariable _ => Kind.missingVariable.reason
  | fault f => f.kind.reason

def noSolutionMessage : String := "抱歉，找不到解决方案。"
def interruptedMessage : String := "抱歉，处理过程中断。"
def noReplyMessage : String := "抱歉，无法生成回复。"
def stepLimitMessage : String := "抱歉，处理步骤过多，已中止。"
def systemErrorMessage : String := "抱歉，系统处理出错。"
def queryVariableMessage (name : String) : String := s!"抱歉，查询条件缺少参数: {name}"
def replyVariableMessage (name : String) : String := s!"回复生成失败，缺少参数: {name}"

/-- What the user is told. -/
def message : Stop → String
  | noFirstStep _ => noSolutionMessage
  | unsupportedOperation => interruptedMessage
  | missingReply => noReplyMessage
  | queryVariable name => queryVariableMessage name
  | replyVariable name => replyVariableMessage name
  | fault f =>
    match f.kind with
    | .stepLimitExceeded => stepLimitMessage
    | .noNextStep | .noSatisfiedBranch => interruptedMessage
    | _ => systemErrorMessage

/-- The fault behind an interruption, if there is one. -/
def fault? : Stop → Option Fault
  | noFirstStep f => some f
  | unsupportedOperation | missingReply => none
  | queryVariable name | replyVariable name => some (.missingVariable name)
  | fault f => some f

end Stop

/-- Whether a candidate may be followed: a default one always, a guarded one under its condition. -/
def Candidate.applies (context : Context) (candidate : Candidate) : Bool :=
  candidate.type = some defaultRelation ||
    (candidate.type = some guardedRelation && Condition.evaluate? candidate.condition context)

/-- The first candidate that may be followed. -/
def Candidate.select (candidates : List Candidate) (context : Context) : Option Candidate :=
  candidates.find? (Candidate.applies context)

/-- Where a walk reads the playbook and looks values up. -/
structure Services (γ τ : Type) where
  graph : GraphSource γ
  lookup : LookupSource τ

namespace Traversal

variable {γ τ : Type}

/-- The most steps that a walk visits unless told otherwise. -/
def defaultLimit : Nat := 100

/-- What stops a walk that has to tell of a step: nothing, unless its number cannot be written. -/
def untold (step : Step) : Option Stop :=
  match shownNumber step.id with
  | .ok _ => none
  | .error f => some (.fault f)

/-- How a walk ends at a reply step. -/
def reply (step : Step) (context : Context) : Ending :=
  match step.reply with
  | none => .stopped ((untold step).getD .missingReply)
  | some template =>
    if template = "" then .stopped ((untold step).getD .missingReply)
    else
      match Template.render template context with
      | .ok message => .replied message
      | .error (.missingVariable name) => .stopped (.replyVariable name)
      | .error f => .stopped (.fault f)

/-- Keeps the value of a lookup under its field, unless it is null. -/
def Progress.keep (progress : Progress) (field : Option String) (v : Value) : Progress :=
  if v = .null then progress
  else
    { progress with
      known := progress.known.insert field v
      found := progress.found.insert field v }

/-- Looks up the value that a query step asks for, and why that interrupts the walk if it does. A
step without a condition looks nothing up, of which the walk tells. A value without a text is kept
before it interrupts. -/
def lookUp (lookup : LookupSource τ) (step : Step) (progress : Progress) (t : τ) :
    Option Stop × Progress × τ :=
  match step.condition with
  | none => (untold step, progress, t)
  | some template =>
    if template = "" then (untold step, progress, t)
    else
      match Template.render template progress.context with
      | .error (.missingVariable name) => (some (.queryVariable name), progress, t)
      | .error f => (some (.fault f), progress, t)
      | .ok condition =>
        match lookup.scalar step.system step.table step.field condition t with
        | (.error f, t) => (some (.fault f), progress, t)
        | (.ok v, t) =>
          let kept := Progress.keep progress step.field v
          match v.format with
          | .ok _ => (none, kept, t)
          | .error f => (some (.fault f), kept, t)

/-- The step to move on to among the candidates of a step. A walk tells where it goes, and from
where it can go nowhere. -/
def follow (step : Step) (candidates : List Candidate) (context : Context) : Except Fault Step := do
  if candidates.isEmpty then throw (.noNextStep (← shownNumber step.id))
  else
    match Candidate.select candidates context with
    | some chosen =>
      let _ ← shownNumber chosen.step.id
      return chosen.step
    | none => throw (.noSatisfiedBranch (← shownNumber step.id))

/-- The step to move on to. -/
def next (graph : GraphSource γ) (problem : Option String) (step : Step) (context : Context) :
    Attempt γ Step := fun g =>
  match graph.candidates problem step.id g with
  | (.error f, g) => (.error f, g)
  | (.ok candidates, g) => (follow step candidates context, g)

/-- Walks on from a step with so many steps left to visit. A step that is visited again is told of,
and always can be: a walk has gone there before. -/
def walk (services : Services γ τ) (problem : Option String) (limit : Nat) :
    Nat → Step → Progress → γ × τ → Ending × Progress × (γ × τ)
  | 0, _, progress, world =>
    (.stopped (.fault (.stepLimitExceeded problem limit)), progress, world)
  | left + 1, step, progress, (g, t) =>
    let progress := { progress with visited := progress.visited ++ [step.key] }
    if step.isReply then (reply step progress.context, progress, (g, t))
    else if !step.isQuery then (.stopped .unsupportedOperation, progress, (g, t))
    else
      match lookUp services.lookup step progress t with
      | (some stop, progress, t) => (.stopped stop, progress, (g, t))
      | (none, progress, t) =>
        match next services.graph problem step progress.context g with
        | (.error f, g) => (.stopped (.fault f), progress, (g, t))
        | (.ok following, g) => walk services problem limit left following progress (g, t)

/-- Walks from the first step of a problem. -/
def start (services : Services γ τ) (limit : Nat) (problem : Option String) (context : Context)
    (world : γ × τ) : Ending × Progress × (γ × τ) :=
  let progress := Progress.initial context
  match services.graph.firstStep problem world.1 with
  | (.ok step, g) => walk services problem limit limit step progress (g, world.2)
  | (.error f, g) =>
    let stop := if f.kind = .notFound then Stop.noFirstStep f else .fault f
    (.stopped stop, progress, (g, world.2))

end Traversal

/-- What a walk answers. Data that make no context are refused and given back as they are. -/
inductive Outcome where
  | refused (data : OrderedMap String Datum) (fault : Fault)
  | ended (ending : Ending) (progress : Progress)

namespace Outcome

def stop? : Outcome → Option Stop
  | refused _ f => some (.fault f)
  | ended (.stopped stop) _ => some stop
  | ended (.replied _) _ => none

def message : Outcome → String
  | refused _ f => (Stop.fault f).message
  | ended (.stopped stop) _ => stop.message
  | ended (.replied message) _ => message

def completed (outcome : Outcome) : Bool := outcome.stop?.isNone

def reason? (outcome : Outcome) : Option String := outcome.stop?.map Stop.reason

def fault? (outcome : Outcome) : Option Fault := outcome.stop?.bind Stop.fault?

/-- The context after the walk, by name. -/
def data : Outcome → OrderedMap String Datum
  | refused data _ => data
  | ended _ progress => progress.context.toData

def visited : Outcome → List StepKey
  | refused .. => []
  | ended _ progress => progress.visited

def results : Outcome → Context
  | refused .. => .empty
  | ended _ progress => progress.results

end Outcome

/-- Walks a problem with the context that data describe, visiting at most `limit` steps. -/
def Traversal.run {γ τ : Type} (services : Services γ τ) (limit : Nat) (problem : Option String)
    (data : OrderedMap String Datum) (world : γ × τ) : Outcome × (γ × τ) :=
  match Context.ofData data with
  | .error f => (.refused data f, world)
  | .ok context =>
    let (ending, progress, world) := Traversal.start services limit problem context world
    (.ended ending progress, world)

end Playbook
