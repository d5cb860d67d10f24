import Playbook.Graph.Source
import Playbook.OrderedMap
/-!
# Auditing a playbook

An audit looks at every step within a distance of the first step of a problem, nearest first, and
reports where a walk could get stuck: steps that lead nowhere without replying, guarded relations
without a condition, and problems that never end. An issue tells the numbers of steps, so there is
no report where one of them cannot be written.
-/

namespace Playbook

/-- What an audit finds wrong, with the numbers of steps as they are written. -/
inductive Issue where
  | noFirstStep
  /-- A step with nothing after it does not reply. -/
  | endIsNoReply (step : String)
  | noCondition (source target : String)
  | noEnd
deriving DecidableEq

def Issue.message : Issue → String
  | noFirstStep => "FIRST_STEP 없음"
  | endIsNoReply step => s!"종료 Step {step}가 reply 아님"
  | noCondition source target => s!"NEXT_IF {source}->{target} condition 없음"
  | noEnd => "종료 Step 없음"

/-- What an audit of a problem reports: the steps it can end at, and the issues in order. -/
structure Report where
  problem : Option String
  type : Option String
  hasFirstStep : Bool
  ends : List (Option Int × Option String)
  issues : List Issue
deriving DecidableEq

def Report.valid (report : Report) : Bool := report.issues.isEmpty

namespace Audit

variable {σ : Type}

/-- How far from the first step an audit looks unless told otherwise. -/
def defaultDepth : Nat := 10

/-- What an audit has found so far, and the keys of the steps it has come across. -/
structure Findings where
  ends : List (Option Int × Option String)
  issues : List Issue
  seen : List StepKey

/-- The issue that a candidate of a step raises if it has no condition where it needs one. -/
def guardIssues (step : Step) (candidate : Candidate) : Except Fault (List Issue) := do
  if candidate.type = some guardedRelation && isUnstated candidate.condition then
    return [.noCondition (← shownNumber step.id) (← shownNumber candidate.step.id)]
  else return []

/-- The issue that a step with nothing after it raises if it does not reply. -/
def endIssues (step : Step) : Except Fault (List Issue) := do
  if step.isReply then return []
  else return [.endIsNoReply (← shownNumber step.id)]

/-- Takes in one candidate of a step: an issue if it has no condition where it needs one, and its
step for the next level if it is new. -/
def visitCandidate (step : Step) (found : Findings × List Step) (candidate : Candidate) :
    Except Fault (Findings × List Step) := do
  let (findings, level) := found
  let issues := findings.issues ++ (← guardIssues step candidate)
  let key := candidate.step.key
  if key ∈ findings.seen then return ({ findings with issues := issues }, level)
  else
    return ({ findings with issues := issues, seen := key :: findings.seen },
      level ++ [candidate.step])

/-- Takes in a step with the candidates after it. -/
def visitStep (step : Step) (candidates : List Candidate) (findings : Findings)
    (level : List Step) : Except Fault (Findings × List Step) := do
  if candidates.isEmpty then
    let issues := findings.issues ++ (← endIssues step)
    let ends := findings.ends ++ [(step.id, step.operation)]
    return ({ findings with ends := ends, issues := issues }, level)
  else candidates.foldlM (visitCandidate step) (findings, level)

/-- Takes in the steps of a level and gathers those of the next. -/
def visitLevel (graph : GraphSource σ) (problem : Option String) :
    List Step → Findings → List Step → Attempt σ (Findings × List Step)
  | [], findings, level, s => (.ok (findings, level), s)
  | step :: rest, findings, level, s =>
    match graph.candidates problem step.id s with
    | (.error f, s) => (.error f, s)
    | (.ok candidates, s) =>
      match visitStep step candidates findings level with
      | .error f => (.error f, s)
      | .ok (findings, level) => visitLevel graph problem rest findings level s

/-- Takes in a level and, with so many levels below it, those that follow. -/
def visitLevels (graph : GraphSource σ) (problem : Option String) :
    Nat → List Step → Findings → Attempt σ Findings
  | 0, level, findings, s =>
    match visitLevel graph problem level findings [] s with
    | (.error f, s) => (.error f, s)
    | (.ok (findings, _), s) => (.ok findings, s)
  | depth + 1, level, findings, s =>
    match visitLevel graph problem level findings [] s with
    | (.error f, s) => (.error f, s)
    | (.ok (findings, []), s) => (.ok findings, s)
    | (.ok (findings, following), s) => visitLevels graph problem depth following findings s

/-- The report on a problem, looking at most `depth` relations away from its first step. -/
def problem (graph : GraphSource σ) (depth : Nat) (p : Problem) : Attempt σ Report := fun s =>
  match graph.firstStep p.id s with
  | (.error f, s) =>
    if f.kind = .notFound then (.ok ⟨p.id, p.type, false, [], [.noFirstStep]⟩, s)
    else (.error f, s)
  | (.ok first, s) =>
    match visitLevels graph p.id depth [first] ⟨[], [], [first.key]⟩ s with
    | (.error f, s) => (.error f, s)
    | (.ok findings, s) =>
      let issues := if findings.ends.isEmpty then findings.issues ++ [.noEnd] else findings.issues
      (.ok ⟨p.id, p.type, true, findings.ends, issues⟩, s)

/-- The reports on problems by id, one after the other. -/
def reports (graph : GraphSource σ) (depth : Nat) :
    List Problem → OrderedMap (Option String) Report → Attempt σ (OrderedMap (Option String) Report)
  | [], done, s => (.ok done, s)
  | p :: rest, done, s =>
    match problem graph depth p s with
    | (.error f, s) => (.error f, s)
    | (.ok report, s) => reports graph depth rest (done.insert p.id report) s

/-- The reports on all problems. -/
def all (graph : GraphSource σ) (depth : Nat) :
    Attempt σ (OrderedMap (Option String) Report) := fun s =>
  match graph.problems s with
  | (.error f, s) => (.error f, s)
  | (.ok problems, s) => reports graph depth problems .empty s

/-- Whether there are problems and all of them are valid. -/
def passes (reports : OrderedMap (Option String) Report) : Bool :=
  !reports.isEmpty && reports.values.all Report.valid

/-- Whether the playbook passes the audit; it does when audits are off. -/
def verdict (graph : GraphSource σ) (depth : Nat) (enabled : Bool) : Attempt σ Bool := fun s =>
  if enabled then
    match all graph depth s with
    | (.error f, s) => (.error f, s)
    | (.ok found, s) => (.ok (passes found), s)
  else (.ok true, s)

end Audit

end Playbook
