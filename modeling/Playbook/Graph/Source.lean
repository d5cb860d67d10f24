import Playbook.Graph.Record
/-!
# Where playbooks are read from

Walking and auditing read a playbook through four questions. A source answers them from a state of
its own, which it may change while it answers, and which survives a fault.
-/

namespace Playbook

/-- A computation that may fail and changes a state either way. -/
abbrev Attempt (σ α : Type) := σ → Except Fault α × σ

/-- The questions that a playbook answers. -/
structure GraphSource (σ : Type) where
  /-- The step that a problem starts with. -/
  firstStep : Option String → Attempt σ Step
  /-- The steps that may follow a step of a problem, in the order in which they are tried. -/
  candidates : Option String → Option Int → Attempt σ (List Candidate)
  /-- The active problem of a type. -/
  problemFor : Option String → Attempt σ String
  problems : Attempt σ (List Problem)

/-- One of the questions. -/
inductive Question where
  | firstStep
  | candidates
  | problemFor
  | problems
deriving DecidableEq

/-- A source that answers some of the questions with a fault. -/
def GraphSource.failing {σ : Type} (source : GraphSource σ) (questions : List Question)
    (fault : Fault) : GraphSource σ where
  firstStep problem s :=
    if .firstStep ∈ questions then (.error fault, s) else source.firstStep problem s
  candidates problem step s :=
    if .candidates ∈ questions then (.error fault, s) else source.candidates problem step s
  problemFor type s :=
    if .problemFor ∈ questions then (.error fault, s) else source.problemFor type s
  problems s :=
    if .problems ∈ questions then (.error fault, s) else source.problems s

end Playbook
