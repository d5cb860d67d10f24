import Playbook.Proofs.Recorded
import Playbook.Proofs.Upserts

/-!
# Writing a playbook again

Problems and steps are written by operations that go by keys (`keyed_problems`, `keyed_steps`): a
problem is replaced, and a step gets the fields of all drafts with its key (`apply_steps`). What is
put again is as it was (`putProblems_again`, `putSteps_again`). So a playbook that is written again
leaves the nodes as they are, and its relations are accepted as before
(`Builder.createGraph_again`).
-/

namespace Playbook

namespace RecordedGraph

open Upsert

section Problems

def problemUpsert : Upsert ProblemDraft Record where
  holds draft := hasId draft.id
  revise draft _ := draft.record
  blank draft := draft.record

theorem putProblems_eq_run (drafts : List ProblemDraft) (problems : List Record) :
    putProblems drafts problems = problemUpsert.run drafts problems := rfl

theorem keyed_problems {drafts : List ProblemDraft}
    (h : ∀ draft ∈ drafts, draft.id.same draft.id = true) : problemUpsert.Keyed drafts where
  blank := h
  shared draft _ draft' _ hs p hp := by
    have hid : draft.id.same draft'.id = true := hs
    exact Datum.same_trans hp (Datum.same_symm hid)
  revise draft _ draft' _ p hp := (Datum.same_left_eq hp draft'.id).symm

theorem putProblems_again {drafts : List ProblemDraft}
    (h : ∀ draft ∈ drafts, draft.id.same draft.id = true) (problems : List Record) :
    putProblems drafts (putProblems drafts problems) = putProblems drafts problems := by
  have hk := keyed_problems h
  exact hk.run_run (hk.apply_apply fun _ _ _ => rfl) problems

end Problems

section Steps

def stepUpsert : Upsert StepDraft ((Datum × Datum) × Record) where
  holds draft := hasKey draft.problem draft.id
  revise draft s := (s.1, OrderedMap.insertAll s.2 draft.fields)
  blank draft := ((draft.problem, draft.id), .empty)

theorem putSteps_eq_run (drafts : List StepDraft) (steps : List ((Datum × Datum) × Record)) :
    putSteps drafts steps = stepUpsert.run drafts steps := rfl

theorem keyed_steps {drafts : List StepDraft}
    (h : ∀ draft ∈ drafts, draft.problem.same draft.problem = true ∧
      draft.id.same draft.id = true) : stepUpsert.Keyed drafts where
  blank draft hd := Bool.and_eq_true_iff.2 (h draft hd)
  shared draft _ draft' _ hs s hheld := by
    obtain ⟨hproblem, hid⟩ := Bool.and_eq_true_iff.1 hs
    obtain ⟨hproblem', hid'⟩ := Bool.and_eq_true_iff.1 hheld
    exact Bool.and_eq_true_iff.2 ⟨Datum.same_trans hproblem' (Datum.same_symm hproblem),
      Datum.same_trans hid' (Datum.same_symm hid)⟩
  revise _ _ _ _ _ _ := rfl

/-- The fields that drafts set under a key, in order. -/
def fieldsUnder (drafts : List StepDraft) (key : Datum × Datum) : List (String × Datum) :=
  (drafts.filter fun draft => key.1.same draft.problem && key.2.same draft.id).flatMap
    StepDraft.fields

theorem apply_steps (drafts : List StepDraft) (key : Datum × Datum) (fields : Record) :
    stepUpsert.apply drafts (key, fields) =
      (key, OrderedMap.insertAll fields (fieldsUnder drafts key)) := by
  induction drafts generalizing fields with
  | nil => rfl
  | cons draft rest ih =>
    change stepUpsert.apply rest (stepUpsert.step draft (key, fields)) = _
    by_cases hheld : (key.1.same draft.problem && key.2.same draft.id) = true
    · have hstep : stepUpsert.step draft (key, fields) =
        (key, OrderedMap.insertAll fields draft.fields) := if_pos hheld
      have hunder : fieldsUnder (draft :: rest) key = draft.fields ++ fieldsUnder rest key := by
        simp only [fieldsUnder, List.filter_cons, hheld, if_true, List.flatMap_cons]
      rw [hstep, ih, hunder, OrderedMap.insertAll_append]
    · have hstep : stepUpsert.step draft (key, fields) = (key, fields) := if_neg hheld
      have hunder : fieldsUnder (draft :: rest) key = fieldsUnder rest key := by
        simp only [fieldsUnder, List.filter_cons, hheld]
        rfl
      rw [hstep, ih, hunder]

theorem putSteps_again {drafts : List StepDraft}
    (h : ∀ draft ∈ drafts, draft.problem.same draft.problem = true ∧
      draft.id.same draft.id = true) (steps : List ((Datum × Datum) × Record)) :
    putSteps drafts (putSteps drafts steps) = putSteps drafts steps := by
  refine (keyed_steps h).run_run ?_ steps
  rintro ⟨key, fields⟩
  rw [apply_steps, apply_steps, OrderedMap.insertAll_insertAll]

theorem same_of_mem_stepsUnder {problems : List ProblemDraft} {steps : List StepDraft}
    {draft : StepDraft} (h : draft ∈ stepsUnder problems steps) :
    draft.problem.same draft.problem = true := by
  obtain ⟨id, -, hs⟩ := List.any_eq_true.1 (List.mem_filter.1 h).2
  exact Datum.same_trans hs (Datum.same_symm hs)

end Steps

/-- The steps of a playbook that are written have keys that are equal to themselves. -/
theorem same_of_mem_stepped {problems : List ProblemDraft} {steps : List StepDraft}
    (hs : ∀ draft ∈ steps, draft.id.same draft.id = true) {draft : StepDraft}
    (h : draft ∈ (stepsUnder problems steps).filter StepDraft.acts) :
    draft.problem.same draft.problem = true ∧ draft.id.same draft.id = true := by
  have hunder := (List.mem_filter.1 h).1
  exact ⟨same_of_mem_stepsUnder hunder, hs draft (List.mem_filter.1 hunder).1⟩

end RecordedGraph

namespace Builder

open RecordedGraph

/-- On a database that records a graph, a playbook may be written again: with ids that are set and
keys that are equal to themselves, as texts and numbers are, the second time leaves the problems and
steps as they are, answers the same and has the same exchanges. There are counts unless something
cannot be noted, and this is found at the same place both times. -/
theorem createGraph_again (b : Builder) {graph : RecordedGraph} {database : Database}
    (hd : database.backend = .recorder graph) {problems : List ProblemDraft}
    (hp : ∀ draft ∈ problems, draft.active.isTruthy = true →
      draft.id.isTruthy = true ∧ draft.id.same draft.id = true)
    {steps : List StepDraft} (hs : ∀ draft ∈ steps, draft.id.same draft.id = true)
    (relations : List RelationDraft) :
    ∃ graph₁ log r d₁ d₂,
      b.createGraph problems steps relations (some database) = (r, some d₁) ∧
      b.createGraph problems steps relations (some d₁) = (r, some d₂) ∧
      (CanNote problems steps relations → ∃ tally, r = .ok (tally, problems)) ∧
      d₁.backend = .recorder graph₁ ∧ d₂.backend = .recorder graph₁ ∧
      b.Asks database log d₁ ∧ b.Asks d₁ log d₂ ∧
      d₁.calls = database.calls ++ log.map Exchange.call ∧
      d₂.calls = d₁.calls ++ log.map Exchange.call := by
  have hactive : ∀ draft ∈ activeOf problems, draft.id.isTruthy = true ∧
      draft.id.same draft.id = true := fun draft hd =>
    hp draft (List.mem_filter.1 hd).1 (List.mem_filter.1 hd).2
  obtain ⟨merged, stepped, hmerged, hstepped, -, h⟩ :=
    b.leaves_createGraph (fun draft hd => (hactive draft hd).1) steps relations
  obtain ⟨log, r, hleaves, hall⟩ :=
    h ⟨putProblems merged graph.problems, putSteps stepped graph.steps⟩
  obtain ⟨d₁, hr₁, hd₁, hlog₁⟩ := hleaves graph rfl database hd
  -- The second time starts from a graph that is already as it leaves it.
  have hagain : (⟨putProblems merged (putProblems merged graph.problems),
      putSteps stepped (putSteps stepped graph.steps)⟩ : RecordedGraph) =
        ⟨putProblems merged graph.problems, putSteps stepped graph.steps⟩ := by
    rw [putProblems_again fun draft hd => (hactive draft (hmerged draft hd)).2,
      putSteps_again fun draft hd => same_of_mem_stepped hs (hstepped draft hd)]
  obtain ⟨d₂, hr₂, hd₂, hlog₂⟩ := hleaves _ hagain d₁ hd₁
  exact ⟨_, log, r, d₁, d₂, hr₁, hr₂, fun hw => ⟨_, (hall hw).1⟩, hd₁, hd₂, hlog₁, hlog₂,
    hlog₁.calls, hlog₂.calls⟩

/-- A problem that is there already, and a step that is written twice under one key. -/
theorem createGraph_again_refunds :
    let problem (type : String) : ProblemDraft :=
      ⟨.text "refund-001", .text type, .text "", .bool true⟩
    let step (id : Datum) (system : Datum) : StepDraft :=
      ⟨.text "refund-001", id, .text "query", system, .text "orders", .text "paid", .null, .null⟩
    let graph : RecordedGraph := ⟨[(problem "return").record], []⟩
    let run (s : Option Database) := (⟨none⟩ : Builder).createGraph [problem "refund"]
      [step (.int 1) (.text "core"), step (.bool true) .null]
      [⟨.text "refund-001", .null, .int 1, .text "FIRST_STEP", .null⟩] s
    ∃ graph₁ r d₁ d₂, run (some (.ofBackend (.recorder graph) true)) = (r, some d₁) ∧
      run (some d₁) = (r, some d₂) ∧ d₁.backend = .recorder graph₁ ∧
      d₂.backend = .recorder graph₁ := by
  intro problem step graph run
  have hp : ∀ draft ∈ [problem "refund"], draft.active.isTruthy = true →
      draft.id.isTruthy = true ∧ draft.id.same draft.id = true := by
    intro draft hd _
    rw [List.mem_singleton.1 hd]
    decide
  have hs : ∀ draft ∈ [step (.int 1) (.text "core"), step (.bool true) .null],
      draft.id.same draft.id = true := by
    intro draft hd
    rcases List.mem_pair.1 hd with rfl | rfl <;> rfl
  have hb : (Database.ofBackend (.recorder graph) true).backend = .recorder graph := rfl
  obtain ⟨graph₁, _, _, d₁, d₂, hr₁, hr₂, -, hd₁, hd₂, -⟩ := createGraph_again ⟨none⟩ hb hp hs
    [⟨.text "refund-001", .null, .int 1, .text "FIRST_STEP", .null⟩]
  exact ⟨graph₁, _, d₁, d₂, hr₁, hr₂, hd₁, hd₂⟩

end Builder

end Playbook
