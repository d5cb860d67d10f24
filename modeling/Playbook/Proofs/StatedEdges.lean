import Playbook.Construction.Ingest
import Playbook.Proofs.Writing

/-!
# Edges that statements state

A statement about a step that comes first or next, or a transition, is made by a subject of some
problem. Ingesting creates an edge for it in the problem of its target (`Ingest.relations_stated`),
so the edge is the one that is stated if the subject is of that problem too, and otherwise it starts
at whatever has the number of the subject there (`Builder.ingest_edges`).
-/

namespace Playbook

open Turtle

namespace Ingest

variable (triples : Triples)

/-- What a relation is stated by: a subject that is a problem or a step, with the id of the problem
that the subject is of, if there is one. The relation has the problem of its target. -/
inductive States : Option Datum → RelationDraft → Prop
  | first {subject object : Term} {target : StepDraft}
    (h : (subject, object) ∈ triples.pairs (ontologyTerm "firstStep"))
    (ht : (steps triples (problems triples)).get? object = some target) :
    States (((problems triples).get? subject).map ProblemDraft.id)
      (relationTo target .null firstRelation .null)
  | next {subject object : Term} {source target : StepDraft}
    (h : (subject, object) ∈ triples.pairs (ontologyTerm "nextDefault"))
    (hs : (steps triples (problems triples)).get? subject = some source)
    (ht : (steps triples (problems triples)).get? object = some target) :
    States (some source.problem) (relationTo target source.id defaultRelation .null)
  | transition {subject first last : Term} {source target : StepDraft}
    (h : subject ∈ triples.members (ontologyTerm "Transition"))
    (hf : triples.object? subject (ontologyTerm "from") = some first)
    (hl : triples.object? subject (ontologyTerm "to") = some last)
    (hs : (steps triples (problems triples)).get? first = some source)
    (ht : (steps triples (problems triples)).get? last = some target) :
    States (some source.problem) (relationTo target source.id guardedRelation
      (.ofText? ((triples.object? subject (ontologyTerm "condition")).map Term.text)))

theorem relations_stated {draft : RelationDraft}
    (h : draft ∈ relations triples (steps triples (problems triples))) :
    ∃ owner, States triples owner draft := by
  simp only [relations, firstRelations, defaultRelations, guardedRelations, transition?,
    List.mem_append, List.mem_filterMap, Option.bind_eq_bind, Option.bind_eq_some_iff,
    Option.pure_def, Option.some.injEq] at h
  rcases h with (⟨⟨subject, object⟩, hm, h⟩ | ⟨⟨subject, object⟩, hm, h⟩) | ⟨subject, hm, h⟩
  · obtain ⟨target, ht, rfl⟩ := h
    exact ⟨_, .first hm ht⟩
  · obtain ⟨target, ht, source, hs, rfl⟩ := h
    exact ⟨_, .next hm hs ht⟩
  · obtain ⟨source, ⟨first, hf, hs⟩, target, ⟨last, hl, ht⟩, rfl⟩ := h
    exact ⟨_, .transition hm hf hl hs ht⟩

/-- What writes an edge says what is stated: the key of the step that the edge leads to, and that
of the step or of the problem that it starts at, which are of one problem. -/
def Faithful (query : Statement × List (String × Datum)) : Prop :=
  let problems := problems triples
  let steps := steps triples problems
  let edge (problem source target condition : Datum) := [("problemId", problem),
    ("fromStepId", source), ("toStepId", target), ("condition", condition)]
  (∃ subject object problem target,
    (subject, object) ∈ triples.pairs (ontologyTerm "firstStep") ∧
    problems.get? subject = some problem ∧ steps.get? object = some target ∧
    problem.id.same target.problem = true ∧
    query = (.createFirst, edge target.problem .null target.id .null)) ∨
  (∃ subject object source target,
    (subject, object) ∈ triples.pairs (ontologyTerm "nextDefault") ∧
    steps.get? subject = some source ∧ steps.get? object = some target ∧
    source.problem.same target.problem = true ∧
    query = (.createDefault, edge target.problem source.id target.id .null)) ∨
  ∃ subject first last source target,
    subject ∈ triples.members (ontologyTerm "Transition") ∧
    triples.object? subject (ontologyTerm "from") = some first ∧
    triples.object? subject (ontologyTerm "to") = some last ∧
    steps.get? first = some source ∧ steps.get? last = some target ∧
    source.problem.same target.problem = true ∧
    query = (.createGuarded, edge target.problem source.id target.id
      (.ofText? ((triples.object? subject (ontologyTerm "condition")).map Term.text)))

/-- An edge is the one that is stated if what states it is of the problem of the target. -/
theorem States.faithful {owner : Option Datum} {draft : RelationDraft}
    (h : States triples owner draft) (ho : owner.any (·.same draft.problem) = true) :
    Faithful triples (Builder.creation draft) := by
  cases h with
  | @first subject object target h ht =>
    rw [Option.any_map, Option.any_eq_true] at ho
    obtain ⟨problem, hp, hsame⟩ := ho
    exact .inl ⟨subject, object, problem, target, h, hp, ht, hsame, rfl⟩
  | @next subject object source target h hs ht =>
    exact .inr (.inl ⟨subject, object, source, target, h, hs, ht, ho, rfl⟩)
  | @transition subject first last source target h hf hl hs ht =>
    exact .inr (.inr ⟨subject, first, last, source, target, h, hf, hl, hs, ht, ho, rfl⟩)

end Ingest

namespace Builder

open Exchange

/-- Writing a playbook writes no relations but those that it is given. -/
theorem createGraph_creations (b : Builder) (problems : List ProblemDraft) (steps : List StepDraft)
    (relations : List RelationDraft) (d : Database) : ∃ log d₁,
      (b.createGraph problems steps relations (some d)).2 = some d₁ ∧ b.Asks d log d₁ ∧
      ∀ e ∈ log, e.creates = true →
        ∃ draft ∈ relations, draft.defects = [] ∧ e.query = creation draft := by
  obtain ⟨merging, d₁, hmerging, hall, hend⟩ :=
    b.createProblems_exchanges problems ⟨.zero, [], []⟩ d
  have hmerges : ∀ e ∈ merging, e.creates = false := fun e he => by
    rcases hall e he with hl | ⟨_, -, -, hm⟩
    · simp [creates, hl]
    · simp [creates, hm.statement_eq]
  rcases hend with ⟨f, hf, -⟩ | ⟨failed, drafts, hr, -⟩
  · exact ⟨merging, d₁, by rw [createGraph, hf], hmerging, by simp +contextual [hmerges]⟩
  obtain ⟨stepping, d₂, hstepping, hsteps, hend⟩ := b.createSteps_exchanges
    (steps.filter fun step => isAmong (upserted merging) step.problem)
    ⟨0 + merging.countP upserts, 0, 0, 0 + failed⟩ d₁
  have hstep : ∀ e ∈ stepping, e.creates = false := fun e he => by simp [creates, (hsteps e he).1]
  rcases hend with ⟨f, hf, -⟩ | ⟨failed₁, hr₁, -⟩
  · refine ⟨merging ++ stepping, d₂, by rw [b.createGraph_of_steps_error hr hf],
      hmerging.append hstepping, fun e he hc => ?_⟩
    rcases List.mem_append.1 he with he | he
    · simp [hmerges e he] at hc
    · simp [hstep e he] at hc
  obtain ⟨relating, d₃, hrelating, -, hpreceded, hend⟩ := b.createRelations_exchanges
    (relations.filter fun relation => isAmong (upserted merging) relation.problem)
    ⟨0 + merging.countP upserts, 0 + stepping.countP done, 0, 0 + failed + failed₁⟩ d₂
  refine ⟨merging ++ stepping ++ relating, d₃, ?_, (hmerging.append hstepping).append hrelating,
    fun e he hc => ?_⟩
  · rcases hend with ⟨f, hf, -⟩ | ⟨failed₂, hr₂, -⟩
    · rw [b.createGraph_of_parts hr hr₁ hf]
    · rw [b.createGraph_of_parts hr hr₁ hr₂]
  · have hm : e ∈ relating := by
      simp only [List.mem_append] at he
      rcases he with (he | he) | he
      · simp [hmerges e he] at hc
      · simp [hstep e he] at hc
      · exact he
    obtain ⟨earlier, later, hlog⟩ := List.append_of_mem hm
    obtain ⟨draft, hd, hv, hq, -⟩ := hpreceded earlier e later hlog hc
    exact ⟨draft, (List.mem_filter.1 hd).1, hv, hq⟩

/-- Whatever the database answers, ingesting writes no edges but for what is stated of steps, and
each that is stated by a problem of its first step, or between two steps of one problem, is written
as it is stated. -/
theorem ingest_edges (b : Builder) (triples : Triples) (d : Database) : ∃ log d₁,
    (b.ingest triples (some d)).2 = some d₁ ∧ b.Asks d log d₁ ∧
    d₁.calls = d.calls ++ log.map call ∧
    ∀ e ∈ log, e.creates = true → ∃ owner draft, Ingest.States triples owner draft ∧
      draft.defects = [] ∧ e.query = creation draft ∧
      (owner.any (·.same draft.problem) = true → Ingest.Faithful triples e.query) := by
  obtain ⟨log, d₁, hstate, hlog, hall⟩ := b.createGraph_creations
    (Ingest.problems triples).values (Ingest.steps triples (Ingest.problems triples)).values
    (Ingest.relations triples (Ingest.steps triples (Ingest.problems triples))) d
  refine ⟨log, d₁, hstate, hlog, hlog.calls, fun e he hc => ?_⟩
  obtain ⟨draft, hd, hv, hq⟩ := hall e he hc
  obtain ⟨owner, hs⟩ := Ingest.relations_stated triples hd
  exact ⟨owner, draft, hs, hv, hq, fun ho => hq ▸ hs.faithful triples ho⟩

/-- Two problems, and a step of the first that is followed by one of the second. -/
def crossing : Triples :=
  let step (subject problem number : String) : Triples :=
    [⟨.resource subject, typeTerm, ontologyTerm "Step"⟩,
      ⟨.resource subject, ontologyTerm "problem", .resource problem⟩,
      ⟨.resource subject, ontologyTerm "stepId",
        .literal number (some (dataType "integer")) none⟩,
      ⟨.resource subject, ontologyTerm "operation", .literal "reply" none none⟩]
  [⟨.resource "A", typeTerm, ontologyTerm "Problem"⟩,
    ⟨.resource "B", typeTerm, ontologyTerm "Problem"⟩] ++
    step "a1" "A" "1" ++ step "b1" "B" "1" ++ step "b2" "B" "2" ++
    [⟨.resource "a1", ontologyTerm "nextDefault", .resource "b2"⟩]

/-- The edge that is written starts at the step of the second problem with the number of the step
that is followed. -/
theorem ingest_strays :
    let query : Statement × List (String × Datum) :=
      (.createDefault, [("problemId", .text "B"), ("fromStepId", .int 1), ("toStepId", .int 2),
        ("condition", .null)])
    let after := ((⟨none⟩ : Builder).ingest crossing
      (some (.ofBackend (.recorder ⟨[], []⟩) true))).2
    after.bind (·.calls.getLast?) = some ⟨query.1, .ofEntries query.2⟩ ∧
      ¬ Ingest.Faithful crossing query := by
  intro query after
  have hnot : ¬ Ingest.Faithful crossing query := by
    rintro (⟨_, _, _, _, -, -, -, -, hq⟩ | ⟨subject, object, source, target, h, hs, ht, hsame, -⟩ |
      ⟨_, _, _, _, _, -, -, -, -, -, -, hq⟩)
    · cases congrArg Prod.fst hq
    · have hp : crossing.pairs (ontologyTerm "nextDefault") =
          [(.resource "a1", .resource "b2")] := by decide
      rw [hp, List.mem_singleton, Prod.mk.injEq] at h
      obtain ⟨rfl, rfl⟩ := h
      have hA : Datum.text "A" = source.problem :=
        Option.some.inj (congrArg (Option.map StepDraft.problem) hs)
      have hB : Datum.text "B" = target.problem :=
        Option.some.inj (congrArg (Option.map StepDraft.problem) ht)
      rw [← hA, ← hB] at hsame
      exact absurd hsame (by decide)
    · cases congrArg Prod.fst hq
  exact ⟨rfl, hnot⟩

end Builder

end Playbook
