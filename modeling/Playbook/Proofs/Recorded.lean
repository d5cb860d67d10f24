import Playbook.Proofs.FreshIds
import Playbook.Proofs.Writing

/-!
# Writing to a recorder

On a database that records a graph it is settled what is asked, what is answered and which graph is
left (`Builder.Leaves`). Problems and steps are recorded one after the other, whatever the graph
was, so what is asked for them does not depend on it. Relations leave the graph as it is, and
whether one is accepted depends on the graph alone (`RecordedGraph.admits`). So a playbook leaves
the graph with its problems and steps, as far as they can be noted, and all else is settled by that
(`Builder.leaves_createGraph`). One that can be noted is written as a whole (`RecordedGraph.write`,
`Builder.leaves_createGraph_created`).
-/

namespace Playbook

namespace StepDraft

def fields (draft : StepDraft) : List (String × Datum) :=
  ("operation", draft.operation) :: draft.properties

/-- Whether a step looks something up or replies. -/
def acts (draft : StepDraft) : Bool :=
  draft.operation.textOf?.any operations.contains

end StepDraft

namespace RecordedGraph

/-- Whether a relation is valid and its problem and ends are there. -/
def admits (graph : RecordedGraph) (draft : RelationDraft) : Bool :=
  draft.defects.isEmpty && (graph.hasProblem draft.problem &&
    (Builder.endsOf draft).all (graph.hasStep draft.problem))

/-- What is noted of steps that have to be there: the first that is not. -/
def missing (graph : RecordedGraph) (problem : Datum) (ids : List Datum) : List Datum :=
  ((ids.find? fun id => !graph.hasStep problem id).map fun id => [problem, id]).getD []

/-- What is noted of a relation: all of one that is not valid, else what is not there for it. -/
def noted (graph : RecordedGraph) (draft : RelationDraft) : List Datum :=
  if draft.defects.isEmpty then
    if graph.hasProblem draft.problem then
      graph.missing draft.problem (Builder.endsOf draft)
    else [draft.problem]
  else draft.fields

theorem notable_noted (graph : RecordedGraph) {draft : RelationDraft}
    (h : Builder.Notable (Builder.relationNotes draft)) :
    Builder.Notable (graph.noted draft) := by
  unfold noted
  unfold Builder.relationNotes at h
  split_ifs at h ⊢
  · rw [missing]
    rcases hf : (Builder.endsOf draft).find? fun id => !graph.hasStep draft.problem id with _ | id
    · exact fun _ hd => absurd hd List.not_mem_nil
    · have hid : id ∈ Builder.endsOf draft := List.mem_of_find?_eq_some hf
      rintro d (_ | ⟨_, _ | ⟨_, hd⟩⟩)
      · exact h _ List.mem_cons_self
      · exact h _ (List.mem_cons_of_mem _ hid)
      · cases hd
  · exact fun d hd => h d (List.mem_singleton.1 hd ▸ List.mem_cons_self)
  · exact h

def putProblems (drafts : List ProblemDraft) (problems : List Record) : List Record :=
  drafts.foldl (fun problems draft => putProblem draft.record problems) problems

def putSteps (drafts : List StepDraft) (steps : List ((Datum × Datum) × Record)) :
    List ((Datum × Datum) × Record) :=
  drafts.foldl (fun steps draft => putStep draft.problem draft.id draft.fields steps) steps

/-- Only active problems are written, and the steps and relations under them. -/
def activeOf (drafts : List ProblemDraft) : List ProblemDraft :=
  drafts.filter (·.active.isTruthy)

def stepsUnder (problems : List ProblemDraft) (steps : List StepDraft) : List StepDraft :=
  steps.filter fun draft => Builder.isAmong ((activeOf problems).map ProblemDraft.id) draft.problem

def relationsUnder (problems : List ProblemDraft) (relations : List RelationDraft) :
    List RelationDraft :=
  relations.filter fun draft =>
    Builder.isAmong ((activeOf problems).map ProblemDraft.id) draft.problem

/-- What is counted of a playbook on the graph with its problems and steps. -/
def tally (graph : RecordedGraph) (problems : List ProblemDraft) (steps : List StepDraft)
    (relations : List RelationDraft) : Tally where
  problems := (activeOf problems).length
  steps := (stepsUnder problems steps).countP StepDraft.acts
  relations := (relationsUnder problems relations).countP graph.admits
  failed := (stepsUnder problems steps).countP (!StepDraft.acts ·) +
    (relationsUnder problems relations).countP (!graph.admits ·)

/-- The graph with the problems and the steps of a playbook. -/
def write (graph : RecordedGraph) (problems : List ProblemDraft) (steps : List StepDraft) :
    RecordedGraph where
  problems := putProblems (activeOf problems) graph.problems
  steps := putSteps ((stepsUnder problems steps).filter StepDraft.acts) graph.steps

end RecordedGraph

namespace Builder

open RecordedGraph

variable {α β : Type} {b : Builder} {graph graph₁ graph₂ : RecordedGraph}
  {log later : List Exchange} {a : α} {c : β}

/-- On a database that records a graph, something has its exchanges, answers and leaves a graph. -/
def Leaves (b : Builder) (graph : RecordedGraph) (f : Option Database → α × Option Database)
    (log : List Exchange) (a : α) (graph₁ : RecordedGraph) : Prop :=
  ∀ d : Database, d.backend = .recorder graph →
    ∃ d₁, f (some d) = (a, some d₁) ∧ d₁.backend = .recorder graph₁ ∧ b.Asks d log d₁

section Parts

variable {f : Option Database → α × Option Database} {g k : Option Database → β × Option Database}

theorem leaves_pure (b : Builder) (graph : RecordedGraph) (a : α) :
    b.Leaves graph (fun s => (a, s)) [] a graph := fun d hd => ⟨d, rfl, hd, .nil⟩

theorem Leaves.andThen (hf : b.Leaves graph f log a graph₁) (hg : b.Leaves graph₁ g later c graph₂)
    (h : ∀ s s₁, f s = (a, s₁) → k s = g s₁) : b.Leaves graph k (log ++ later) c graph₂ := by
  intro d hd
  obtain ⟨d₁, hr, hd₁, hlog⟩ := hf d hd
  obtain ⟨d₂, hr₁, hd₂, hlater⟩ := hg d₁ hd₁
  exact ⟨d₂, (h _ _ hr).trans hr₁, hd₂, hlog.append hlater⟩

theorem Leaves.map (hf : b.Leaves graph f log a graph₁)
    (h : ∀ s s₁, f s = (a, s₁) → k s = (c, s₁)) : b.Leaves graph k log c graph₁ := by
  intro d hd
  obtain ⟨d₁, hr, hd₁, hlog⟩ := hf d hd
  exact ⟨d₁, h _ _ hr, hd₁, hlog⟩

theorem leaves_ask {statement : Statement} {parameters : List (String × Datum)}
    {rows : List Record}
    (h : graph.answer statement (.ofEntries parameters) = (.ok rows, graph₁)) :
    b.Leaves graph (b.ask statement parameters) [⟨statement, parameters, .ok rows⟩] rows
      graph₁ := by
  intro d hd
  have hs : (Database.openSession b.database d).backend = .recorder graph := hd
  have ha : ∃ d₁, Database.ask b.database statement parameters d = (.ok rows, d₁) ∧
      d₁.backend = .recorder graph₁ := by
    simp only [Database.ask, Database.send, hs, Database.answer, h]
    exact ⟨_, rfl, rfl⟩
  obtain ⟨d₁, ha, hd₁⟩ := ha
  exact ⟨d₁, by simp only [ask, ha], hd₁, .cons ha .nil⟩

theorem leaves_succeeds {statement : Statement} {parameters : List (String × Datum)} {row : Record}
    (h : graph.answer statement (.ofEntries parameters) = (.ok [row], graph₁)) :
    b.Leaves graph (b.succeeds statement parameters) [⟨statement, parameters, .ok [row]⟩] true
      graph₁ :=
  (leaves_ask h).map fun s s₁ hr => by rw [succeeds, hr]; rfl

theorem countIn_counted (n : Nat) : countIn "count" (counted "count" n) = .ok (n : Int) := by
  have hc : (row "count" (.int n)).column "count" = .int n := rfl
  rcases n with _ | n
  · rfl
  · simp only [counted, countIn, hc]
    rfl

theorem leaves_count {statement : Statement} {parameters : List (String × Datum)} {n : Nat}
    (h : graph.answer statement (.ofEntries parameters) = (.ok (counted "count" n), graph₁)) :
    b.Leaves graph (b.count statement parameters)
      [⟨statement, parameters, .ok (counted "count" n)⟩] (.ok (n : Int)) graph₁ :=
  (leaves_ask h).map fun s s₁ hr => by rw [count, hr, ← countIn_counted n]

end Parts

section Relations

/-- What was asked to make relations. -/
def created (log : List Exchange) : List (Statement × List (String × Datum)) :=
  (log.filter Exchange.creates).map Exchange.query

theorem created_append : created (log ++ later) = created log ++ created later := by
  simp [created]

theorem created_of_not (h : ∀ e ∈ log, e.creates = false) : created log = [] := by
  simpa [created] using h

theorem leaves_hasSteps (b : Builder) (graph : RecordedGraph) (problem : Datum)
    (ids : List Datum) : ∃ log, b.Leaves graph (b.hasSteps problem ids) log
      ((note (graph.missing problem ids)).map fun _ => ids.all (graph.hasStep problem)) graph ∧
      ∀ e ∈ log, e.creates = false := by
  induction ids with
  | nil => exact ⟨[], leaves_pure b graph _, by simp⟩
  | cons id rest ih =>
    have hcount : b.Leaves graph (b.count .countStep [("problemId", problem), ("stepId", id)]) _
      (.ok ((graph.hasStep problem id).toNat : Int)) graph := leaves_count rfl
    rw [List.all_cons, missing, List.find?_cons]
    cases hfound : graph.hasStep problem id with
    | false =>
      rw [hfound] at hcount
      exact ⟨_, hcount.map fun s s₁ hr => by simp only [hasSteps, hr]; rfl,
        by simp [Exchange.creates]⟩
    | true =>
      rw [hfound] at hcount
      obtain ⟨log, hlog, hnone⟩ := ih
      exact ⟨_, hcount.andThen hlog fun s s₁ hr => by simp only [hasSteps, hr]; rfl,
        by simpa [Exchange.creates] using hnone⟩

/-- What a valid relation needs is found, or the first thing that is not there is noted. -/
theorem leaves_hasEnds (b : Builder) (graph : RecordedGraph) {draft : RelationDraft}
    (hv : draft.defects.isEmpty = true) :
    ∃ log, b.Leaves graph (b.hasEnds draft) log
      ((note (graph.noted draft)).map fun _ => graph.admits draft) graph ∧
      ∀ e ∈ log, e.creates = false := by
  have hcount : b.Leaves graph (b.count .countProblem [("problemId", draft.problem)]) _
    (.ok ((graph.hasProblem draft.problem).toNat : Int)) graph := leaves_count rfl
  rw [noted, admits, hv, if_pos rfl, Bool.true_and]
  cases hfound : graph.hasProblem draft.problem with
  | false =>
    rw [hfound] at hcount
    exact ⟨_, hcount.map fun s s₁ hr => by simp only [hasEnds, hr]; rfl,
      by simp [Exchange.creates]⟩
  | true =>
    rw [hfound] at hcount
    obtain ⟨log, hlog, hnone⟩ := b.leaves_hasSteps graph draft.problem (endsOf draft)
    exact ⟨_, hcount.andThen hlog fun s s₁ hr => by simp only [hasEnds, hr]; rfl,
      by simpa [Exchange.creates] using hnone⟩

theorem answer_relationStatement (graph : RecordedGraph) (draft : RelationDraft)
    (parameters : Record) : ∃ row,
      graph.answer (relationStatement draft) parameters = (.ok [row], graph) := by
  unfold relationStatement
  split_ifs <;> exact ⟨_, rfl⟩

/-- Nothing is noted of a relation that is admitted. -/
theorem noted_of_admits {draft : RelationDraft} (h : graph.admits draft = true) :
    graph.noted draft = [] := by
  obtain ⟨hv, hp, hends⟩ : draft.defects.isEmpty = true ∧ graph.hasProblem draft.problem = true ∧
      (endsOf draft).all (graph.hasStep draft.problem) = true := by
    simpa only [admits, Bool.and_eq_true] using h
  have hfind : ((endsOf draft).find? fun id => !graph.hasStep draft.problem id) = none :=
    List.find?_eq_none.2 fun id hid => by simp [List.all_eq_true.1 hends id hid]
  rw [noted, if_pos hv, if_pos hp, missing, hfind]
  rfl

/-- A relation is made if it is admitted, and not even tried to be made if it is not. -/
theorem leaves_createRelation (b : Builder) (graph : RecordedGraph) (draft : RelationDraft) :
    ∃ log, b.Leaves graph (b.createRelation draft) log
      ((note (graph.noted draft)).map fun _ => graph.admits draft) graph ∧
      created log = if graph.admits draft then [creation draft] else [] := by
  cases hv : draft.defects.isEmpty with
  | false =>
    have hadmits : graph.admits draft = false := by rw [admits, hv, Bool.false_and]
    rw [hadmits, noted, hv, if_neg Bool.false_ne_true]
    refine ⟨[], fun d hd => ⟨d, ?_, hd, .nil⟩, rfl⟩
    simp only [createRelation, hv, Bool.false_eq_true, if_false]
  | true =>
    obtain ⟨log, hlog, hnone⟩ := b.leaves_hasEnds graph hv
    cases hadmits : graph.admits draft with
    | false =>
      -- The relation is turned down by the counts, and nothing is asked to be made.
      rw [hadmits] at hlog
      refine ⟨log, hlog.map fun s s₁ hr => ?_, created_of_not hnone⟩
      simp only [createRelation, hv, if_true, hr]
      cases note (graph.noted draft) <;> rfl
    | true =>
      rw [noted_of_admits hadmits, hadmits] at hlog
      rw [noted_of_admits hadmits]
      obtain ⟨row, hrow⟩ := answer_relationStatement graph draft (.ofEntries (creation draft).2)
      have hcreate : b.Leaves graph (fun s =>
          let r := b.succeeds (relationStatement draft) (creation draft).2 s
          ((.ok r.1 : Except Fault Bool), r.2)) _ (.ok true) graph :=
        (leaves_succeeds hrow).map fun s s₁ hr => by rw [hr]
      refine ⟨_, hlog.andThen hcreate fun s s₁ hr => by
        simp only [createRelation, hv, if_true, hr]
        rfl, ?_⟩
      have hmade : (Exchange.mk (relationStatement draft) (creation draft).2 (.ok [row])).creates =
        true := creates_of_query rfl
      have hlast : created [⟨relationStatement draft, (creation draft).2, .ok [row]⟩] =
          [creation draft] := by
        rw [created, List.filter_cons_of_pos hmade]
        rfl
      rw [created_append, created_of_not hnone, hlast]
      rfl

/-- Relations are made if they are admitted, as long as what is not there for the others can be
noted. -/
theorem leaves_createRelations (b : Builder) (graph : RecordedGraph)
    (drafts : List RelationDraft) (tally : Tally) :
    ∃ log r, b.Leaves graph (b.createRelations drafts tally) log r graph ∧
      ((∀ draft ∈ drafts, Notable (graph.noted draft)) →
        r = .ok { tally with
          relations := tally.relations + drafts.countP graph.admits
          failed := tally.failed + drafts.countP (!graph.admits ·) } ∧
        created log = (drafts.filter graph.admits).map creation) := by
  induction drafts generalizing tally with
  | nil => exact ⟨[], _, leaves_pure b graph _, fun _ => ⟨rfl, rfl⟩⟩
  | cons draft rest ih =>
    obtain ⟨log, hlog, hmade⟩ := b.leaves_createRelation graph draft
    rcases hn : note (graph.noted draft) with f | _ <;> rw [hn] at hlog
    · refine ⟨log, .error f, hlog.map fun s s₁ hr => by simp only [createRelations, hr]; rfl,
        fun hw => ?_⟩
      exact absurd (hw draft List.mem_cons_self) (not_notable_of_error hn)
    rw [List.countP_cons, List.countP_cons]
    cases hadmits : graph.admits draft with
    | false =>
      rw [hadmits] at hlog hmade
      obtain ⟨later, r, hlater, hothers⟩ := ih { tally with failed := tally.failed + 1 }
      refine ⟨log ++ later, r,
        hlog.andThen hlater fun s s₁ hr => by simp only [createRelations, hr]; rfl, fun hw => ?_⟩
      obtain ⟨rfl, hmore⟩ := hothers (List.forall_mem_of_forall_mem_cons hw)
      refine ⟨by simp [Nat.add_assoc, Nat.add_comm 1], ?_⟩
      simp [created_append, hmade, hmore, hadmits]
    | true =>
      rw [hadmits] at hlog hmade
      obtain ⟨later, r, hlater, hothers⟩ := ih { tally with relations := tally.relations + 1 }
      refine ⟨log ++ later, r,
        hlog.andThen hlater fun s s₁ hr => by simp only [createRelations, hr]; rfl, fun hw => ?_⟩
      obtain ⟨rfl, hmore⟩ := hothers (List.forall_mem_of_forall_mem_cons hw)
      refine ⟨by simp [Nat.add_assoc, Nat.add_comm 1], ?_⟩
      simp [created_append, hmade, hmore, hadmits]

end Relations

section Nodes

/-- What is asked and answered where a problem is written does not depend on the graph. -/
def merging (draft : ProblemDraft) : Exchange :=
  ⟨.mergeProblem, problemParameters draft, .ok [row "problemId" draft.id]⟩

def stepping (draft : StepDraft) : Exchange :=
  ⟨.mergeStep, [("problemId", draft.problem), ("stepId", draft.id),
    ("operation", draft.operation), ("properties", .dict draft.properties)],
    .ok [row "stepId" draft.id]⟩

theorem leaves_createProblem (b : Builder) (graph : RecordedGraph) {draft : ProblemDraft}
    (hid : draft.id.isTruthy = true) (hn : note (problemNotes draft) = .ok ()) :
    b.Leaves graph (b.createProblem draft) [merging draft]
      (.ok (true, draft)) { graph with problems := putProblem draft.record graph.problems } := by
  have hmerge : b.Leaves graph (b.mergeProblem draft) [merging draft] true
    { graph with problems := putProblem draft.record graph.problems } := leaves_succeeds rfl
  rw [problemNotes] at hn
  exact hmerge.map fun s s₁ hr => by simp only [createProblem, hid, if_true, hn, hr]

/-- The active problems are written up to the first that cannot be noted. -/
theorem leaves_createProblems (b : Builder) {drafts : List ProblemDraft}
    (hid : ∀ draft ∈ activeOf drafts, draft.id.isTruthy = true) (w : Written) :
    ∃ written r, (∀ draft ∈ written, draft ∈ activeOf drafts) ∧
      (∀ graph, b.Leaves graph (b.createProblems drafts w) (written.map merging) r
        { graph with problems := putProblems written graph.problems }) ∧
      ((∃ f, r = .error f ∧ ¬∀ draft ∈ activeOf drafts, Notable (problemNotes draft)) ∨
        written = activeOf drafts ∧
          r = .ok ⟨{ w.tally with problems := w.tally.problems + (activeOf drafts).length },
            w.ids ++ (activeOf drafts).map ProblemDraft.id, w.problems ++ drafts⟩) := by
  induction drafts generalizing w with
  | nil =>
    exact ⟨[], .ok w, by simp, fun graph => leaves_pure b graph _, .inr ⟨rfl, by simp [activeOf]⟩⟩
  | cons draft rest ih =>
    by_cases hactive : draft.active.isTruthy = true
    · have he : activeOf (draft :: rest) = draft :: activeOf rest := List.filter_cons_of_pos hactive
      rw [he] at hid ⊢
      rw [List.forall_mem_cons] at hid
      rcases hn : note (problemNotes draft) with f | _
      · refine ⟨[], .error f, by simp, fun graph d hd => ⟨d, ?_, hd, .nil⟩,
          .inl ⟨f, rfl, fun hw => not_notable_of_error hn (hw draft List.mem_cons_self)⟩⟩
        rw [problemNotes] at hn
        simp only [createProblems, hactive, if_true, createProblem, hid.1, hn]
      · obtain ⟨written, r, hmem, hleaves, hend⟩ := ih hid.2 (w.add true draft)
        refine ⟨draft :: written, r, ?_, fun graph => ?_, ?_⟩
        · exact List.forall_mem_cons.2 ⟨List.mem_cons_self, fun d hd =>
            List.mem_cons_of_mem draft (hmem d hd)⟩
        · exact (b.leaves_createProblem graph hid.1 hn).andThen (hleaves _) fun s s₁ hr => by
            simp only [createProblems, hactive, if_true, hr]
        · rcases hend with ⟨f, hf, hbad⟩ | ⟨rfl, rfl⟩
          · exact .inl ⟨f, hf, fun hw => hbad (List.forall_mem_of_forall_mem_cons hw)⟩
          · exact .inr ⟨rfl, by simp [Written.add, Nat.add_assoc, Nat.add_comm 1]⟩
    · have he : activeOf (draft :: rest) = activeOf rest := List.filter_cons_of_neg hactive
      rw [he] at hid ⊢
      obtain ⟨written, r, hmem, hleaves, hend⟩ :=
        ih hid { w with problems := w.problems ++ [draft] }
      refine ⟨written, r, hmem, fun graph => ?_, ?_⟩
      · exact (hleaves graph).map fun s s₁ hr => by
          simp only [createProblems, hactive]
          exact hr
      · simpa using hend

theorem leaves_createStep (b : Builder) (graph : RecordedGraph) {draft : StepDraft}
    (h : draft.acts = true) : b.Leaves graph (b.createStep draft) [stepping draft] (.ok true)
      { graph with steps := putStep draft.problem draft.id draft.fields graph.steps } := by
  have hmerge : b.Leaves graph (b.succeeds .mergeStep _) [stepping draft] true
    { graph with steps := putStep draft.problem draft.id draft.fields graph.steps } :=
      leaves_succeeds rfl
  exact hmerge.map fun s s₁ hr => by
    rw [StepDraft.acts] at h
    simp only [createStep, h, if_true, hr]

theorem createStep_of_not_acts (b : Builder) {draft : StepDraft} (h : ¬ draft.acts = true)
    (s : Option Database) :
    b.createStep draft s = ((note (stepNotes draft)).map fun _ => false, s) := by
  rw [StepDraft.acts] at h
  simp only [createStep, stepNotes, h, Bool.false_eq_true, if_false]

/-- The steps that do something are written up to the first other one that cannot be noted. -/
theorem leaves_createSteps (b : Builder) (drafts : List StepDraft) (tally : Tally) :
    ∃ written r, (∀ draft ∈ written, draft ∈ drafts.filter StepDraft.acts) ∧
      (∀ graph, b.Leaves graph (b.createSteps drafts tally) (written.map stepping) r
        { graph with steps := putSteps written graph.steps }) ∧
      ((∃ f, r = .error f ∧ ¬∀ draft ∈ drafts, Notable (stepNotes draft)) ∨
        written = drafts.filter StepDraft.acts ∧
          r = .ok { tally with
            steps := tally.steps + drafts.countP StepDraft.acts
            failed := tally.failed + drafts.countP (!StepDraft.acts ·) }) := by
  induction drafts generalizing tally with
  | nil => exact ⟨[], .ok tally, by simp, fun graph => leaves_pure b graph _, .inr ⟨rfl, rfl⟩⟩
  | cons draft rest ih =>
    by_cases hacts : draft.acts = true
    · rw [List.filter_cons_of_pos hacts]
      obtain ⟨written, r, hmem, hleaves, hend⟩ := ih { tally with steps := tally.steps + 1 }
      refine ⟨draft :: written, r, ?_, fun graph => ?_, ?_⟩
      · exact List.forall_mem_cons.2 ⟨List.mem_cons_self, fun d hd =>
          List.mem_cons_of_mem draft (hmem d hd)⟩
      · exact (b.leaves_createStep graph hacts).andThen (hleaves _) fun s s₁ hr => by
          simp only [createSteps, hr]
      · rcases hend with ⟨f, hf, hbad⟩ | ⟨rfl, rfl⟩
        · exact .inl ⟨f, hf, fun hw => hbad (List.forall_mem_of_forall_mem_cons hw)⟩
        · exact .inr ⟨rfl, by simp [hacts, Nat.add_assoc, Nat.add_comm 1]⟩
    · rw [List.filter_cons_of_neg hacts]
      have hnone := b.createStep_of_not_acts hacts
      rcases hn : note (stepNotes draft) with f | _ <;> rw [hn] at hnone
      · refine ⟨[], .error f, by simp, fun graph d hd => ⟨d, ?_, hd, .nil⟩,
          .inl ⟨f, rfl, fun hw => not_notable_of_error hn (hw draft List.mem_cons_self)⟩⟩
        simp only [createSteps, hnone]
        rfl
      · obtain ⟨written, r, hmem, hleaves, hend⟩ := ih { tally with failed := tally.failed + 1 }
        refine ⟨written, r, hmem, fun graph => ?_, ?_⟩
        · exact (hleaves graph).map fun s s₁ hr => by
            simp only [createSteps, hnone]
            exact hr
        · rcases hend with ⟨f, hf, hbad⟩ | ⟨rfl, rfl⟩
          · exact .inl ⟨f, hf, fun hw => hbad (List.forall_mem_of_forall_mem_cons hw)⟩
          · exact .inr ⟨rfl, by simp [hacts, Nat.add_assoc, Nat.add_comm 1]⟩

end Nodes

/-- Which problems and steps of a playbook are written does not depend on the graph: all that can be
noted. Once they are, the playbook is settled by the graph that they leave, down to the relations
that are made. -/
theorem leaves_createGraph (b : Builder) {problems : List ProblemDraft}
    (hid : ∀ draft ∈ activeOf problems, draft.id.isTruthy = true) (steps : List StepDraft)
    (relations : List RelationDraft) :
    ∃ merged stepped, (∀ draft ∈ merged, draft ∈ activeOf problems) ∧
      (∀ draft ∈ stepped, draft ∈ (stepsUnder problems steps).filter StepDraft.acts) ∧
      (CanNote problems steps [] → merged = activeOf problems ∧
        stepped = (stepsUnder problems steps).filter StepDraft.acts) ∧
      ∀ graph₁ : RecordedGraph, ∃ log r,
        (∀ graph : RecordedGraph,
          ⟨putProblems merged graph.problems, putSteps stepped graph.steps⟩ = graph₁ →
          b.Leaves graph (b.createGraph problems steps relations) log r graph₁) ∧
        (CanNote problems steps relations →
          r = .ok (graph₁.tally problems steps relations, problems) ∧
          created log =
            ((relationsUnder problems relations).filter graph₁.admits).map creation) := by
  obtain ⟨merged, r, hmerged, hproblems, hend⟩ := b.leaves_createProblems hid ⟨.zero, [], []⟩
  rcases hend with ⟨f, rfl, hbad⟩ | ⟨rfl, rfl⟩
  · -- A problem cannot be noted: nothing else is written.
    have hnot {relations : List RelationDraft} (hw : CanNote problems steps relations) : False :=
      hbad fun draft hd => hw.problems draft (List.mem_filter.1 hd).1 (List.mem_filter.1 hd).2
    refine ⟨merged, [], hmerged, by simp, fun hw => (hnot hw).elim, fun graph₁ =>
      ⟨merged.map merging, .error f, ?_, fun hw => (hnot hw).elim⟩⟩
    rintro graph rfl
    exact (hproblems graph).map fun s s₁ hr => by simp only [createGraph, hr]
  obtain ⟨stepped, r, hstepped, hsteps, hend⟩ := b.leaves_createSteps (stepsUnder problems steps)
    ⟨0 + (activeOf problems).length, 0, 0, 0⟩
  rcases hend with ⟨f, rfl, hbad⟩ | ⟨rfl, rfl⟩
  · have hnot {relations : List RelationDraft} (hw : CanNote problems steps relations) : False :=
      hbad fun draft hd => hw.steps draft (List.mem_filter.1 hd).1
    refine ⟨activeOf problems, stepped, fun _ h => h, hstepped, fun hw => (hnot hw).elim,
      fun graph₁ => ⟨(activeOf problems).map merging ++ stepped.map stepping, .error f, ?_,
        fun hw => (hnot hw).elim⟩⟩
    rintro graph rfl d hd
    obtain ⟨d₁, hp, hd₁, hmerging⟩ := hproblems graph d hd
    obtain ⟨d₂, hs, hd₂, hstepping⟩ := hsteps _ d₁ hd₁
    exact ⟨d₂, b.createGraph_of_steps_error hp hs relations, hd₂, hmerging.append hstepping⟩
  refine ⟨activeOf problems, _, fun _ h => h, hstepped, fun _ => ⟨rfl, rfl⟩, fun graph₁ => ?_⟩
  obtain ⟨relating, r, hrelations, hmade⟩ := b.leaves_createRelations graph₁
    (relationsUnder problems relations)
    ⟨0 + (activeOf problems).length, 0 + (stepsUnder problems steps).countP StepDraft.acts, 0,
      0 + (stepsUnder problems steps).countP (!StepDraft.acts ·)⟩
  refine ⟨(activeOf problems).map merging ++
    ((stepsUnder problems steps).filter StepDraft.acts).map stepping ++ relating,
    r.map fun tally => (tally, problems), ?_, fun hw => ?_⟩
  · rintro graph rfl d hd
    obtain ⟨d₁, hp, hd₁, hmerging⟩ := hproblems graph d hd
    obtain ⟨d₂, hs, hd₂, hstepping⟩ := hsteps _ d₁ hd₁
    obtain ⟨d₃, hr, hd₃, hrelating⟩ := hrelations d₂ hd₂
    exact ⟨d₃, b.createGraph_of_parts hp hs hr, hd₃,
      (hmerging.append hstepping).append hrelating⟩
  · obtain ⟨rfl, hcreated⟩ := hmade fun draft hd =>
      graph₁.notable_noted (hw.relations draft (List.mem_filter.1 hd).1)
    have hmerging : created ((activeOf problems).map merging) = [] :=
      created_of_not (List.forall_mem_map.2 fun _ _ => rfl)
    have hstepping : created (((stepsUnder problems steps).filter StepDraft.acts).map stepping) =
      [] := created_of_not (List.forall_mem_map.2 fun _ _ => rfl)
    refine ⟨by simp [RecordedGraph.tally, Except.map], ?_⟩
    rw [created_append, created_append, hmerging, hstepping, hcreated, List.nil_append,
      List.nil_append]

/-- A playbook whose problems and steps can be noted leaves the graph with all of these. If its
relations can be noted too, those are made that this graph admits. -/
theorem leaves_createGraph_created (b : Builder) {problems : List ProblemDraft}
    (hid : ∀ draft ∈ activeOf problems, draft.id.isTruthy = true) {steps : List StepDraft}
    (hw : CanNote problems steps []) (relations : List RelationDraft) (graph₁ : RecordedGraph) :
    ∃ log r,
      (∀ graph : RecordedGraph, graph.write problems steps = graph₁ →
        b.Leaves graph (b.createGraph problems steps relations) log r graph₁) ∧
      ((∀ relation ∈ relations, Notable (relationNotes relation)) →
        r = .ok (graph₁.tally problems steps relations, problems) ∧
        created log =
          ((relationsUnder problems relations).filter graph₁.admits).map creation) := by
  obtain ⟨merged, stepped, -, -, hall, h⟩ := b.leaves_createGraph hid steps relations
  obtain ⟨rfl, rfl⟩ := hall hw
  obtain ⟨log, r, hleaves, hok⟩ := h graph₁
  exact ⟨log, r, hleaves, fun hr => hok ⟨hw.problems, hw.steps, hr⟩⟩

end Builder

end Playbook
