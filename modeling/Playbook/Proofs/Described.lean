import Playbook.Proofs.Integrity
import Playbook.Proofs.Readings

/-!
# Playbooks described by records

The answers of a local graph can be written as the records of a database: one column for each field,
null where it is unset (`LocalGraph.rowsFor`). What is read from these records is what the graph
answers (`findIn_rowsFor`), unset fields included, if the graph is definite in the few fields that
records do not leave unset.
-/

namespace Playbook

theorem toText?_ofText? (text : Option String) : (Datum.ofText? text).toText? = .ok text := by
  cases text <;> rfl

theorem toInt?_ofInt? (i : Option Int) : (Datum.ofInt? i).toInt? = .ok i := by
  cases i <;> rfl

theorem orElse_text (s : String) (other : Datum) :
    (Datum.text s).orElse other = if s = "" then other else .text s := by
  by_cases hs : s = ""
  · subst hs
    rfl
  · have ht : (Datum.text s).isTruthy = true := decide_eq_true hs
    rw [Datum.orElse, if_pos ht, if_neg hs]

theorem orElse_text_empty (s : String) : (Datum.text s).orElse (.text "") = .text s := by
  rw [orElse_text]
  split_ifs with hs
  · rw [hs]
  · rfl

theorem mapM_map_eq_ok {α β γ ε : Type} {f : α → β} {g : β → Except ε γ} {k : α → γ} {l : List α}
    (h : ∀ a ∈ l, g (f a) = .ok (k a)) : (l.map f).mapM g = .ok (l.map k) := by
  induction l with
  | nil => rfl
  | cons a l ih =>
    rw [List.map_cons, List.mapM_cons, h a List.mem_cons_self,
      ih fun b hb => h b (List.mem_cons_of_mem _ hb)]
    rfl

namespace Step

/-- The columns of a record of a step. -/
def columns (step : Step) : List (String × Datum) :=
  [("problemId", .ofText? step.problem), ("stepId", .ofInt? step.id),
    ("operation", .ofText? step.operation), ("system", .ofText? step.system),
    ("tableName", .ofText? step.table), ("field", .ofText? step.field),
    ("conditionSql", .ofText? step.condition), ("replyContent", .ofText? step.reply)]

def row (step : Step) : Record := .ofEntries step.columns

end Step

def Candidate.row (candidate : Candidate) : Record :=
  .ofEntries (("relationType", .ofText? candidate.type) ::
    ("condition", .ofText? candidate.condition) :: candidate.step.columns)

def Problem.row (problem : Problem) : Record :=
  .ofEntries [("problemId", .ofText? problem.id), ("problemType", .ofText? problem.type),
    ("description", .ofText? problem.description), ("isActive", .bool problem.active)]

/-- A problem as it is read from its record, where a description is never unset. -/
def Problem.listed (problem : Problem) : Problem :=
  { problem with description := some (problem.description.getD "") }

section ReadBack

theorem resolve_ofStep (step : Step) : (StepDraft.ofStep step).resolve = .ok step := by
  simp only [StepDraft.ofStep, StepDraft.resolve, toText?_ofText?, toInt?_ofInt?]
  rfl

theorem either_ofText? (text : Option String) :
    (if (Datum.ofText? text).isNull then Datum.null else Datum.ofText? text) = .ofText? text := by
  cases text <;> rfl

theorem either_ofInt? (i : Option Int) :
    (if (Datum.ofInt? i).isNull then Datum.null else Datum.ofInt? i) = .ofInt? i := by
  cases i <;> rfl

theorem ofRecord_row {step : Step} (ho : step.operation ≠ none) :
    StepDraft.ofRecord step.row = .ofStep step := by
  obtain ⟨operation, ho⟩ := Option.ne_none_iff_exists'.1 ho
  have hop : (Datum.ofText? step.operation).orElse (.text "") = .ofText? step.operation := by
    rw [ho]
    exact orElse_text_empty operation
  refine StepDraft.mk.injEq .. ▸ ⟨?_, ?_, hop, ?_, ?_, rfl, ?_, ?_⟩
  · exact either_ofText? step.problem
  · exact either_ofInt? step.id
  · exact either_ofText? step.system
  · exact either_ofText? step.table
  · exact either_ofText? step.condition
  · exact either_ofText? step.reply

theorem column_candidateRow (candidate : Candidate) {name : String} (ht : name ≠ "relationType")
    (hc : name ≠ "condition") : candidate.row.column name = candidate.step.row.column name := by
  have hl : [("condition", Datum.ofText? candidate.condition),
      ("relationType", Datum.ofText? candidate.type)].lookup name = none := by
    simp [List.lookup_cons, beq_false_of_ne ht, beq_false_of_ne hc]
  unfold Record.column Candidate.row Step.row OrderedMap.ofEntries
  rw [OrderedMap.get?_insertAll, OrderedMap.get?_insertAll, List.reverse_cons, List.reverse_cons,
    List.append_assoc, List.lookup_append]
  change (Option.or
    (Option.or _ ([("condition", _), ("relationType", _)].lookup name)) _).getD _ = _
  rw [hl, Option.or_none]

theorem ofRecord_candidateRow (candidate : Candidate) :
    StepDraft.ofRecord candidate.row = StepDraft.ofRecord candidate.step.row := by
  simp (disch := decide) only [StepDraft.ofRecord, Record.either, column_candidateRow]

theorem candidateOf_row {candidate : Candidate} (ho : candidate.step.operation ≠ none) :
    RemoteGraph.candidateOf candidate.row = .ok candidate := by
  have ht : RelationDraft.needed candidate.row "relationType" = .ok (.ofText? candidate.type) := rfl
  have hc : candidate.row.column "condition" = .ofText? candidate.condition := rfl
  have hr : (StepDraft.ofRecord candidate.row).resolve = .ok candidate.step := by
    rw [ofRecord_candidateRow, ofRecord_row ho, resolve_ofStep]
  unfold RemoteGraph.candidateOf
  simp only [ht, hc, hr, bind, Except.bind, toText?_ofText?, pure, Except.pure]

theorem resolve_problemRow {problem : Problem} (hi : ∃ id, problem.id = some id ∧ id ≠ "")
    (ht : problem.type ≠ none) :
    (ProblemDraft.ofRecord problem.row).resolve = .ok problem.listed := by
  obtain ⟨id, hid, hne⟩ := hi
  obtain ⟨type, htype⟩ := Option.ne_none_iff_exists'.1 ht
  have hi : (ProblemDraft.ofRecord problem.row).id = .text id := by
    change (Datum.ofText? problem.id).orElse .null = _
    rw [hid]
    exact (orElse_text id .null).trans (if_neg hne)
  have ht : (ProblemDraft.ofRecord problem.row).type = .text type := by
    change ((Datum.ofText? problem.type).orElse .null).orElse (.text "") = _
    rw [htype]
    change ((Datum.text type).orElse .null).orElse (.text "") = _
    rw [orElse_text]
    split_ifs with he
    · rw [he]
      rfl
    · exact orElse_text_empty type
  have hd : (ProblemDraft.ofRecord problem.row).description =
      .text (problem.description.getD "") := by
    change (Datum.ofText? problem.description).orElse (.text "") = _
    cases problem.description with
    | none => rfl
    | some description => exact orElse_text_empty description
  have ha : (ProblemDraft.ofRecord problem.row).active.isTruthy = problem.active := rfl
  simp only [ProblemDraft.resolve, hi, ht, hd, ha]
  rw [Problem.listed, hid, htype]
  rfl

end ReadBack

namespace LocalGraph

variable {graph graph' : LocalGraph}

/-- The records that describe what the graph answers to a reading. -/
def rowsFor (graph : LocalGraph) : Reading → List Record
  | .firstStep problem =>
    match graph.firstStep (some problem) with
    | .ok step => [step.row]
    | .error _ => []
  | .candidates problem step =>
    match graph.candidates (some problem) (some step) with
    | .ok candidates => candidates.map Candidate.row
    | .error _ => []
  | .problemFor type =>
    match graph.problemFor (some type) with
    | .ok id => [.ofEntries [("problemId", .text id)]]
    | .error _ => []

/-- Graphs built with relations that have targets, steps that have an id and an operation, and
problems that have a type. -/
structure Definite (graph : LocalGraph) : Prop where
  built : Built graph
  targets : ∀ relation ∈ graph.relations, relation.target ≠ none
  steps : ∀ step, graph.Holds step → (∃ id, step.id = some id) ∧ step.operation ≠ none
  types : ∀ problem ∈ graph.problems.values, problem.type ≠ none

theorem Built.ids_ne (h : Built graph) : graph.problems.Every fun id _ => id ≠ "" := by
  induction h with
  | empty => exact OrderedMap.every_empty _
  | problem _ added ih =>
    unfold addProblem at added
    split at added
    · split_ifs at added with hid
      cases added
      exact ih.insert hid
    · cases added
  | step _ ih => exact ih
  | relation _ added ih =>
    rw [problems_of_addRelation added]
    exact ih

namespace Definite

theorem complete (h : graph.Definite) : graph.Complete :=
  h.built.complete fun r hr => Option.isSome_iff_ne_none.2 (h.targets r hr)

theorem firstStep_error (h : graph.Definite) {problem : Option String} {f : Fault}
    (hf : graph.firstStep problem = .error f) : f = .noFirstStep problem := by
  rcases ho : graph.opening? problem with _ | relation
  · rw [firstStep_of_opening? ho] at hf
    exact (Except.error.inj hf).symm
  · have hr : relation ∈ graph.relations := List.mem_of_find?_eq_some ho
    obtain ⟨step, hs, -⟩ := h.built.firstStep ho (h.targets relation hr)
    rw [hs] at hf
    cases hf

theorem of_mem_sortedProblems (h : graph.Definite) {problem : Problem}
    (hp : problem ∈ graph.sortedProblems) :
    (∃ id, problem.id = some id ∧ id ≠ "") ∧ problem.type ≠ none := by
  obtain ⟨⟨id, problem'⟩, he, rfl⟩ := List.mem_map.1 hp
  have hm : (id, problem') ∈ graph.problems.entries := List.mem_mergeSort.1 he
  exact ⟨⟨id, graph.problemsById _ hm, h.built.ids_ne _ hm⟩,
    h.types problem' (List.mem_map.2 ⟨_, hm, rfl⟩)⟩

theorem problemFor (h : graph.Definite) (type : Option String) :
    (∃ id, graph.problemFor type = .ok id ∧ id ≠ "") ∨
      graph.problemFor type = .error (.noProblemFor type) := by
  unfold LocalGraph.problemFor
  split
  · rename_i problem hp
    obtain ⟨⟨id, hid, hne⟩, -⟩ := h.of_mem_sortedProblems (List.mem_of_find?_eq_some hp)
    exact .inl ⟨id, by rw [hid]; rfl, hne⟩
  · exact .inr rfl

theorem findIn_rowsFor (h : graph.Definite) (r : Reading) :
    r.findIn (graph.rowsFor r) = (r.ask graph.source ()).1 := by
  cases r with
  | firstStep problem =>
    simp only [Reading.findIn, Reading.ask, rowsFor, source]
    rcases hf : graph.firstStep (some problem) with f | step
    · rw [h.firstStep_error hf]
      rfl
    · have hs := (h.steps step (holds_of_firstStep hf).1).2
      simp only [RemoteGraph.stepIn, ofRecord_row hs, resolve_ofStep]
  | candidates problem step =>
    simp only [Reading.findIn, Reading.ask, rowsFor, source]
    rcases hc : graph.candidates (some problem) (some step) with f | candidates
    · obtain ⟨candidates, hc'⟩ := h.complete.candidates (some problem) (some step)
      rw [hc] at hc'
      cases hc'
    · have hm := mapM_map_eq_ok (f := Candidate.row) (g := RemoteGraph.candidateOf) (k := id)
        (l := candidates) fun c hcm => by
          obtain ⟨relation, -, hr⟩ := mem_of_mapM_ok hc c hcm
          exact candidateOf_row (h.steps _ (holds_of_get? (candidate_eq_ok_iff.1 hr).1)).2
      simp only [hm, List.map_id]
  | problemFor type =>
    simp only [Reading.findIn, Reading.ask, rowsFor, source]
    rcases h.problemFor (some type) with ⟨id, hp, hne⟩ | hp
    · have hi : RemoteGraph.idIn (some type) [.ofEntries [("problemId", .text id)]] = .ok id :=
        if_pos (decide_eq_true hne)
      simp only [hp, hi]
    · simp only [hp]
      rfl

theorem mapM_problemRow (h : graph.Definite) :
    ((graph.sortedProblems.map Problem.row).mapM fun row => (ProblemDraft.ofRecord row).resolve) =
      .ok (graph.sortedProblems.map Problem.listed) :=
  mapM_map_eq_ok fun _ hp =>
    resolve_problemRow (h.of_mem_sortedProblems hp).1 (h.of_mem_sortedProblems hp).2

end Definite

end LocalGraph

end Playbook
