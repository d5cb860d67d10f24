import Playbook.Proofs.Described
import Playbook.Proofs.Rewriting

/-!
# A playbook that is read back

Problems and steps that are new to a recorder are added to it, each under a key of its own
(`RecordedGraph.write_of_fresh`). A step is recorded without the fields that are unset, and a record
without a column reads as one with null in it, so it reads back as it was written (`ofRecord_node`).
What is listed is sorted by ids that have an order (`Datum.exists_sorted`). So the problems and
steps of a playbook are read back unchanged (`Builder.createGraph_reads_back`).
-/

namespace Playbook

namespace Datum

theorem same_ofText?_iff {a b : Option String} :
    (ofText? a).same (ofText? b) = true ↔ a = b := by
  cases a <;> cases b <;> simp [ofText?, Value.ofText?, same, number?]

theorem same_ofInt?_iff {i j : Option Int} : (ofInt? i).same (ofInt? j) = true ↔ i = j := by
  cases i <;> cases j <;> simp [ofInt?, Value.ofInt?, same, number?]

end Datum

section Columns

theorem eq_null_of_isNull {d : Datum} (h : d.isNull = true) : d = .null := by
  unfold Datum.isNull at h
  split at h
  · rfl
  · cases h

/-- A column reads the same whether null is recorded or left out. -/
theorem column_filter {fields : List (String × Datum)} (hd : (fields.map Prod.fst).Nodup)
    (name : String) :
    Record.column (.ofEntries (fields.filter fun e => !e.2.isNull)) name =
      Record.column (.ofEntries fields) name := by
  have hsub : ((fields.filter fun e => !e.2.isNull).map Prod.fst).Nodup :=
    hd.sublist (List.filter_sublist.map Prod.fst)
  have hall : (OrderedMap.ofEntries fields).entries = fields :=
    OrderedMap.entries_insertAll .empty fields hd
  have hset : (OrderedMap.ofEntries (fields.filter fun e => !e.2.isNull)).entries =
      fields.filter fun e => !e.2.isNull := OrderedMap.entries_insertAll .empty _ hsub
  have hmem (d : Datum) : (OrderedMap.ofEntries (fields.filter fun e => !e.2.isNull)).get? name =
      some d ↔ (OrderedMap.ofEntries fields).get? name = some d ∧ d.isNull = false := by
    rw [OrderedMap.get?_eq_some_iff, OrderedMap.get?_eq_some_iff, hset, hall, List.mem_filter,
      Bool.not_eq_true']
  unfold Record.column
  rcases hs : (OrderedMap.ofEntries (fields.filter fun e => !e.2.isNull)).get? name with _ | d
  · rw [hs]
    rcases hg : (OrderedMap.ofEntries fields).get? name with _ | d
    · rfl
    · have hnull : d.isNull = true := by
        by_contra hn
        exact nomatch hs.symm.trans ((hmem d).2 ⟨hg, by simpa using hn⟩)
      exact (eq_null_of_isNull hnull).symm
  · rw [hs, ((hmem d).1 hs).1]

end Columns

theorem Step.nodup_columns (step : Step) : (step.columns.map Prod.fst).Nodup := by
  unfold columns
  simp only [List.map_cons, List.map_nil]
  decide

namespace RecordedGraph

/-- A step as a recorder keeps it. -/
def node (step : Step) : (Datum × Datum) × Record :=
  stepUpsert.revise (.ofStep step) (stepUpsert.blank (.ofStep step))

theorem entries_node (step : Step) : (node step).2.entries = (StepDraft.ofStep step).fields := by
  refine OrderedMap.entries_insertAll .empty _ ?_
  have hsub : ((StepDraft.ofStep step).fields.map Prod.fst).Sublist ["operation", "system_a",
    "table_name", "field", "condition_sql", "reply_content"] :=
      (List.filter_sublist.map Prod.fst).cons_cons "operation"
  exact List.Nodup.sublist hsub (by decide)

theorem columns_properties (step : Step) :
    (StepDraft.ofStep step).properties.map (fun (name, d) => (stepColumn name, d)) =
      (step.columns.drop 3).filter fun e => !e.2.isNull := by
  have hcolumns : step.columns.drop 3 =
      [("system_a", Datum.ofText? step.system), ("table_name", .ofText? step.table),
        ("field", .ofText? step.field), ("condition_sql", .ofText? step.condition),
        ("reply_content", .ofText? step.reply)].map fun (name, d) => (stepColumn name, d) := rfl
  rw [hcolumns, List.filter_map]
  rfl

/-- The row of a step has the columns that are set. -/
theorem stepRow_node {step : Step} (hp : step.problem ≠ none) (hi : step.id ≠ none)
    (ho : step.operation ≠ none) :
    stepRow (node step) = .ofEntries (step.columns.filter fun e => !e.2.isNull) := by
  obtain ⟨problem, hproblem⟩ := Option.ne_none_iff_exists'.1 hp
  obtain ⟨id, hid⟩ := Option.ne_none_iff_exists'.1 hi
  obtain ⟨operation, hoperation⟩ := Option.ne_none_iff_exists'.1 ho
  have hset : step.columns.filter (fun e => !e.2.isNull) =
      ("problemId", .ofText? step.problem) :: ("stepId", .ofInt? step.id) ::
        ("operation", .ofText? step.operation) ::
          (step.columns.drop 3).filter fun e => !e.2.isNull := by
    unfold Step.columns
    rw [hproblem, hid, hoperation]
    rfl
  rw [stepRow, entries_node, StepDraft.fields, List.map_cons, columns_properties, hset]
  rfl

theorem ofRecord_node {step : Step} (hp : step.problem ≠ none) (hi : step.id ≠ none)
    (ho : step.operation ≠ none) : StepDraft.ofRecord (stepRow (node step)) = .ofStep step := by
  have hc (name : String) : (stepRow (node step)).column name = step.row.column name := by
    rw [stepRow_node hp hi ho, column_filter step.nodup_columns, Step.row]
  rw [← ofRecord_row ho]
  simp only [StepDraft.ofRecord, Record.either, hc]

theorem ofRecord_problem {problem : Problem} (hi : ∃ id, problem.id = some id ∧ id ≠ "")
    (ht : problem.type ≠ none) (hd : problem.description ≠ none) :
    ProblemDraft.ofRecord (ProblemDraft.ofProblem problem).record = .ofProblem problem := by
  obtain ⟨id, type, description, active⟩ := problem
  obtain ⟨id, rfl, hne⟩ := hi
  obtain ⟨type, rfl⟩ := Option.ne_none_iff_exists'.1 ht
  obtain ⟨description, rfl⟩ := Option.ne_none_iff_exists'.1 hd
  refine ProblemDraft.mk.injEq .. ▸ ⟨?_, ?_, ?_, ?_⟩
  · exact (orElse_text id .null).trans (if_neg hne)
  · change ((Datum.text type).orElse .null).orElse (.text "") = .text type
    rw [orElse_text]
    split_ifs with h
    · rw [h]
      rfl
    · exact orElse_text_empty type
  · exact orElse_text_empty description
  · cases active <;> rfl

/-- A playbook that is told apart by its keys, with everything set that a record does not leave
unset, and a graph with nothing of it. The problems that the graph has before also have ids: a
listing is sorted by ids, which have an order only if all of them are texts, and it reads an empty
id as none. -/
structure Unseen (graph : RecordedGraph) (problems : List Problem) (steps : List Step) : Prop where
  active : ∀ p ∈ problems, p.active = true
  named : ∀ p ∈ problems, ∃ id, p.id = some id ∧ id ≠ ""
  stated : ∀ p ∈ problems, p.type ≠ none ∧ p.description ≠ none
  ids : (problems.map Problem.id).Nodup
  numbered : ∀ s ∈ steps, s.id ≠ none
  acting : ∀ s ∈ steps, s.operation = some queryOperation ∨ s.operation = some replyOperation
  keys : (steps.map Step.key).Nodup
  earlier : ∀ r ∈ graph.problems, ∃ id, r.column "problemId" = .text id ∧ id ≠ ""
  unheld : ∀ p ∈ problems, graph.hasProblem (.ofText? p.id) = false
  stepless : ∀ p ∈ problems, ∀ s ∈ graph.steps, s.1.1.same (.ofText? p.id) = false

section Written

variable {graph : RecordedGraph} {problems : List Problem} {steps : List Step}

theorem activeOf_problems (ha : ∀ p ∈ problems, p.active = true) :
    activeOf (problems.map .ofProblem) = problems.map .ofProblem := by
  refine List.filter_eq_self.2 fun draft hd => ?_
  obtain ⟨p, hp, rfl⟩ := List.mem_map.1 hd
  exact ha p hp

theorem Unseen.problems_write (h : graph.Unseen problems steps) (drafts : List StepDraft) :
    (graph.write (problems.map .ofProblem) drafts).problems =
      graph.problems ++ problems.map fun p => (ProblemDraft.ofProblem p).record := by
  change putProblems (activeOf _) graph.problems = _
  rw [activeOf_problems h.active, putProblems_eq_run, Upsert.run_of_fresh, List.map_map]
  · rfl
  · intro draft hdraft
    obtain ⟨p, hp, rfl⟩ := List.mem_map.1 hdraft
    have hnone := h.unheld p hp
    rw [hasProblem, List.any_eq_false] at hnone
    exact fun r hr => Bool.eq_false_iff.2 (hnone r hr)
  · refine List.pairwise_map.2 ((List.pairwise_map.1 h.ids).imp fun {p q} hne => ?_)
    rw [← Bool.not_eq_true]
    exact fun hs => hne (Datum.same_ofText?_iff.1 hs)

theorem isAmong_problems (text : Option String) :
    Builder.isAmong ((problems.map ProblemDraft.ofProblem).map ProblemDraft.id) (.ofText? text) =
      decide (text ∈ problems.map Problem.id) := by
  rw [Bool.eq_iff_iff, Builder.isAmong, List.any_eq_true, decide_eq_true_iff, List.mem_map,
    List.map_map]
  constructor
  · rintro ⟨d, hd, hs⟩
    obtain ⟨p, hp, rfl⟩ := List.mem_map.1 hd
    exact ⟨p, hp, (Datum.same_ofText?_iff.1 hs).symm⟩
  · rintro ⟨p, hp, rfl⟩
    exact ⟨_, List.mem_map_of_mem hp, Datum.same_ofText?_iff.2 rfl⟩

theorem acts_ofStep {step : Step}
    (h : step.operation = some queryOperation ∨ step.operation = some replyOperation) :
    (StepDraft.ofStep step).acts = true := by
  change (Datum.ofText? step.operation).textOf?.any operations.contains = true
  rcases h with h | h <;> rw [h] <;> decide

theorem Unseen.stepsUnder_problems (h : graph.Unseen problems steps) :
    (stepsUnder (problems.map .ofProblem) (steps.map .ofStep)).filter StepDraft.acts =
      (steps.filter fun s => s.problem ∈ problems.map Problem.id).map .ofStep := by
  rw [stepsUnder, activeOf_problems h.active, List.filter_map, List.filter_map, List.filter_filter]
  refine congrArg (List.map StepDraft.ofStep) (List.filter_congr fun s hm => ?_)
  have hacts : (StepDraft.ofStep s).acts = true := acts_ofStep (h.acting s hm)
  simp only [Function.comp_apply, hacts, Bool.true_and]
  exact isAmong_problems s.problem

theorem Unseen.steps_write (h : graph.Unseen problems steps) :
    (graph.write (problems.map .ofProblem) (steps.map .ofStep)).steps =
      graph.steps ++ (steps.filter fun s => s.problem ∈ problems.map Problem.id).map node := by
  change putSteps _ graph.steps = _
  rw [h.stepsUnder_problems, putSteps_eq_run, Upsert.run_of_fresh, List.map_map]
  · rfl
  · intro draft hdraft
    obtain ⟨step, hstep, rfl⟩ := List.mem_map.1 hdraft
    obtain ⟨p, hp, he⟩ := List.mem_map.1 (of_decide_eq_true (List.mem_filter.1 hstep).2)
    intro s hm
    have hproblem : s.1.1.same (.ofText? step.problem) = false := he ▸ h.stepless p hp s hm
    exact Bool.and_eq_false_iff.2 (.inl hproblem)
  · have hkeys := (List.pairwise_map.1 h.keys).filter fun s => s.problem ∈ problems.map Problem.id
    refine List.pairwise_map.2 (hkeys.imp fun {s t} hne => ?_)
    rw [← Bool.not_eq_true]
    intro hheld
    obtain ⟨hproblem, hid⟩ := Bool.and_eq_true_iff.1 hheld
    exact hne (Prod.ext (Datum.same_ofText?_iff.1 hproblem) (Datum.same_ofInt?_iff.1 hid))

/-- What is found under a new problem are its steps. -/
theorem Unseen.steps_under (h : graph.Unseen problems steps) {p : Problem} (hp : p ∈ problems) :
    ((graph.write (problems.map .ofProblem) (steps.map .ofStep)).steps.filter
      fun s => s.1.1.same (.ofText? p.id)) = (steps.filter fun s => s.problem = p.id).map node := by
  have hnone : (graph.steps.filter fun s => s.1.1.same (.ofText? p.id)) = [] :=
    List.filter_eq_nil_iff.2 fun s hs => by simp [h.stepless p hp s hs]
  rw [h.steps_write, List.filter_append, hnone, List.nil_append, List.filter_map,
    List.filter_filter]
  refine congrArg (List.map node) (List.filter_congr fun s _ => ?_)
  have hsame : (Datum.ofText? s.problem).same (.ofText? p.id) = decide (s.problem = p.id) := by
    rw [Bool.eq_iff_iff, Datum.same_ofText?_iff, decide_eq_true_iff]
  change ((Datum.ofText? s.problem).same (.ofText? p.id) && _) = _
  rw [hsame, Bool.eq_iff_iff, Bool.and_eq_true_iff, decide_eq_true_iff, decide_eq_true_iff]
  exact ⟨fun hs => hs.1, fun hs => ⟨hs, hs ▸ List.mem_map_of_mem hp⟩⟩

end Written

end RecordedGraph

namespace Builder

open RecordedGraph

variable {b : Builder} {graph : RecordedGraph} {d : Database}

theorem problems_of_sorted (hd : d.backend = .recorder graph) {sorted : List Record}
    (hs : Datum.sortBy? (fun p => p.column "problemId") graph.problems = some sorted) :
    (b.problems (some d)).1 = sorted.map ProblemDraft.ofRecord := by
  have ha : graph.answer .allProblems (.ofEntries []) = (.ok sorted, graph) := by
    simp only [answer, hs]
  obtain ⟨d₁, hr, -, -⟩ := leaves_ask (b := b) ha d hd
  simp only [problems, hr]

theorem stepsOf_of_sorted (hd : d.backend = .recorder graph) {problem : Datum}
    {sorted : List ((Datum × Datum) × Record)}
    (hs : Datum.sortBy? (fun s => s.1.2) (graph.steps.filter fun s => s.1.1.same problem) =
      some sorted) :
    (b.stepsOf problem (some d)).1 = sorted.map fun s => StepDraft.ofRecord (stepRow s) := by
  have hp : Record.column (.ofEntries [("problemId", problem)]) "problemId" = problem := rfl
  have ha : graph.answer .stepsOfProblem (.ofEntries [("problemId", problem)]) =
      (.ok (sorted.map stepRow), graph) := by
    simp only [answer, hp, hs]
  obtain ⟨d₁, hr, -, -⟩ := leaves_ask (b := b) ha d hd
  simp only [stepsOf, hr, List.map_map]
  rfl

/-- Problems with ids are listed in the order of these. -/
theorem problems_listed (hd : d.backend = .recorder graph)
    (ht : ∀ r ∈ graph.problems, ∃ id, r.column "problemId" = .text id ∧ id ≠ "") :
    (b.problems (some d)).1.Perm (graph.problems.map ProblemDraft.ofRecord) ∧
      (b.problems (some d)).1.Pairwise fun p q =>
        ∃ i j, p.id = .text i ∧ q.id = .text j ∧ i ≤ j := by
  have hval (r : Record) (hr : r ∈ graph.problems) : ∃ id, r.column "problemId" = .text id ∧
      ((r.column "problemId").textOf?.getD "") = id ∧ (ProblemDraft.ofRecord r).id = .text id := by
    obtain ⟨id, hid, hne⟩ := ht r hr
    refine ⟨id, hid, by rw [hid]; rfl, ?_⟩
    rw [ProblemDraft.ofRecord, hid]
    exact (orElse_text id _).trans (if_neg hne)
  obtain ⟨sorted, hs, hperm, hle⟩ := Datum.exists_sorted (fun r : Record => r.column "problemId")
    (fun r => (r.column "problemId").textOf?.getD "") fun r (hr : r ∈ graph.problems) r' hr' => by
      obtain ⟨i, hi, hvi, -⟩ := hval r hr
      obtain ⟨j, hj, hvj, -⟩ := hval r' hr'
      refine ⟨decide (i < j), ?_, ?_⟩
      · rw [hi, hj, Datum.before?_text]
      · rw [hvi, hvj, decide_eq_true_iff]
  rw [problems_of_sorted hd hs]
  refine ⟨hperm.map _, List.pairwise_map.2 (hle.imp_of_mem fun {r r'} hr hr' h => ?_)⟩
  obtain ⟨i, -, hvi, hidi⟩ := hval r (hperm.mem_iff.1 hr)
  obtain ⟨j, -, hvj, hidj⟩ := hval r' (hperm.mem_iff.1 hr')
  exact ⟨i, j, hidi, hidj, hvi ▸ hvj ▸ h⟩

/-- Steps of a problem are listed in the order of their numbers. -/
theorem stepsOf_listed (hd : d.backend = .recorder graph) {problem : Datum} {own : List Step}
    (ho : (graph.steps.filter fun s => s.1.1.same problem) = own.map node)
    (hi : ∀ s ∈ own, s.problem ≠ none ∧ s.id ≠ none ∧ s.operation ≠ none)
    (hn : (own.map Step.id).Nodup) :
    ∃ sorted : List Step, sorted.Perm own ∧
      sorted.Pairwise (fun s t => ∃ i j, s.id = some i ∧ t.id = some j ∧ i < j) ∧
      (b.stepsOf problem (some d)).1 = sorted.map StepDraft.ofStep := by
  have hval (s : Step) (hs : s ∈ own) : s.id = some (s.id.getD 0) := by
    obtain ⟨i, hid⟩ := Option.ne_none_iff_exists'.1 (hi s hs).2.1
    rw [hid]
    rfl
  obtain ⟨sorted, hs, hperm, hle⟩ := Datum.exists_sorted (fun s : Step => Datum.ofInt? s.id)
    (fun s => s.id.getD 0) fun s (hs : s ∈ own) t ht => by
      refine ⟨decide (s.id.getD 0 < t.id.getD 0), ?_, decide_eq_true_iff⟩
      rw [hval s hs, hval t ht]
      exact Datum.before?_int _ _
  have hsort : Datum.sortBy? (fun s => s.1.2) (graph.steps.filter fun s => s.1.1.same problem) =
      some (sorted.map node) := by
    rw [ho, Datum.sortBy?_map]
    exact congrArg (Option.map (List.map node)) hs
  have hread : sorted.map (fun s => StepDraft.ofRecord (stepRow (node s))) =
      sorted.map StepDraft.ofStep := List.map_congr_left fun s hm => by
    obtain ⟨hproblem, hid, hoperation⟩ := hi s (hperm.mem_iff.1 hm)
    exact ofRecord_node hproblem hid hoperation
  refine ⟨sorted, hperm, ?_, ?_⟩
  · have hnodup : sorted.Pairwise fun s t => s.id ≠ t.id :=
      List.pairwise_map.1 ((hperm.map Step.id).nodup_iff.2 hn)
    refine (hle.and hnodup).imp_of_mem fun {s t} hs ht h => ?_
    have hsi := hval s (hperm.mem_iff.1 hs)
    have hti := hval t (hperm.mem_iff.1 ht)
    refine ⟨_, _, hsi, hti, lt_of_le_of_ne h.1 fun he => h.2 ?_⟩
    rw [hsi, hti, he]
  · rw [stepsOf_of_sorted hd hsort, List.map_map]
    exact hread

theorem canNote_of_unseen {problems : List Problem} {steps : List Step}
    (h : graph.Unseen problems steps) :
    CanNote (problems.map .ofProblem) (steps.map .ofStep) [] where
  problems draft hd _ := by
    obtain ⟨p, -, rfl⟩ := List.mem_map.1 hd
    rintro d (_ | ⟨_, _ | ⟨_, hd⟩⟩)
    · exact Datum.isWritable_ofText? p.id
    · exact Datum.isWritable_ofText? p.type
    · cases hd
  steps draft hd := by
    obtain ⟨s, hs, rfl⟩ := List.mem_map.1 hd
    have hnotes : stepNotes (StepDraft.ofStep s) = [] := if_pos (acts_ofStep (h.acting s hs))
    rw [hnotes]
    exact fun _ hd => absurd hd List.not_mem_nil
  relations _ hd := absurd hd List.not_mem_nil

/-- On a database that records a graph, a playbook that the graph has nothing of is read back as it
was written: its problems are listed with those that were there, in the order of their ids, and the
steps of each of them in the order of their numbers. It is read back also when its relations stop
the writing, as one that cannot be noted does. -/
theorem createGraph_reads_back (b : Builder) {graph : RecordedGraph} {database : Database}
    (hd : database.backend = .recorder graph) {problems : List Problem} {steps : List Step}
    (h : graph.Unseen problems steps) (relations : List RelationDraft) :
    ∃ r d₁, b.createGraph (problems.map .ofProblem) (steps.map .ofStep) relations (some database) =
        (r, some d₁) ∧
      ((∀ relation ∈ relations, Notable (relationNotes relation)) → r.isOk = true) ∧
      ∀ d₂ : Database, d₂.backend = d₁.backend →
      (b.problems (some d₂)).1.Perm
        ((b.problems (some database)).1 ++ problems.map ProblemDraft.ofProblem) ∧
      (b.problems (some d₂)).1.Pairwise
        (fun p q => ∃ i j, p.id = .text i ∧ q.id = .text j ∧ i ≤ j) ∧
      ∀ p ∈ problems, ∃ sorted : List Step, sorted.Perm (steps.filter fun s => s.problem = p.id) ∧
        sorted.Pairwise (fun s t => ∃ i j, s.id = some i ∧ t.id = some j ∧ i < j) ∧
        (b.stepsOf (.ofText? p.id) (some d₂)).1 = sorted.map StepDraft.ofStep := by
  have hids : ∀ draft ∈ activeOf (problems.map .ofProblem), draft.id.isTruthy = true := by
    intro draft hdraft
    rw [activeOf_problems h.active] at hdraft
    obtain ⟨p, hp, rfl⟩ := List.mem_map.1 hdraft
    obtain ⟨id, hid, hne⟩ := h.named p hp
    change (Datum.ofText? p.id).isTruthy = true
    rw [hid]
    exact decide_eq_true hne
  obtain ⟨log, r, hleaves, hok⟩ := b.leaves_createGraph_created hids (canNote_of_unseen h) relations
    (graph.write (problems.map .ofProblem) (steps.map .ofStep))
  obtain ⟨d₁, hr, hd₁, -⟩ := hleaves graph rfl database hd
  refine ⟨r, d₁, hr, fun hw => by rw [(hok hw).1]; rfl, fun d₂ hd₂ => ?_⟩
  rw [hd₁] at hd₂
  have hnamed : ∀ r ∈ (graph.write (problems.map .ofProblem) (steps.map .ofStep)).problems,
      ∃ id, r.column "problemId" = .text id ∧ id ≠ "" := by
    rw [h.problems_write]
    intro r hr
    rcases List.mem_append.1 hr with hr | hr
    · exact h.earlier r hr
    · obtain ⟨p, hp, rfl⟩ := List.mem_map.1 hr
      obtain ⟨id, hid, hne⟩ := h.named p hp
      exact ⟨id, congrArg Datum.ofText? hid, hne⟩
  have hread : problems.map (fun p => ProblemDraft.ofRecord (ProblemDraft.ofProblem p).record) =
      problems.map ProblemDraft.ofProblem := List.map_congr_left fun p hp =>
    ofRecord_problem (h.named p hp) (h.stated p hp).1 (h.stated p hp).2
  obtain ⟨hperm, hsorted⟩ := b.problems_listed hd₂ hnamed
  refine ⟨?_, hsorted, fun p hp => ?_⟩
  · rw [h.problems_write, List.map_append, List.map_map] at hperm
    exact hperm.trans ((b.problems_listed hd h.earlier).1.symm.append (.of_eq hread))
  · refine stepsOf_listed hd₂ (h.steps_under hp) ?_ ?_
    · intro s hs
      obtain ⟨hm, he⟩ := List.mem_filter.1 hs
      obtain ⟨id, hid, -⟩ := h.named p hp
      refine ⟨?_, h.numbered s hm, ?_⟩
      · rw [of_decide_eq_true he, hid]
        exact Option.some_ne_none id
      · rcases h.acting s hm with ho | ho <;> rw [ho] <;> exact Option.some_ne_none _
    · have hkeys := (List.pairwise_map.1 h.keys).filter fun s => s.problem = p.id
      refine List.pairwise_map.2 (hkeys.imp_of_mem fun {s t} hs ht hne hid => hne ?_)
      have hs : s.problem = p.id := of_decide_eq_true (List.mem_filter.1 hs).2
      have ht : t.problem = p.id := of_decide_eq_true (List.mem_filter.1 ht).2
      exact Prod.ext (hs.trans ht.symm) hid

/-- Two steps of one problem, one with an empty field, beside a problem that is there. -/
theorem createGraph_reads_back_refund :
    let b : Builder := ⟨none⟩
    let problem : Problem := ⟨some "refund-002", some "refund", some "", true⟩
    let reply : Step :=
      ⟨problem.id, some 2, some "reply", none, none, none, none, some "\x7bpaid\x7d"⟩
    let query : Step :=
      ⟨problem.id, some 1, some "query", some "", some "orders", some "paid", none, none⟩
    let graph : RecordedGraph := ⟨[(ProblemDraft.ofProblem
      ⟨some "refund-001", some "refund", some "late", false⟩).record], []⟩
    ∃ d₁ : Database, (b.problems (some d₁)).1.Perm
        ((b.problems (some (.ofBackend (.recorder graph) true))).1 ++ [.ofProblem problem]) ∧
      ∃ sorted : List Step, sorted.Perm [reply, query] ∧
        sorted.Pairwise (fun s t => ∃ i j, s.id = some i ∧ t.id = some j ∧ i < j) ∧
        (b.stepsOf (.ofText? problem.id) (some d₁)).1 = sorted.map StepDraft.ofStep := by
  intro b problem reply query graph
  have h : graph.Unseen [problem] [reply, query] := by
    refine ⟨by decide, ?_, by decide, by decide, by decide, by decide, by decide, ?_, ?_, ?_⟩
    · intro p hp
      rw [List.mem_singleton.1 hp]
      exact ⟨"refund-002", rfl, by decide⟩
    · intro r hr
      rw [List.mem_singleton.1 hr]
      exact ⟨"refund-001", rfl, by decide⟩
    · intro p hp
      rw [List.mem_singleton.1 hp]
      rfl
    · exact fun _ _ _ hs => absurd hs List.not_mem_nil
  have hb : (Database.ofBackend (.recorder graph) true).backend = .recorder graph := rfl
  obtain ⟨r, d₁, -, -, hread⟩ := b.createGraph_reads_back hb h []
  obtain ⟨hperm, -, hsteps⟩ := hread d₁ rfl
  exact ⟨d₁, hperm, hsteps problem (List.mem_singleton_self problem)⟩

end Builder

end Playbook
