import Playbook.Proofs.Ingested
import Playbook.Proofs.Rewriting

/-!
# The order of statements

What is read of a subject, and which subjects and pairs there are, does not depend on the order of
the statements when no two of them contradict each other (`Ingest.Settled`). Problems and steps with
keys of their own may be written in any order (`RecordedGraph.write_perm`). So ingesting the same
statements in another order comes to the same (`Builder.ingest_perm`).
-/

namespace Playbook

open Turtle

namespace OrderedMap

variable {κ α : Type} [DecidableEq κ] {entries entries' : List (κ × α)}

/-- A key has the value of its entries, if they agree. -/
theorem get?_ofEntries_iff (h : ∀ e ∈ entries, ∀ e' ∈ entries, e.1 = e'.1 → e.2 = e'.2)
    {key : κ} {value : α} :
    (ofEntries entries).get? key = some value ↔ (key, value) ∈ entries := by
  have hfound {w : α} (hw : entries.reverse.lookup key = some w) : (key, w) ∈ entries := by
    obtain ⟨before, after, he, -⟩ := List.lookup_eq_some_iff.1 hw
    exact List.mem_reverse.1 (he ▸ List.mem_append_right _ List.mem_cons_self)
  rw [ofEntries, get?_insertAll, get?_empty, Option.or_none]
  refine ⟨hfound, fun hm => ?_⟩
  rcases hl : entries.reverse.lookup key with _ | w
  · have hno := List.lookup_eq_none_iff.1 hl _ (List.mem_reverse.2 hm)
    simp at hno
  · exact congrArg some (h _ (hfound hl) _ hm rfl)

theorem get?_ofEntries_perm (hp : entries.Perm entries')
    (h : ∀ e ∈ entries, ∀ e' ∈ entries, e.1 = e'.1 → e.2 = e'.2) (key : κ) :
    (ofEntries entries).get? key = (ofEntries entries').get? key := by
  have h' : ∀ e ∈ entries', ∀ e' ∈ entries', e.1 = e'.1 → e.2 = e'.2 := fun e he e' he' =>
    h e (hp.mem_iff.2 he) e' (hp.mem_iff.2 he')
  ext value
  rw [get?_ofEntries_iff h, get?_ofEntries_iff h', hp.mem_iff]

theorem values_ofEntries_map {keys : List κ} (h : keys.Nodup) (f : κ → α) :
    (ofEntries (keys.map fun k => (k, f k))).values = keys.map f := by
  have hk : (keys.map fun k => (k, f k)).map Prod.fst = keys := by
    rw [List.map_map]
    exact List.map_id keys
  rw [values, ofEntries, entries_insertAll empty _ (hk.symm ▸ h), List.map_append, List.map_map]
  rfl

theorem nodup_eraseDups (l : List κ) : l.eraseDups.Nodup := by
  have h := keys_insertAll (empty : OrderedMap κ Unit) (l.map fun k => (k, ()))
  rw [List.map_map] at h
  have hl : l.map (Prod.fst ∘ fun k => (k, ())) = l := List.map_id l
  rw [hl] at h
  have hkeys : (empty.insertAll (l.map fun k => (k, ()))).keys = l.eraseDups := h
  rw [← hkeys]
  exact keys_nodup _

end OrderedMap

namespace Turtle

section Grouped

variable {α κ : Type} [DecidableEq κ] (key : α → κ)

theorem flatMap_filter_perm {keys : List κ} (hk : keys.Nodup) (items : List α) :
    (keys.flatMap fun k => items.filter fun a => key a = k).Perm
      (items.filter fun a => key a ∈ keys) := by
  induction keys with
  | nil => simp
  | cons k rest ih =>
    obtain ⟨hnot, hrest⟩ := List.nodup_cons.1 hk
    have hsplit := List.filter_append_perm (fun a => decide (key a = k))
      (items.filter fun a => key a ∈ k :: rest)
    rw [List.filter_filter, List.filter_filter] at hsplit
    rw [List.flatMap_cons]
    refine ((ih hrest).append_left _).trans (.trans (.of_eq ?_) hsplit)
    congr 1
    · refine List.filter_congr fun a _ => ?_
      by_cases ha : key a = k <;> simp [ha]
    · refine List.filter_congr fun a _ => ?_
      by_cases ha : key a = k <;> simp [ha, hnot]

/-- Groups are the items in another order. -/
theorem grouped_perm (items : List α) : (grouped key items).Perm items := by
  refine (flatMap_filter_perm key (OrderedMap.nodup_eraseDups _) items).trans (.of_eq ?_)
  refine List.filter_eq_self.2 fun a ha => ?_
  simpa using ⟨a, ha, rfl⟩

theorem grouped_congr {items items' : List α} (hp : items.Perm items') :
    (grouped key items).Perm (grouped key items') :=
  (grouped_perm key items).trans (hp.trans (grouped_perm key items').symm)

end Grouped

namespace Triples

variable {triples triples' : Triples}

/-- A subject has one object under a predicate. -/
theorem object?_eq_some_iff {subject predicate object : Term}
    (h : ∀ t ∈ triples, ∀ t' ∈ triples, t.subject = subject → t'.subject = subject →
      t.predicate = predicate → t'.predicate = predicate → t.object = t'.object) :
    triples.object? subject predicate = some object ↔ ⟨subject, predicate, object⟩ ∈ triples := by
  unfold object?
  constructor
  · intro ho
    obtain ⟨⟨s, p, o⟩, hf, rfl⟩ := Option.map_eq_some_iff.1 ho
    obtain ⟨rfl, rfl⟩ : s = subject ∧ p = predicate := by simpa using List.find?_some hf
    exact List.mem_of_find?_eq_some hf
  · intro hm
    rcases hf : triples.find? fun t => t.subject = subject && t.predicate = predicate with _ | t
    · simpa using List.find?_eq_none.1 hf _ hm
    · have ht : t.subject = subject ∧ t.predicate = predicate := by simpa using List.find?_some hf
      have ho := h t (List.mem_of_find?_eq_some hf) _ hm ht.1 rfl ht.2 rfl
      exact (congrArg (Option.map Triple.object) hf).trans (congrArg some ho)

variable (hp : triples.Perm triples')
include hp

theorem members_perm (object : Term) : (triples.members object).Perm (triples'.members object) :=
  (hp.filter _).map _

theorem about_perm (subject : Term) : (triples.about subject).Perm (triples'.about subject) :=
  (grouped_congr _ (hp.filter _)).map _

theorem pairs_perm (predicate : Term) : (triples.pairs predicate).Perm (triples'.pairs predicate) :=
  (grouped_congr _ (hp.filter _)).map _

end Triples

end Turtle

namespace Ingest

/-- No two statements contradict each other: a subject has one value for a property, by local name,
and one object under each of the predicates that refer to others; and the members that state
problems and steps have keys of their own. -/
structure Settled (triples : Triples) : Prop where
  value_eq : ∀ t ∈ triples, ∀ t' ∈ triples, t.subject = t'.subject →
    localName t.predicate.text = localName t'.predicate.text →
    knownProperties.contains (localName t.predicate.text) = true → t.object.value = t'.object.value
  object_eq : ∀ t ∈ triples, ∀ t' ∈ triples, t.subject = t'.subject →
    t.predicate = t'.predicate →
    t.predicate ∈ ["problem", "from", "to", "condition"].map ontologyTerm → t.object = t'.object
  problem_id : ∀ s ∈ triples.members (ontologyTerm "Problem"),
    (problem triples s).id.isTruthy = true
  problem_apart : ∀ s ∈ triples.members (ontologyTerm "Problem"),
    ∀ s' ∈ triples.members (ontologyTerm "Problem"), s ≠ s' →
      (problem triples s).id.same (problem triples s').id = false
  step_apart : ∀ s ∈ triples.members (ontologyTerm "Step"),
    ∀ s' ∈ triples.members (ontologyTerm "Step"), s ≠ s' →
      let step := step triples (problems triples) s
      let step' := Ingest.step triples (problems triples) s'
      (step.problem.same step'.problem && step.id.same step'.id) = false

variable {triples triples' : Triples}

theorem members_nodup (hn : triples.Nodup) (object : Term) : (triples.members object).Nodup := by
  refine (hn.filter _).map_on fun t ht t' ht' hs => ?_
  simp only [List.mem_filter, Bool.and_eq_true, decide_eq_true_eq] at ht ht'
  obtain ⟨s, p, o⟩ := t
  obtain ⟨s', p', o'⟩ := t'
  simp_all

theorem values_problems (hn : triples.Nodup) : (problems triples).values =
    (triples.members (ontologyTerm "Problem")).map (problem triples) := by
  rw [problems, OrderedMap.values_ofEntries_map (members_nodup hn _)]

theorem values_steps (hn : triples.Nodup) (problems : Problems) : (steps triples problems).values =
    (triples.members (ontologyTerm "Step")).map (step triples problems) := by
  rw [steps, OrderedMap.values_ofEntries_map (members_nodup hn _)]

section Perm

variable (h : Settled triples) (hp : triples.Perm triples')
include h hp

theorem properties_perm (subject : Term) (name : String) :
    (properties triples subject).get? name = (properties triples' subject).get? name := by
  refine OrderedMap.get?_ofEntries_perm ((Triples.about_perm hp subject).filterMap _) ?_ name
  intro e he e' he' hname
  have hfrom {e : String × Datum} (he : e ∈ (triples.about subject).filterMap
      fun stated => if knownProperties.contains (localName stated.1.text) then
        some (localName stated.1.text, stated.2.value) else none) :
      ∃ t ∈ triples, t.subject = subject ∧ knownProperties.contains e.1 = true ∧
        e = (localName t.predicate.text, t.object.value) := by
    obtain ⟨⟨predicate, object⟩, hm, he⟩ := List.mem_filterMap.1 he
    obtain ⟨t, ht, hte⟩ := List.mem_map.1 hm
    obtain ⟨ht, hs⟩ := List.mem_filter.1 ((grouped_perm _ _).mem_iff.1 ht)
    cases hte
    dsimp only at he
    split_ifs at he with hk
    cases he
    exact ⟨t, ht, by simpa using hs, hk, rfl⟩
  obtain ⟨t, ht, hs, hk, rfl⟩ := hfrom he
  obtain ⟨t', ht', hs', -, rfl⟩ := hfrom he'
  exact h.value_eq t ht t' ht' (hs.trans hs'.symm) hname hk

theorem object?_perm (subject : Term) {name : String}
    (hm : name ∈ ["problem", "from", "to", "condition"]) :
    triples.object? subject (ontologyTerm name) = triples'.object? subject (ontologyTerm name) := by
  have hone : ∀ t ∈ triples, ∀ t' ∈ triples, t.subject = subject → t'.subject = subject →
      t.predicate = ontologyTerm name → t'.predicate = ontologyTerm name → t.object = t'.object :=
    fun t ht t' ht' hs hs' hq hq' => h.object_eq t ht t' ht' (hs.trans hs'.symm)
      (hq.trans hq'.symm) (hq ▸ List.mem_map_of_mem hm)
  ext object
  rw [Triples.object?_eq_some_iff hone, Triples.object?_eq_some_iff fun t ht t' ht' =>
    hone t (hp.mem_iff.2 ht) t' (hp.mem_iff.2 ht'), hp.mem_iff]

theorem problem_perm (subject : Term) : problem triples subject = problem triples' subject := by
  simp only [problem, Record.column, properties_perm h hp]

theorem problems_perm (subject : Term) :
    (problems triples).get? subject = (problems triples').get? subject := by
  unfold problems
  simp only [← problem_perm h hp]
  refine OrderedMap.get?_ofEntries_perm ((Triples.members_perm hp _).map _) ?_ subject
  simp +contextual

theorem step_perm (subject : Term) : step triples (problems triples) subject =
    step triples' (problems triples') subject := by
  simp only [step, Record.column, properties_perm h hp,
    object?_perm h hp subject (show "problem" ∈ _ by decide), funext (problems_perm h hp)]

theorem steps_perm (subject : Term) : (steps triples (problems triples)).get? subject =
    (steps triples' (problems triples')).get? subject := by
  unfold steps
  simp only [← step_perm h hp]
  refine OrderedMap.get?_ofEntries_perm ((Triples.members_perm hp _).map _) ?_ subject
  simp +contextual

theorem relations_perm : (relations triples (steps triples (problems triples))).Perm
    (relations triples' (steps triples' (problems triples'))) := by
  have htransition : transition? triples (steps triples (problems triples)) =
      transition? triples' (steps triples' (problems triples')) := by
    funext subject
    simp only [transition?, object?_perm h hp subject (show "from" ∈ _ by decide),
      object?_perm h hp subject (show "to" ∈ _ by decide),
      object?_perm h hp subject (show "condition" ∈ _ by decide), funext (steps_perm h hp)]
  unfold relations firstRelations defaultRelations guardedRelations
  simp only [htransition, funext (steps_perm h hp)]
  exact (((Triples.pairs_perm hp _).filterMap _).append
    ((Triples.pairs_perm hp _).filterMap _)).append ((Triples.members_perm hp _).filterMap _)

end Perm

end Ingest

namespace RecordedGraph

section Spares

theorem spares_problem {draft draft' : ProblemDraft} (h : draft.id.same draft'.id = false) :
    problemUpsert.Spares draft draft' where
  held _ hp := (Datum.same_left_eq hp draft'.id).trans h
  revised _ _ := h
  added := h

theorem spares_step {draft draft' : StepDraft}
    (h : (draft.problem.same draft'.problem && draft.id.same draft'.id) = false) :
    stepUpsert.Spares draft draft' := by
  have hheld : ∀ s, stepUpsert.holds draft s = true → stepUpsert.holds draft' s = false := by
    intro s hs
    obtain ⟨hproblem, hid⟩ := Bool.and_eq_true_iff.1 hs
    change (s.1.1.same draft'.problem && s.1.2.same draft'.id) = false
    rwa [Datum.same_left_eq hproblem, Datum.same_left_eq hid]
  -- A revision keeps the key.
  exact ⟨hheld, hheld, h⟩

end Spares

/-- The nodes of two graphs are the same. -/
structure Alike (graph graph' : RecordedGraph) : Prop where
  problems : graph.problems.Perm graph'.problems
  steps : graph.steps.Perm graph'.steps

/-- Whether a relation is admitted, and so what is counted, depends on the nodes alone. -/
theorem Alike.admits {graph graph' : RecordedGraph} (h : graph.Alike graph') :
    graph.admits = graph'.admits := by
  have hstep : graph.hasStep = graph'.hasStep := by
    funext problem id
    exact h.steps.any_eq
  funext draft
  simp only [RecordedGraph.admits, hasProblem, h.problems.any_eq, hstep]

section Perm

variable {problems problems' : List ProblemDraft} {steps steps' : List StepDraft}
  (hp : problems.Perm problems')
include hp

theorem isAmong_perm (id : Datum) :
    Builder.isAmong ((activeOf problems).map ProblemDraft.id) id =
      Builder.isAmong ((activeOf problems').map ProblemDraft.id) id :=
  ((hp.filter _).map _).any_eq

theorem stepsUnder_perm (hs : steps.Perm steps') :
    (stepsUnder problems steps).Perm (stepsUnder problems' steps') := by
  unfold stepsUnder
  simp only [isAmong_perm hp]
  exact hs.filter _

theorem relationsUnder_perm {relations relations' : List RelationDraft}
    (hr : relations.Perm relations') :
    (relationsUnder problems relations).Perm (relationsUnder problems' relations') := by
  unfold relationsUnder
  simp only [isAmong_perm hp]
  exact hr.filter _

/-- Problems and steps with keys of their own may be written in any order. -/
theorem write_perm (hs : steps.Perm steps')
    (hproblems : problems.Pairwise fun draft draft' => draft.id.same draft'.id = false)
    (hsteps : steps.Pairwise fun draft draft' =>
      (draft.problem.same draft'.problem && draft.id.same draft'.id) = false)
    (graph : RecordedGraph) :
    (graph.write problems steps).Alike (graph.write problems' steps') where
  problems := by
    refine problemUpsert.run_perm (hp.filter _) ((hproblems.filter _).imp fun h => ?_) _
    exact ⟨spares_problem h, spares_problem ((Datum.same_comm ..).trans h)⟩
  steps := by
    refine stepUpsert.run_perm ((stepsUnder_perm hp hs).filter _)
      (((hsteps.filter _).filter _).imp fun h => ?_) _
    refine ⟨spares_step h, spares_step ?_⟩
    rwa [Datum.same_comm, Datum.same_comm (StepDraft.id _)]

theorem tally_perm (hs : steps.Perm steps') {relations relations' : List RelationDraft}
    (hr : relations.Perm relations') {graph graph' : RecordedGraph} (h : graph.Alike graph') :
    graph.tally problems steps relations = graph'.tally problems' steps' relations' := by
  have hactive : (activeOf problems).Perm (activeOf problems') := hp.filter _
  rw [tally, tally, h.admits]
  simp only [hactive.length_eq, (stepsUnder_perm hp hs).countP_eq,
    (relationsUnder_perm hp hr).countP_eq]

end Perm

end RecordedGraph

namespace Builder

open RecordedGraph

theorem createGraph_perm (b : Builder) (graph : RecordedGraph)
    {problems problems' : List ProblemDraft} (hp : problems.Perm problems')
    {steps steps' : List StepDraft} (hs : steps.Perm steps')
    {relations relations' : List RelationDraft} (hr : relations.Perm relations')
    (hids : ∀ draft ∈ problems, draft.id.isTruthy = true)
    (hproblems : problems.Pairwise fun draft draft' => draft.id.same draft'.id = false)
    (hsteps : steps.Pairwise fun draft draft' =>
      (draft.problem.same draft'.problem && draft.id.same draft'.id) = false)
    (hw : CanNote problems steps relations) (hw' : CanNote problems' steps' relations') :
    ∃ tally graph₁ graph₁' log log', graph₁.Alike graph₁' ∧ (created log).Perm (created log') ∧
      b.Leaves graph (b.createGraph problems steps relations) log (.ok (tally, problems)) graph₁ ∧
      b.Leaves graph (b.createGraph problems' steps' relations') log' (.ok (tally, problems'))
        graph₁' := by
  have hids' : ∀ draft ∈ problems', draft.id.isTruthy = true := fun draft hd =>
    hids draft (hp.mem_iff.2 hd)
  have halike := write_perm hp hs hproblems hsteps graph
  obtain ⟨log, r, hleaves, hr₁⟩ := b.leaves_createGraph_created
    (fun draft hd => hids draft (List.mem_filter.1 hd).1) hw.nodes relations
    (graph.write problems steps)
  obtain ⟨log', r', hleaves', hr₂⟩ := b.leaves_createGraph_created
    (fun draft hd => hids' draft (List.mem_filter.1 hd).1) hw'.nodes relations'
    (graph.write problems' steps')
  obtain ⟨rfl, hmade⟩ := hr₁ hw.relations
  obtain ⟨rfl, hmade'⟩ := hr₂ hw'.relations
  refine ⟨_, _, _, log, log', halike, ?_, hleaves graph rfl, ?_⟩
  · rw [hmade, hmade', halike.admits]
    exact ((relationsUnder_perm hp hr).filter _).map _
  · rw [tally_perm hp hs hr halike]
    exact hleaves' graph rfl

/-- On a database that records a graph, the order of statements does not matter: with statements
that do not contradict each other, ingesting the same ones counts the same, leaves the same problems
and steps, and asks for the same relations as often. -/
theorem ingest_perm (b : Builder) {graph : RecordedGraph} {d d' : Database}
    (hd : d.backend = .recorder graph) (hd' : d'.backend = .recorder graph)
    {triples triples' : Triples} (hn : triples.Nodup) (hn' : triples'.Nodup)
    (hm : ∀ t, t ∈ triples ↔ t ∈ triples') (h : Ingest.Settled triples) :
    ∃ tally graph₁ graph₁' log log' d₁ d₁',
      b.ingest triples (some d) = (.ok tally, some d₁) ∧
      b.ingest triples' (some d') = (.ok tally, some d₁') ∧
      d₁.backend = .recorder graph₁ ∧ d₁'.backend = .recorder graph₁' ∧ graph₁.Alike graph₁' ∧
      b.Asks d log d₁ ∧ d₁.calls = d.calls ++ log.map Exchange.call ∧
      b.Asks d' log' d₁' ∧ d₁'.calls = d'.calls ++ log'.map Exchange.call ∧
      (created log).Perm (created log') := by
  have hp : triples.Perm triples' := (List.perm_ext_iff_of_nodup hn hn').2 hm
  have hproblems : (Ingest.problems triples).values.Perm (Ingest.problems triples').values := by
    rw [Ingest.values_problems hn, Ingest.values_problems hn', ← funext (Ingest.problem_perm h hp)]
    exact (Triples.members_perm hp _).map _
  have hsteps : (Ingest.steps triples (Ingest.problems triples)).values.Perm
      (Ingest.steps triples' (Ingest.problems triples')).values := by
    rw [Ingest.values_steps hn, Ingest.values_steps hn', ← funext (Ingest.step_perm h hp)]
    exact (Triples.members_perm hp _).map _
  have hids : ∀ draft ∈ (Ingest.problems triples).values, draft.id.isTruthy = true := by
    rw [Ingest.values_problems hn]
    exact List.forall_mem_map.2 h.problem_id
  have hapart : (Ingest.problems triples).values.Pairwise
      fun draft draft' => draft.id.same draft'.id = false := by
    rw [Ingest.values_problems hn, List.pairwise_map]
    exact (Ingest.members_nodup hn _).pairwise_of_forall_ne h.problem_apart
  have hkeys : (Ingest.steps triples (Ingest.problems triples)).values.Pairwise fun draft draft' =>
      (draft.problem.same draft'.problem && draft.id.same draft'.id) = false := by
    rw [Ingest.values_steps hn, List.pairwise_map]
    exact (Ingest.members_nodup hn _).pairwise_of_forall_ne h.step_apart
  obtain ⟨tally, graph₁, graph₁', log, log', halike, hmade, hleaves, hleaves'⟩ :=
    b.createGraph_perm graph hproblems hsteps (Ingest.relations_perm h hp) hids hapart hkeys
      (Ingest.canNote triples) (Ingest.canNote triples')
  obtain ⟨d₁, hr, hd₁, hlog⟩ := hleaves d hd
  obtain ⟨d₁', hr', hd₁', hlog'⟩ := hleaves' d' hd'
  refine ⟨tally, graph₁, graph₁', log, log', d₁, d₁', ?_, ?_, hd₁, hd₁', halike, hlog, hlog.calls,
    hlog', hlog'.calls, hmade⟩
  · simp only [ingest, hr]
    rfl
  · simp only [ingest, hr']
    rfl

/-- A refund with a transition between its two steps, stated forwards and backwards. -/
theorem ingest_perm_refund :
    let step (subject number : String) : Triples :=
      [⟨.resource subject, typeTerm, ontologyTerm "Step"⟩,
        ⟨.resource subject, ontologyTerm "problem", .resource "refund"⟩,
        ⟨.resource subject, ontologyTerm "stepId",
          .literal number (some (dataType "integer")) none⟩]
    let triples : Triples :=
      [⟨.resource "refund", typeTerm, ontologyTerm "Problem"⟩,
        ⟨.resource "refund", ontologyTerm "firstStep", .resource "s1"⟩] ++
      step "s1" "1" ++ step "s2" "2" ++
      [⟨.resource "t", typeTerm, ontologyTerm "Transition"⟩,
        ⟨.resource "t", ontologyTerm "from", .resource "s1"⟩,
        ⟨.resource "t", ontologyTerm "to", .resource "s2"⟩]
    let d : Database := .ofBackend (.recorder .empty) true
    d.backend = .recorder .empty ∧ triples.Nodup ∧ triples.reverse.Nodup ∧
      (∀ t, t ∈ triples ↔ t ∈ triples.reverse) ∧ Ingest.Settled triples ∧
      ∃ tally graph₁ graph₁' log log' d₁ d₁',
        (⟨none⟩ : Builder).ingest triples (some d) = (.ok tally, some d₁) ∧
        (⟨none⟩ : Builder).ingest triples.reverse (some d) = (.ok tally, some d₁') ∧
        d₁.backend = .recorder graph₁ ∧ d₁'.backend = .recorder graph₁' ∧ graph₁.Alike graph₁' ∧
        (⟨none⟩ : Builder).Asks d log d₁ ∧ d₁.calls = d.calls ++ log.map Exchange.call ∧
        (⟨none⟩ : Builder).Asks d log' d₁' ∧ d₁'.calls = d.calls ++ log'.map Exchange.call ∧
        (created log).Perm (created log') := by
  intro step triples d
  have hn : triples.Nodup := by decide +kernel
  have hm : ∀ t, t ∈ triples ↔ t ∈ triples.reverse := fun t => List.mem_reverse.symm
  have hone : ∀ t ∈ triples, ∀ t' ∈ triples, t.subject = t'.subject →
      localName t.predicate.text = localName t'.predicate.text →
      Ingest.knownProperties.contains (localName t.predicate.text) = true →
        t.object = t'.object := by
    decide +kernel
  have h : Ingest.Settled triples :=
    { value_eq := fun t ht t' ht' hs hl hk => congrArg Term.value (hone t ht t' ht' hs hl hk)
      object_eq := by decide +kernel
      problem_id := by decide +kernel
      problem_apart := by decide +kernel
      step_apart := by decide +kernel }
  exact ⟨rfl, hn, List.nodup_reverse.2 hn, hm, h,
    ingest_perm ⟨none⟩ rfl rfl hn (List.nodup_reverse.2 hn) hm h⟩

end Builder

end Playbook
