import Playbook.Proofs.Integrity
import Playbook.Proofs.ReadBack

/-!
# Which relations are accepted

A local graph accepts the relations that it admits, and no others
(`LocalGraph.addRelation_isOk_iff`). A builder on a recorder with the same problems and steps looks
for other ends: it passes over the source of a relation to a first step, and looks for a target even
where none is set. So the two part at relations that stray or dangle and agree on all others, one at
a time (`Builder.createRelation_mirrored`) and in whole lists (`Builder.createRelations_mirrored`).
-/

namespace Playbook

namespace LocalGraph

variable {graph graph' : LocalGraph} {relation : Relation}

theorem hasProblem_iff {problem : Option String} : graph.hasProblem problem = true ↔
    ∃ id, problem = some id ∧ graph.problems.contains id = true := by
  cases problem <;> simp [hasProblem]

theorem missingEnd_eq_none_iff : graph.missingEnd relation = none ↔
    ∀ id : Int, some id ∈ [relation.source, relation.target] →
      graph.steps.contains (relation.problem, some id) = true := by
  refine ⟨fun h id hid => contains_of_missingEnd h hid, fun h => List.find?_eq_none.2 ?_⟩
  intro id hid
  cases id with
  | none => simp
  | some id => simp [h id hid]

theorem addRelation_of_admits (h : graph.Admits relation) : graph.addRelation relation =
    .ok { graph with relations := graph.relations ++ [relation] } :=
  addRelation_of h.valid (hasProblem_iff.2 h.problem) (missingEnd_eq_none_iff.2 h.ends)

/-- What is admitted is accepted, and nothing else. -/
theorem addRelation_isOk_iff :
    (graph.addRelation relation).isOk = true ↔ graph.Admits relation := by
  constructor
  · intro h
    rcases ha : graph.addRelation relation with f | graph'
    · rw [ha] at h
      cases h
    · exact admits_of_addRelation ha
  · intro h
    rw [addRelation_of_admits h]
    rfl

/-- Whether a relation is accepted depends on the problems and the steps alone. -/
theorem isOk_addRelation_congr (hp : graph'.problems = graph.problems)
    (hs : graph'.steps = graph.steps) (relation : Relation) :
    (graph'.addRelation relation).isOk = (graph.addRelation relation).isOk := by
  rw [Bool.eq_iff_iff, addRelation_isOk_iff, addRelation_isOk_iff]
  constructor
  · intro h
    exact h.mono (fun _ hid => hp ▸ hid) (fun _ hk => hs ▸ hk)
  · intro h
    exact h.mono (fun _ hid => hp.symm ▸ hid) (fun _ hk => hs.symm ▸ hk)

theorem enter_relation (graph : LocalGraph) (relation : Relation) :
    let next := (enter (.relation relation) graph).2
    next.problems = graph.problems ∧ next.steps = graph.steps ∧ next.relations =
      graph.relations ++ if (graph.addRelation relation).isOk then [relation] else [] := by
  by_cases h : (graph.addRelation relation).isOk = true
  · rw [if_pos h]
    simp only [enter, add, addRelation_of_admits (addRelation_isOk_iff.1 h), and_self]
  · rw [if_neg h, List.append_nil]
    rcases ha : graph.addRelation relation with f | next
    · simp only [enter, add, ha, and_self]
    · rw [ha] at h
      exact absurd rfl h

/-- Of some relations those are added that the graph accepts at the outset. -/
theorem enterAll_relations (graph : LocalGraph) (relations : List Relation) :
    (graph.enterAll (relations.map .relation)).relations =
      graph.relations ++ relations.filter fun r => (graph.addRelation r).isOk := by
  induction relations generalizing graph with
  | nil => exact (List.append_nil _).symm
  | cons relation rest ih =>
    obtain ⟨hp, hs, hr⟩ := enter_relation graph relation
    have hrest := ih (enter (.relation relation) graph).2
    simp only [isOk_addRelation_congr hp hs] at hrest
    rw [List.map_cons, enterAll, List.foldl_cons]
    refine hrest.trans ?_
    rw [hr, List.append_assoc, List.filter_cons]
    split_ifs <;> rfl

/-- A relation to a first step comes from what is no step. -/
def Strays (graph : LocalGraph) (relation : Relation) : Prop :=
  relation.type = some firstRelation ∧ ∃ id : Int, relation.source = some id ∧
    graph.steps.contains (relation.problem, some id) = false

/-- A relation leads nowhere, and there is no step without a number. -/
def Dangles (graph : LocalGraph) (relation : Relation) : Prop :=
  relation.target = none ∧ graph.steps.contains (relation.problem, none) = false

end LocalGraph

theorem RelationDraft.defects_ofRelation (relation : Relation) :
    (ofRelation relation).defects = relation.defects := by
  obtain ⟨problem, source, target, type, condition⟩ := relation
  cases source <;> cases type <;> cases condition <;> rfl

theorem Builder.isFirst_ofRelation {relation : Relation} :
    isFirst (.ofRelation relation) = true ↔ relation.type = some firstRelation := by
  obtain ⟨problem, source, target, type, condition⟩ := relation
  cases type <;>
    simp [isFirst, RelationDraft.ofRelation, Datum.ofText?, Value.ofText?, Datum.textOf?]

namespace RecordedGraph

/-- A recorder and a local graph hold the same problems and steps. -/
structure SameNodes (recorded : RecordedGraph) (graph : LocalGraph) : Prop where
  problems (id : Option String) : recorded.hasProblem (.ofText? id) = graph.hasProblem id
  steps (problem : Option String) (id : Option Int) :
    recorded.hasStep (.ofText? problem) (.ofInt? id) = graph.steps.contains (problem, id)

/-- The problems and steps of a local graph as a recorder keeps them. -/
def ofLocal (graph : LocalGraph) : RecordedGraph where
  problems := graph.problems.entries.map fun e => (ProblemDraft.ofProblem e.2).record
  steps := graph.steps.entries.map fun e => node e.2

theorem sameNodes_ofLocal (graph : LocalGraph) : (ofLocal graph).SameNodes graph where
  problems id := by
    rw [Bool.eq_iff_iff, LocalGraph.hasProblem_iff, hasProblem, List.any_eq_true]
    constructor
    · rintro ⟨fields, hm, hs⟩
      obtain ⟨e, he, rfl⟩ := List.mem_map.1 hm
      have hid : e.2.id = id := Datum.same_ofText?_iff.1 hs
      refine ⟨e.1, hid.symm.trans (graph.problemsById e he), ?_⟩
      exact OrderedMap.contains_iff.2 (List.mem_map_of_mem he)
    · rintro ⟨key, rfl, hc⟩
      obtain ⟨e, he, rfl⟩ := List.mem_map.1 (OrderedMap.contains_iff.1 hc)
      exact ⟨_, List.mem_map_of_mem he, Datum.same_ofText?_iff.2 (graph.problemsById e he)⟩
  steps problem id := by
    rw [Bool.eq_iff_iff, OrderedMap.contains_iff, hasStep, List.any_eq_true]
    constructor
    · rintro ⟨step, hm, hs⟩
      obtain ⟨e, he, rfl⟩ := List.mem_map.1 hm
      obtain ⟨hp, hi⟩ := Bool.and_eq_true_iff.1 hs
      have hkey : e.1 = (problem, id) := (graph.stepsByKey e he).symm.trans
        (Prod.ext (Datum.same_ofText?_iff.1 hp) (Datum.same_ofInt?_iff.1 hi))
      exact hkey ▸ List.mem_map_of_mem he
    · intro hk
      obtain ⟨e, he, hkey⟩ := List.mem_map.1 hk
      have hown : e.2.key = (problem, id) := (graph.stepsByKey e he).trans hkey
      refine ⟨_, List.mem_map_of_mem he, Bool.and_eq_true_iff.2 ⟨?_, ?_⟩⟩
      · exact Datum.same_ofText?_iff.2 (congrArg Prod.fst hown)
      · exact Datum.same_ofInt?_iff.2 (congrArg Prod.snd hown)

section Admitted

variable {recorded : RecordedGraph} {graph : LocalGraph} (h : recorded.SameNodes graph)
  {relation : Relation}
include h

theorem SameNodes.admits_iff : recorded.admits (.ofRelation relation) = true ↔
    relation.defects = [] ∧ graph.hasProblem relation.problem = true ∧
      (relation.type = some firstRelation ∨
        graph.steps.contains (relation.problem, relation.source) = true) ∧
      graph.steps.contains (relation.problem, relation.target) = true := by
  have hp := h.problems relation.problem
  have hs := h.steps relation.problem
  rw [admits, RelationDraft.defects_ofRelation, Bool.and_eq_true, List.isEmpty_iff,
    Bool.and_eq_true]
  refine and_congr_right fun _ => and_congr (by rw [← hp]; rfl) ?_
  by_cases hf : relation.type = some firstRelation
  · have hends : Builder.endsOf (.ofRelation relation) = [.ofInt? relation.target] :=
      if_pos (Builder.isFirst_ofRelation.2 hf)
    rw [hends, ← hs relation.target]
    simp [hf, RelationDraft.ofRelation]
  · have hends : Builder.endsOf (.ofRelation relation) =
        [.ofInt? relation.source, .ofInt? relation.target] :=
      if_neg fun hfirst => hf (Builder.isFirst_ofRelation.1 hfirst)
    rw [hends, ← hs, ← hs]
    simp [hf, RelationDraft.ofRelation]

/-- What the builder makes is accepted unless it strays. -/
theorem SameNodes.admits_local_iff (hr : recorded.admits (.ofRelation relation) = true) :
    graph.Admits relation ↔ ¬ graph.Strays relation := by
  obtain ⟨hv, hp, hsource, htarget⟩ := h.admits_iff.1 hr
  constructor
  · rintro ha ⟨-, id, hid, hno⟩
    have hyes := ha.ends id (by simp [hid])
    rw [hno] at hyes
    cases hyes
  · intro hstays
    refine ⟨hv, LocalGraph.hasProblem_iff.1 hp, fun id hid => ?_⟩
    simp only [List.mem_cons, List.not_mem_nil, or_false] at hid
    rcases hid with hid | hid
    -- The builder has looked for the source unless the relation is to a first step.
    · rcases hsource with hf | hs
      · rw [← Bool.not_eq_false]
        exact fun hno => hstays ⟨hf, id, hid.symm, hno⟩
      · rwa [hid]
    · rwa [hid]

/-- What is accepted is made by the builder unless it dangles. -/
theorem SameNodes.admits_recorded_iff (ha : graph.Admits relation) :
    recorded.admits (.ofRelation relation) = true ↔ ¬ graph.Dangles relation := by
  rw [h.admits_iff]
  constructor
  · rintro ⟨-, -, -, htarget⟩ ⟨hnone, hno⟩
    rw [hnone, hno] at htarget
    cases htarget
  · intro hends
    refine ⟨ha.valid, LocalGraph.hasProblem_iff.2 ha.problem, ?_, ?_⟩
    · refine (Relation.defects_eq_nil_iff.1 ha.valid).2.1.imp_right fun hs => ?_
      obtain ⟨id, hid⟩ := Option.isSome_iff_exists.1 hs
      rw [hid]
      exact ha.ends id (by simp [hid])
    · rcases ht : relation.target with _ | id
      · rw [← Bool.not_eq_false]
        exact fun hno => hends ⟨ht, hno⟩
      · exact ha.ends id (by simp [ht])

end Admitted

end RecordedGraph

namespace Builder

open RecordedGraph

variable {recorded : RecordedGraph} {graph : LocalGraph}

/-- A builder makes a relation if and only if it says so, and leaves the recorder as it is. It says
that it does not make one unless what it would note of that cannot be written. What it makes is
accepted by a graph with the same problems and steps, unless it strays; what that accepts is made,
unless it dangles. -/
theorem createRelation_mirrored (b : Builder) (h : recorded.SameNodes graph) {d : Database}
    (hd : d.backend = .recorder recorded) (relation : Relation) :
    ∃ (r : Except Fault Bool) (log : List Exchange) (d₁ : Database),
      b.createRelation (.ofRelation relation) (some d) = (r, some d₁) ∧
      d₁.backend = .recorder recorded ∧ d₁.calls = d.calls ++ log.map Exchange.call ∧
      (r = .ok true ∧ created log = [creation (.ofRelation relation)] ∨
        (r = .ok false ∨ r = .error .integerTooLong ∧
          ¬ Notable (recorded.noted (.ofRelation relation))) ∧ created log = []) ∧
      (r = .ok true →
        ((graph.addRelation relation).isOk = true ↔ ¬ graph.Strays relation)) ∧
      ((graph.addRelation relation).isOk = true →
        (r = .ok true ↔ ¬ graph.Dangles relation)) := by
  obtain ⟨log, hleaves, hlog⟩ := b.leaves_createRelation recorded (.ofRelation relation)
  obtain ⟨d₁, hr, hd₁, hasks⟩ := hleaves d hd
  have hdone : ((note (recorded.noted (.ofRelation relation))).map fun _ =>
      recorded.admits (.ofRelation relation)) = .ok true ↔
      recorded.admits (.ofRelation relation) = true := by
    constructor
    · cases note (recorded.noted (.ofRelation relation)) <;> simp [Except.map]
    · intro ha
      rw [noted_of_admits ha, ha]
      rfl
  rw [LocalGraph.addRelation_isOk_iff]
  refine ⟨_, log, d₁, hr, hd₁, hasks.calls, ?_, fun hr => h.admits_local_iff (hdone.1 hr),
    fun hok => hdone.trans (h.admits_recorded_iff hok)⟩
  cases ha : recorded.admits (.ofRelation relation) with
  | true =>
    rw [ha] at hlog
    exact .inl ⟨by rw [noted_of_admits ha]; rfl, hlog⟩
  | false =>
    rw [ha] at hlog
    refine .inr ⟨?_, hlog⟩
    rcases hn : note (recorded.noted (.ofRelation relation)) with f | ⟨⟩
    · exact .inr ⟨by rw [eq_integerTooLong_of_note hn]; rfl, not_notable_of_error hn⟩
    · exact .inl rfl

/-- A guarded relation of a playbook is accepted and made. -/
theorem createRelation_mirrored_refunds :
    let graph := LocalGraph.refunds
    let d := Database.ofBackend (.recorder (ofLocal graph)) true
    let b : Builder := ⟨none⟩
    let relation : Relation :=
      ⟨some "refund", some 3, some 1, some guardedRelation, some "amount > 5"⟩
    (ofLocal graph).SameNodes graph ∧ d.backend = .recorder (ofLocal graph) ∧
      (graph.addRelation relation).isOk = true ∧
      (b.createRelation (.ofRelation relation) (some d)).1 = .ok true := by
  intro graph d b relation
  have h : (ofLocal graph).SameNodes graph := sameNodes_ofLocal graph
  obtain ⟨r, log, d₁, hr, -, -, -, -, hmade⟩ :=
    @b.createRelation_mirrored (ofLocal graph) graph h d rfl relation
  have ha : (graph.addRelation relation).isOk = true := by decide
  have hends : ¬ graph.Dangles relation := fun hn => nomatch hn.1
  refine ⟨h, rfl, ha, ?_⟩
  rw [hr, (hmade ha).2 hends]

/-- A relation to a first step that comes from nowhere is made and not accepted; one without a
target is accepted and not made. -/
theorem createRelation_not_mirrored :
    let graph := LocalGraph.refunds
    let d := Database.ofBackend (.recorder (ofLocal graph)) true
    let b : Builder := ⟨none⟩
    let straying : Relation := ⟨some "refund", some 99, some 1, some firstRelation, none⟩
    let dangling : Relation := ⟨some "refund", some 1, none, some defaultRelation, none⟩
    (ofLocal graph).SameNodes graph ∧
      graph.addRelation straying = .error (.unknownStep (some "refund") "99") ∧
      (b.createRelation (.ofRelation straying) (some d)).1 = .ok true ∧
      (graph.addRelation dangling).isOk = true ∧
      (b.createRelation (.ofRelation dangling) (some d)).1 = .ok false :=
  ⟨sameNodes_ofLocal _, by decide +kernel, by decide +kernel, by decide, by decide +kernel⟩

/-- Of relations that neither stray nor dangle a builder makes those that a graph with the same
problems and steps keeps, as long as what it notes of the others can be written. -/
theorem createRelations_mirrored (b : Builder) (h : recorded.SameNodes graph)
    {relations : List Relation}
    (hends : ∀ r ∈ relations, ¬ graph.Strays r ∧ ¬ graph.Dangles r)
    (hnoted : ∀ r ∈ relations, Notable (recorded.noted (.ofRelation r))) (tally : Tally) :
    ∃ log kept, b.Leaves recorded (b.createRelations (relations.map .ofRelation) tally) log
        (.ok { tally with
          relations := tally.relations + kept.length
          failed := tally.failed + (relations.length - kept.length) }) recorded ∧
      created log = kept.map (fun r => creation (.ofRelation r)) ∧
      (graph.enterAll (relations.map .relation)).relations = graph.relations ++ kept := by
  obtain ⟨log, r, hleaves, hall⟩ :=
    b.leaves_createRelations recorded (relations.map .ofRelation) tally
  obtain ⟨rfl, hlog⟩ := hall (List.forall_mem_map.2 hnoted)
  have hsame (r : Relation) (hr : r ∈ relations) :
      recorded.admits (.ofRelation r) = (graph.addRelation r).isOk := by
    rw [Bool.eq_iff_iff, LocalGraph.addRelation_isOk_iff]
    constructor
    · intro hmade
      exact (h.admits_local_iff hmade).2 (hends r hr).1
    · intro haccepted
      exact (h.admits_recorded_iff haccepted).2 (hends r hr).2
  have hkept : (relations.filter fun r => recorded.admits (.ofRelation r)) =
      relations.filter fun r => (graph.addRelation r).isOk := List.filter_congr hsame
  refine ⟨log, relations.filter fun r => recorded.admits (.ofRelation r), ?_, ?_, ?_⟩
  · have hfailed : relations.countP ((!recorded.admits ·) ∘ RelationDraft.ofRelation) =
        relations.length -
          (relations.filter fun r => recorded.admits (.ofRelation r)).length := by
      have hall := List.length_eq_countP_add_countP (l := relations) fun r =>
        recorded.admits (.ofRelation r)
      simp only [Bool.not_eq_true, Bool.decide_eq_false] at hall
      rw [← List.countP_eq_length_filter]
      exact (Nat.sub_eq_of_eq_add' hall).symm
    rw [List.countP_map, List.countP_map, hfailed, List.countP_eq_length_filter] at hleaves
    exact hleaves
  · rw [hlog, List.filter_map, List.map_map]
    rfl
  · rw [hkept, LocalGraph.enterAll_relations]

end Builder

end Playbook
