import Playbook.Proofs.LocalReads

/-!
# Playbooks built by additions

A playbook is built by additions that succeed. In a built playbook both ends of a relation, where
they are set, are steps of its problem (`Built.end_mem`), so a playbook whose relations all have
targets is complete.
-/

namespace Playbook.LocalGraph

variable {graph graph' : LocalGraph}

/-- Graphs that successful additions make of the empty one. -/
inductive Built : LocalGraph → Prop where
  | empty : Built .empty
  | problem {graph graph' : LocalGraph} {problem : Problem} (built : Built graph)
      (added : graph.addProblem problem = .ok graph') : Built graph'
  | step {graph : LocalGraph} {step : Step} (built : Built graph) : Built (graph.addStep step)
  | relation {graph graph' : LocalGraph} {relation : Relation} (built : Built graph)
      (added : graph.addRelation relation = .ok graph') : Built graph'

theorem addProblem_frame {problem : Problem} (h : graph.addProblem problem = .ok graph') :
    graph'.steps = graph.steps ∧ graph'.relations = graph.relations := by
  unfold addProblem at h
  split at h
  · split_ifs at h
    cases h
    exact ⟨rfl, rfl⟩
  · cases h

theorem contains_addStep {step : Step} {key : StepKey}
    (h : graph.steps.contains key = true) : (graph.addStep step).steps.contains key = true := by
  rw [OrderedMap.contains_iff] at h ⊢
  simp only [addStep, OrderedMap.keys_insert]
  split_ifs
  · exact h
  · exact List.mem_append_left _ h

theorem addRelation_of {relation : Relation} (hd : relation.defects = [])
    (hp : graph.hasProblem relation.problem = true) (hm : graph.missingEnd relation = none) :
    graph.addRelation relation =
      .ok { graph with relations := graph.relations ++ [relation] } := by
  simp only [addRelation, hd, hp, hm, ne_eq, not_true, if_false, Bool.not_true,
    Bool.false_eq_true]

theorem addRelation_eq_ok {relation : Relation} (h : graph.addRelation relation = .ok graph') :
    graph.missingEnd relation = none ∧
      graph' = { graph with relations := graph.relations ++ [relation] } := by
  unfold addRelation at h
  split_ifs at h
  split at h
  · rename_i id _
    rcases hs : shownNumber id with f | text <;> rw [hs] at h <;> cases h
  · rename_i hm
    exact ⟨hm, (Except.ok.inj h).symm⟩

theorem addRelation_frame {relation : Relation} (h : graph.addRelation relation = .ok graph') :
    graph'.steps = graph.steps ∧ graph'.relations = graph.relations ++ [relation] ∧
      graph.missingEnd relation = none := by
  obtain ⟨hm, rfl⟩ := addRelation_eq_ok h
  exact ⟨rfl, rfl, hm⟩

theorem problems_of_addRelation {relation : Relation}
    (h : graph.addRelation relation = .ok graph') : graph'.problems = graph.problems := by
  obtain ⟨-, rfl⟩ := addRelation_eq_ok h
  rfl

theorem contains_of_missingEnd {relation : Relation} (h : graph.missingEnd relation = none)
    {id : Int} (hid : some id ∈ [relation.source, relation.target]) :
    graph.steps.contains (relation.problem, some id) = true := by
  simpa using List.find?_eq_none.1 h _ hid

/-- The ends of a relation of a built graph, where they are set, are steps of its problem. -/
theorem Built.end_mem (h : Built graph) : ∀ relation ∈ graph.relations, ∀ id : Int,
    some id ∈ [relation.source, relation.target] →
      graph.steps.contains (relation.problem, some id) = true := by
  induction h with
  | empty => exact fun _ hr => absurd hr List.not_mem_nil
  | problem _ added ih =>
    obtain ⟨hs, hr⟩ := addProblem_frame added
    rw [hs, hr]
    exact ih
  | step _ ih => exact fun r hr id hid => contains_addStep (ih r hr id hid)
  | relation _ added ih =>
    obtain ⟨hs, hr, hm⟩ := addRelation_frame added
    rw [hs, hr]
    intro r hr id hid
    rcases List.mem_append.1 hr with hr | hr
    · exact ih r hr id hid
    · obtain rfl := List.mem_singleton.1 hr
      exact contains_of_missingEnd hm hid

theorem Built.complete (h : Built graph)
    (ht : ∀ relation ∈ graph.relations, relation.target.isSome = true) : graph.Complete := by
  intro r hr
  obtain ⟨id, hid⟩ := Option.isSome_iff_exists.1 (ht r hr)
  rw [hid]
  exact h.end_mem r hr id (by simp [hid])

theorem Built.addRelations (relations : List Relation) :
    ∀ {graph : LocalGraph}, Built graph → relations.foldlM addRelation graph = .ok graph' →
      Built graph' := by
  induction relations with
  | nil =>
    intro graph h ha
    cases ha
    exact h
  | cons relation rest ih =>
    intro graph h ha
    rw [List.foldlM_cons] at ha
    rcases hr : graph.addRelation relation with f | next <;> rw [hr] at ha
    · cases ha
    · exact ih (h.relation hr) ha

theorem refunds_built : Built refunds := by
  have hs : Built (((empty.addStep refunds.lookup).addStep refunds.paid).addStep
    refunds.nothing) := .step (.step (.step .empty))
  have hp := @Built.problem _ _ ⟨some "refund", some "refund", none, true⟩ hs rfl
  exact hp.addRelations refunds.relations rfl

end Playbook.LocalGraph
