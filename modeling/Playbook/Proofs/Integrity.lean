import Playbook.Proofs.Built

/-!
# Referential integrity

A graph admits a relation that is valid and whose problem and ends, where the ends are set, are in
the graph. Only such relations are added, and additions take nothing away (`Admits.mono`), so that
all relations of a graph stay admitted through any additions, refused ones among them
(`Built.admits`, `built_enterAll`). A read can then fail only for want of a first step, or at a
relation that has no target (`integrity`).
-/

namespace Playbook

theorem Relation.defects_eq_nil_iff {relation : Relation} :
    relation.defects = [] ↔ relation.type.any relationTypes.contains = true ∧
      (relation.type = some firstRelation ∨ relation.source.isSome = true) ∧
      (relation.type = some guardedRelation → isUnstated relation.condition = false) := by
  unfold Relation.defects Relation.defectsOf
  rw [List.append_eq_nil_iff, List.append_eq_nil_iff, and_assoc]
  refine and_congr ?_ (and_congr ?_ ?_)
  · split_ifs with h <;> simp [h]
  · by_cases h : relation.type = some firstRelation
    · simp [h]
    · simp [h, Option.isSome_iff_ne_none]
  · by_cases h : relation.type = some guardedRelation <;> simp [h]

namespace LocalGraph

variable {graph graph' : LocalGraph}

/-- The relation is valid, and what it refers to is in the graph. -/
structure Admits (graph : LocalGraph) (relation : Relation) : Prop where
  valid : relation.defects = []
  problem : ∃ id, relation.problem = some id ∧ graph.problems.contains id = true
  ends : ∀ id : Int, some id ∈ [relation.source, relation.target] →
    graph.steps.contains (relation.problem, some id) = true

section Admits

variable {relation : Relation}

theorem Admits.mono (h : graph.Admits relation)
    (hp : ∀ id, graph.problems.contains id = true → graph'.problems.contains id = true)
    (hs : ∀ key, graph.steps.contains key = true → graph'.steps.contains key = true) :
    graph'.Admits relation where
  valid := h.valid
  problem := h.problem.imp fun id hid => ⟨hid.1, hp id hid.2⟩
  ends id hid := hs _ (h.ends id hid)

theorem admits_of_addRelation (h : graph.addRelation relation = .ok graph') :
    graph.Admits relation := by
  have hm := (addRelation_frame h).2.2
  unfold addRelation at h
  split_ifs at h with hd hp
  rw [not_not] at hd
  obtain ⟨id, hid, hc⟩ : ∃ id, relation.problem = some id ∧ graph.problems.contains id = true := by
    rcases hr : relation.problem with _ | id
    · simp [hasProblem, hr] at hp
    · exact ⟨id, rfl, by simpa [hasProblem, hr] using hp⟩
  exact ⟨hd, ⟨id, hid, hc⟩, fun id hid => contains_of_missingEnd hm hid⟩

theorem contains_addProblem {problem : Problem} (h : graph.addProblem problem = .ok graph')
    {id : String} (hid : graph.problems.contains id = true) :
    graph'.problems.contains id = true := by
  unfold addProblem at h
  split at h
  · split_ifs at h
    cases h
    rw [OrderedMap.contains_iff] at hid ⊢
    rw [OrderedMap.keys_insert]
    split_ifs
    · exact hid
    · exact List.mem_append_left _ hid
  · cases h

theorem Built.admits (h : Built graph) : ∀ relation ∈ graph.relations, graph.Admits relation := by
  induction h with
  | empty => exact fun _ hr => absurd hr List.not_mem_nil
  | problem _ added ih =>
    obtain ⟨hs, hr⟩ := addProblem_frame added
    rw [hr]
    refine fun r hr => (ih r hr).mono (fun _ => contains_addProblem added) fun _ h => ?_
    rw [hs]
    exact h
  | step _ ih =>
    exact fun r hr => (ih r hr).mono (fun _ => id) fun _ => contains_addStep
  | @relation graph graph' relation _ added ih =>
    have hp := problems_of_addRelation added
    obtain ⟨hs, hr, -⟩ := addRelation_frame added
    have hmono {r : Relation} (h : graph.Admits r) : graph'.Admits r :=
      h.mono (fun _ => by rw [hp]; exact id) fun _ => by rw [hs]; exact id
    rw [hr]
    intro r hr
    rcases List.mem_append.1 hr with hr | hr
    · exact hmono (ih r hr)
    · obtain rfl := List.mem_singleton.1 hr
      exact hmono (admits_of_addRelation added)

end Admits

section Additions

/-- The graph after some additions, of which the refused ones leave it as it is. -/
def enterAll (graph : LocalGraph) (additions : List Addition) : LocalGraph :=
  additions.foldl (fun graph addition => (enter addition graph).2) graph

theorem Built.enter (h : Built graph) (addition : Addition) : Built (enter addition graph).2 := by
  unfold LocalGraph.enter
  rcases ha : graph.add addition with f | next
  · exact h
  · cases addition with
    | problem problem => exact h.problem ha
    | step step =>
      cases ha
      exact h.step
    | relation relation => exact h.relation ha

theorem Built.enterAll (h : Built graph) (additions : List Addition) :
    Built (graph.enterAll additions) := by
  induction additions generalizing graph with
  | nil => exact h
  | cons addition rest ih => exact ih (h.enter addition)

theorem enter_error {addition : Addition} {f : Fault}
    (h : enter addition graph = (.error f, graph')) : graph' = graph := by
  unfold enter at h
  rcases ha : graph.add addition with f' | next <;> rw [ha] at h <;> cases h
  rfl

end Additions

section Reads

variable {problem : Option String} {id : Option Int}

theorem Built.exists_target (h : Built graph) {relation : Relation}
    (hr : relation ∈ graph.relations) (ht : relation.target ≠ none) :
    ∃ step, graph.steps.get? (relation.problem, relation.target) = some step := by
  obtain ⟨id, hid⟩ := Option.ne_none_iff_exists'.1 ht
  have hc := (h.admits relation hr).ends id (by simp [hid])
  rw [hid]
  exact Option.isSome_iff_exists.1 hc

/-- The first relation of a problem to a first step. -/
def opening? (graph : LocalGraph) (problem : Option String) : Option Relation :=
  graph.relations.find? fun r => r.problem = problem && r.type = some firstRelation

theorem firstStep_of_opening? (h : graph.opening? problem = none) :
    graph.firstStep problem = .error (.noFirstStep problem) := by
  unfold opening? at h
  unfold LocalGraph.firstStep
  rw [h]

theorem Built.firstStep (hb : Built graph) {relation : Relation}
    (h : graph.opening? problem = some relation) (ht : relation.target ≠ none) :
    ∃ step, graph.firstStep problem = .ok step ∧ step.key = (problem, relation.target) := by
  unfold opening? at h
  have hp := List.find?_some h
  simp only [Bool.and_eq_true, decide_eq_true_eq] at hp
  obtain ⟨step, hs⟩ := hb.exists_target (List.mem_of_find?_eq_some h) ht
  rw [hp.1] at hs
  refine ⟨step, ?_, key_of_get? hs⟩
  unfold LocalGraph.firstStep
  rw [h]
  exact step_eq_ok_iff.2 hs

theorem Built.candidates (h : Built graph)
    (ht : ∀ relation ∈ graph.relationsFrom problem id, relation.target ≠ none) :
    ∃ candidates, graph.candidates problem id = .ok candidates := by
  rcases hc : graph.candidates problem id with f | candidates
  · obtain ⟨relation, hr, hf⟩ := mapM_error hc
    obtain ⟨step, hs⟩ := h.exists_target (mem_relationsFrom.1 hr).1 (ht relation hr)
    have hn := (candidate_error hf).1
    simp [OrderedMap.contains, hs] at hn
  · exact ⟨candidates, rfl⟩

end Reads

/-- After any additions, refused ones among them, every relation is valid and what it refers to is
in the graph, and a refused addition changes nothing. So a first step is read or not found unless
the relation to it has no target, and candidates are read unless one of the relations to them has
none. -/
theorem integrity (additions : List Addition) :
    let graph := empty.enterAll additions
    (∀ addition f next, enter addition graph = (.error f, next) → next = graph) ∧
      (∀ relation ∈ graph.relations,
        (∃ id, relation.problem = some id ∧ graph.problems.contains id = true) ∧
          (∀ id : Int, some id ∈ [relation.source, relation.target] →
            graph.steps.contains (relation.problem, some id) = true) ∧
          relation.type.any relationTypes.contains = true ∧
          (relation.type ≠ some firstRelation → relation.source ≠ none) ∧
          (relation.type = some guardedRelation → isUnstated relation.condition = false)) ∧
      (∀ problem,
        (graph.opening? problem = none ∧
          ∃ f, graph.firstStep problem = .error f ∧ f.kind = .notFound) ∨
        ∃ relation, graph.opening? problem = some relation ∧ (relation.target ≠ none →
          ∃ step, graph.firstStep problem = .ok step ∧ step.key = (problem, relation.target))) ∧
      ∀ problem id, (∀ relation ∈ graph.relationsFrom problem id, relation.target ≠ none) →
        ∃ candidates, graph.candidates problem id = .ok candidates := by
  intro graph
  have h : Built graph := Built.empty.enterAll additions
  refine ⟨fun _ _ _ => enter_error, fun relation hr => ?_, fun problem => ?_,
    fun _ _ => h.candidates⟩
  · obtain ⟨hv, hp, he⟩ := h.admits relation hr
    obtain ⟨htype, hsource, hcondition⟩ := Relation.defects_eq_nil_iff.1 hv
    refine ⟨hp, he, htype, fun hn => ?_, hcondition⟩
    exact Option.isSome_iff_ne_none.1 (hsource.resolve_left hn)
  · rcases ho : graph.opening? problem with _ | relation
    · exact .inl ⟨rfl, _, firstStep_of_opening? ho, rfl⟩
    · exact .inr ⟨relation, rfl, fun ht => h.firstStep ho ht⟩

/-- Additions of which the last two are refused: a relation to a step that is not there, and one
without a condition. -/
theorem integrity_refunds :
    let additions : List Addition :=
      [.problem ⟨some "refund", some "refund", none, true⟩, .step refunds.lookup,
        .relation ⟨some "refund", none, some 1, some firstRelation, none⟩,
        .relation ⟨some "refund", some 1, some 1, some defaultRelation, none⟩,
        .relation ⟨some "refund", some 1, some 2, some defaultRelation, none⟩,
        .relation ⟨some "refund", some 1, some 1, some guardedRelation, some " "⟩]
    let graph := empty.enterAll additions
    graph.relations.length = 2 ∧
      (∃ step, graph.firstStep (some "refund") = .ok step ∧ step.key = (some "refund", some 1)) ∧
      (∃ f, graph.firstStep (some "return") = .error f ∧ f.kind = .notFound) ∧
      ∃ candidates, graph.candidates (some "refund") (some 1) = .ok candidates := by
  intro additions graph
  obtain ⟨-, -, hf, hc⟩ := integrity additions
  have hrelations : graph.relations = [⟨some "refund", none, some 1, some firstRelation, none⟩,
      ⟨some "refund", some 1, some 1, some defaultRelation, none⟩] := by decide +kernel
  have hopening (problem : Option String) : graph.opening? problem =
      if some "refund" = problem then some ⟨some "refund", none, some 1, some firstRelation, none⟩
      else none := by
    unfold opening?
    rw [hrelations]
    split_ifs with hp <;> simp [hp, firstRelation, defaultRelation]
  refine ⟨by rw [hrelations]; rfl, ?_, ?_, hc (some "refund") (some 1) ?_⟩
  · obtain ⟨hn, -⟩ | ⟨relation, hr, hs⟩ := hf (some "refund")
    · rw [hopening, if_pos rfl] at hn
      cases hn
    · rw [hopening, if_pos rfl] at hr
      cases hr
      exact hs (by decide)
  · obtain ⟨-, hn⟩ | ⟨relation, hr, -⟩ := hf (some "return")
    · exact hn
    · rw [hopening, if_neg (by decide)] at hr
      cases hr
  · intro relation hr
    rw [relationsFrom, hrelations] at hr
    revert relation
    decide

/-- Relations without a target are admitted, and reads that come to them fail in a way of their
own. -/
theorem targetless_admitted :
    let additions : List Addition :=
      [.problem ⟨some "refund", some "refund", none, true⟩, .step refunds.lookup,
        .relation ⟨some "refund", none, none, some firstRelation, none⟩,
        .relation ⟨some "refund", some 1, none, some defaultRelation, none⟩]
    let graph := empty.enterAll additions
    graph.relations.length = 2 ∧
      (∀ relation ∈ graph.relations,
        graph.steps.contains (relation.problem, relation.target) = false) ∧
      (∃ f, graph.firstStep (some "refund") = .error f ∧ f.kind = .missingEntry) ∧
      ∃ f, graph.candidates (some "refund") (some 1) = .error f ∧ f.kind = .missingEntry :=
  ⟨rfl, by decide, ⟨_, rfl, rfl⟩, ⟨_, rfl, rfl⟩⟩

end LocalGraph

end Playbook
