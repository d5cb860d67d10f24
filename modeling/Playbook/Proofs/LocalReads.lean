import Mathlib.Data.List.Basic
import Playbook.Graph.Local
import Playbook.Proofs.Reason

/-!
# What a local graph answers

The candidates of a step are those of the relations from it, each with the step it leads to. They
can be read unless a relation leads nowhere, so in a complete graph a read fails only for want of a
first step.
-/

namespace Playbook

theorem mapM_ok_of_mem {α β ε : Type} {f : α → Except ε β} :
    ∀ {as : List α} {bs : List β}, as.mapM f = .ok bs → ∀ a ∈ as, ∃ b ∈ bs, f a = .ok b
  | [], _, _, _, ha => absurd ha List.not_mem_nil
  | a :: as, bs, h, a', ha => by
    rw [List.mapM_cons] at h
    rcases hf : f a with e | b <;> rw [hf] at h
    · cases h
    rcases hr : as.mapM f with e | bs' <;> rw [hr] at h <;> cases h
    rcases List.mem_cons.1 ha with rfl | ha
    · exact ⟨b, List.mem_cons_self, hf⟩
    · obtain ⟨b', hb, hf'⟩ := mapM_ok_of_mem hr a' ha
      exact ⟨b', List.mem_cons_of_mem _ hb, hf'⟩

theorem mem_of_mapM_ok {α β ε : Type} {f : α → Except ε β} :
    ∀ {as : List α} {bs : List β}, as.mapM f = .ok bs → ∀ b ∈ bs, ∃ a ∈ as, f a = .ok b
  | [], _, h, _, hb => by
    cases h
    exact absurd hb List.not_mem_nil
  | a :: as, bs, h, b', hb => by
    rw [List.mapM_cons] at h
    rcases hf : f a with e | b <;> rw [hf] at h
    · cases h
    rcases hr : as.mapM f with e | bs' <;> rw [hr] at h <;> cases h
    rcases List.mem_cons.1 hb with rfl | hb
    · exact ⟨a, List.mem_cons_self, hf⟩
    · obtain ⟨a', ha, hf'⟩ := mem_of_mapM_ok hr b' hb
      exact ⟨a', List.mem_cons_of_mem _ ha, hf'⟩

theorem mapM_error {α β ε : Type} {f : α → Except ε β} {e : ε} :
    ∀ {as : List α}, as.mapM f = .error e → ∃ a ∈ as, f a = .error e
  | [], h => by cases h
  | a :: as, h => by
    rw [List.mapM_cons] at h
    rcases hf : f a with e' | b <;> rw [hf] at h
    · cases h
      exact ⟨a, List.mem_cons_self, hf⟩
    rcases hr : as.mapM f with e' | bs <;> rw [hr] at h <;> cases h
    obtain ⟨a', ha, hf'⟩ := mapM_error hr
    exact ⟨a', List.mem_cons_of_mem _ ha, hf'⟩

namespace LocalGraph

variable {graph : LocalGraph} {problem : Option String} {id : Option Int}

/-- Every relation leads to a step of the graph. -/
def Complete (graph : LocalGraph) : Prop :=
  ∀ relation ∈ graph.relations, graph.steps.contains (relation.problem, relation.target) = true

instance (graph : LocalGraph) : Decidable graph.Complete :=
  inferInstanceAs (Decidable (∀ relation ∈ graph.relations, _))

/-- The step stands in the graph. -/
def Holds (graph : LocalGraph) (step : Step) : Prop :=
  graph.steps.get? step.key = some step

/-- The numbers of all steps of the graph can be written. -/
def Writable (graph : LocalGraph) : Prop :=
  ∀ step, graph.Holds step → step.Writable

theorem writable_of_le
    (h : ∀ e ∈ graph.steps.entries, (e.2.id.getD 0).natAbs ≤ Text.digitLimit) : graph.Writable :=
  fun step hs => Step.writable_of_le (h (step.key, step) (OrderedMap.get?_eq_some_iff.1 hs))

theorem Holds.eq {a b : Step} (ha : graph.Holds a) (hb : graph.Holds b) (h : a.key = b.key) :
    a = b := by
  unfold Holds at ha hb
  rw [h, hb] at ha
  exact (Option.some.inj ha).symm

theorem step_eq_ok_iff {key : StepKey} {step : Step} :
    graph.step key = .ok step ↔ graph.steps.get? key = some step := by
  unfold LocalGraph.step
  rcases graph.steps.get? key with _ | s <;> simp

theorem step_error {key : StepKey} {f : Fault} (h : graph.step key = .error f) :
    graph.steps.contains key = false ∧ f.kind = .missingEntry := by
  unfold LocalGraph.step at h
  unfold OrderedMap.contains
  rcases hs : graph.steps.get? key with _ | s <;> rw [hs] at h <;> cases h
  exact ⟨rfl, rfl⟩

theorem key_of_get? {key : StepKey} {step : Step} (h : graph.steps.get? key = some step) :
    step.key = key :=
  graph.stepsByKey.get? h

theorem holds_of_get? {key : StepKey} {step : Step} (h : graph.steps.get? key = some step) :
    graph.Holds step := by
  unfold Holds
  rwa [key_of_get? h]

theorem mem_relationsFrom {relation : Relation} :
    relation ∈ graph.relationsFrom problem id ↔ relation ∈ graph.relations ∧
      relation.problem = problem ∧ relation.source = id ∧ relation.isNext = true := by
  simp [relationsFrom, and_assoc]

theorem candidate_eq_ok_iff {relation : Relation} {candidate : Candidate} :
    graph.candidate relation = .ok candidate ↔
      graph.steps.get? (relation.problem, relation.target) = some candidate.step ∧
        candidate.type = relation.type ∧ candidate.condition = relation.condition := by
  obtain ⟨type, condition, step⟩ := candidate
  rw [← step_eq_ok_iff]
  unfold LocalGraph.candidate
  rcases graph.step (relation.problem, relation.target) with f | s
  · simp [bind, Except.bind]
  · simp only [bind, Except.bind, pure, Except.pure, Except.ok.injEq, Candidate.mk.injEq]
    exact ⟨fun ⟨ht, hc, hs⟩ => ⟨hs, ht.symm, hc.symm⟩,
      fun ⟨hs, ht, hc⟩ => ⟨ht.symm, hc.symm, hs⟩⟩

theorem candidate_error {relation : Relation} {f : Fault}
    (h : graph.candidate relation = .error f) :
    graph.steps.contains (relation.problem, relation.target) = false ∧
      f.kind = .missingEntry := by
  unfold LocalGraph.candidate at h
  rcases hs : graph.step (relation.problem, relation.target) with f' | s <;> rw [hs] at h <;>
    cases h
  exact step_error hs

theorem candidates_nil_iff {candidates : List Candidate}
    (h : graph.candidates problem id = .ok candidates) :
    candidates = [] ↔ graph.relationsFrom problem id = [] := by
  constructor
  · rintro rfl
    refine List.eq_nil_iff_forall_not_mem.2 fun r hr => ?_
    obtain ⟨c, hc, -⟩ := mapM_ok_of_mem h r hr
    exact absurd hc List.not_mem_nil
  · intro hn
    refine List.eq_nil_iff_forall_not_mem.2 fun c hc => ?_
    obtain ⟨r, hr, -⟩ := mem_of_mapM_ok h c hc
    exact absurd (hn ▸ hr) List.not_mem_nil

theorem candidates_error {f : Fault} (h : graph.candidates problem id = .error f) :
    (∃ relation ∈ graph.relations,
      graph.steps.contains (relation.problem, relation.target) = false) ∧
        f.kind = .missingEntry := by
  obtain ⟨r, hr, hf⟩ := mapM_error h
  obtain ⟨hs, hk⟩ := candidate_error hf
  exact ⟨⟨r, (mem_relationsFrom.1 hr).1, hs⟩, hk⟩

theorem Complete.candidates (hg : graph.Complete) (problem : Option String) (id : Option Int) :
    ∃ candidates, graph.candidates problem id = .ok candidates := by
  rcases hc : graph.candidates problem id with f | candidates
  · obtain ⟨⟨r, hr, hs⟩, -⟩ := candidates_error hc
    simp [hg r hr] at hs
  · exact ⟨candidates, rfl⟩

theorem firstStep_error {f : Fault} (h : graph.firstStep problem = .error f) :
    f.kind = .notFound ∨ (∃ relation ∈ graph.relations,
      graph.steps.contains (relation.problem, relation.target) = false) ∧
        f.kind = .missingEntry := by
  unfold LocalGraph.firstStep at h
  split at h
  · rename_i r hr
    obtain ⟨hs, hk⟩ := step_error h
    have hp := List.find?_some hr
    simp only [Bool.and_eq_true, decide_eq_true_eq] at hp
    exact .inr ⟨⟨r, List.mem_of_find?_eq_some hr, by rw [hp.1]; exact hs⟩, hk⟩
  · cases h
    exact .inl rfl

theorem holds_of_firstStep {first : Step} (h : graph.firstStep problem = .ok first) :
    graph.Holds first ∧ first.problem = problem := by
  unfold LocalGraph.firstStep at h
  split at h
  · have hs := step_eq_ok_iff.1 h
    exact ⟨holds_of_get? hs, congrArg Prod.fst (key_of_get? hs)⟩
  · cases h

/-- The reads of a local graph fail for want of a first step or of the step that a relation leads
to. -/
theorem source_failsOnly (graph : LocalGraph) :
    graph.source.FailsOnly [.notFound, .missingEntry] where
  firstStep h := by
    rcases firstStep_error (Prod.mk.inj h).1 with hk | ⟨-, hk⟩ <;> simp [hk]
  candidates h := by simp [(candidates_error (Prod.mk.inj h).1).2]

theorem Complete.source_failsOnly (hg : graph.Complete) {kinds : List Kind}
    (hk : Kind.notFound ∈ kinds) : graph.source.FailsOnly kinds where
  firstStep h := by
    rcases firstStep_error (Prod.mk.inj h).1 with hf | ⟨⟨r, hr, hs⟩, -⟩
    · rwa [hf]
    · simp [hg r hr] at hs
  candidates {problem step _ _ _} h := by
    obtain ⟨candidates, hc⟩ := hg.candidates problem step
    simp [source, hc] at h

/-- A small playbook for instances of what follows: the lookup of an amount repeats itself until
the amount is large or small, and the reply to a large one is followed by the lookup again. -/
def refunds : LocalGraph :=
  { ((empty.addStep lookup).addStep paid).addStep nothing with
    problems := OrderedMap.empty.insert "refund" ⟨some "refund", some "refund", none, true⟩
    problemsById := (OrderedMap.every_empty _).insert rfl
    relations :=
      [⟨some "refund", none, some 1, some firstRelation, none⟩,
        ⟨some "refund", some 1, some 2, some guardedRelation, some "amount > 100"⟩,
        ⟨some "refund", some 1, some 3, some guardedRelation, some "amount < 1"⟩,
        ⟨some "refund", some 1, some 1, some defaultRelation, none⟩,
        ⟨some "refund", some 2, some 1, some defaultRelation, none⟩] }
where
  lookup : Step := ⟨some "refund", some 1, some queryOperation, none, some "orders",
    some "amount", some "WHERE id = {id}", none⟩
  paid : Step := ⟨some "refund", some 2, some replyOperation, none, none, none, none,
    some "{amount}"⟩
  nothing : Step := ⟨some "refund", some 3, some replyOperation, none, none, none, none,
    some "nothing due"⟩

end LocalGraph

end Playbook
