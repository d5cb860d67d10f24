import Playbook.Audit
import Playbook.Proofs.Integrity
import Playbook.Proofs.Lockstep

/-!
# Graphs that agree on a problem

What is read of a problem is its steps, its first relation to a first step and the relations from
each of its steps to the next. Graphs that agree on these (`LocalGraph.AgreeOn`) have the same first
step and the same candidates for it, so that it is audited and walked in the same way. Additions to
other problems leave a graph in agreement with what it was, whether they are accepted or refused
(`LocalGraph.additions_elsewhere`).
-/

namespace Playbook

variable {σ τ : Type}

theorem mapM_congr {α β ε : Type} {f g : α → Except ε β} :
    ∀ {as : List α}, (∀ a ∈ as, f a = g a) → as.mapM f = as.mapM g
  | [], _ => rfl
  | a :: as, h => by
    rw [List.forall_mem_cons] at h
    rw [List.mapM_cons, List.mapM_cons, h.1, mapM_congr h.2]

section Congr

variable {graph graph' : GraphSource σ} {problem : Option String}
  (hc : ∀ id, graph.candidates problem id = graph'.candidates problem id)
include hc

theorem Traversal.next_congr (step : Step) (context : Context) :
    next graph problem step context = next graph' problem step context := by
  funext s
  simp only [next, hc]

namespace Audit

theorem visitLevel_congr (level : List Step) (findings : Findings) (following : List Step) (s : σ) :
    visitLevel graph problem level findings following s =
      visitLevel graph' problem level findings following s := by
  induction level generalizing findings following s with
  | nil => rfl
  | cons step rest ih =>
    simp only [visitLevel, hc]
    rcases graph'.candidates problem step.id s with ⟨f | candidates, s'⟩
    · rfl
    · dsimp only
      rcases visitStep step candidates findings following with f | found
      · rfl
      · exact ih found.1 found.2 s'

theorem visitLevels_congr (depth : Nat) (level : List Step) (findings : Findings) (s : σ) :
    visitLevels graph problem depth level findings s =
      visitLevels graph' problem depth level findings s := by
  induction depth generalizing level findings s with
  | zero => simp only [visitLevels, visitLevel_congr hc]
  | succ depth ih =>
    simp only [visitLevels, visitLevel_congr hc]
    rcases visitLevel graph' problem level findings [] s with ⟨f | ⟨found, _ | ⟨step, rest⟩⟩, s'⟩
    · rfl
    · rfl
    · exact ih _ found s'

end Audit

end Congr

/-- Playbooks with the same first step and the same candidates for a problem are not told apart by
its audit. -/
theorem Audit.problem_congr {graph graph' : GraphSource σ} {p : Problem}
    (hf : graph.firstStep p.id = graph'.firstStep p.id)
    (hc : ∀ id, graph.candidates p.id id = graph'.candidates p.id id) (depth : Nat) :
    Audit.problem graph depth p = Audit.problem graph' depth p := by
  funext s
  simp only [Audit.problem, hf, visitLevels_congr hc]

/-- The problem that an addition is for. -/
def Addition.problem? : Addition → Option String
  | .problem p => p.id
  | .step s => s.problem
  | .relation r => r.problem

namespace LocalGraph

variable {graph graph' graph'' : LocalGraph} {problem : Option String}

/-- Two graphs have the same steps of a problem, the same relation to its first step, and the same
relations from its steps in the same order. -/
structure AgreeOn (problem : Option String) (graph graph' : LocalGraph) : Prop where
  steps (id : Option Int) : graph.steps.get? (problem, id) = graph'.steps.get? (problem, id)
  opening : graph.opening? problem = graph'.opening? problem
  relations (id : Option Int) : graph.relationsFrom problem id = graph'.relationsFrom problem id

namespace AgreeOn

theorem refl (problem : Option String) (graph : LocalGraph) : AgreeOn problem graph graph :=
  ⟨fun _ => rfl, rfl, fun _ => rfl⟩

theorem trans (h : AgreeOn problem graph graph') (h' : AgreeOn problem graph' graph'') :
    AgreeOn problem graph graph'' :=
  ⟨fun id => (h.steps id).trans (h'.steps id), h.opening.trans h'.opening,
    fun id => (h.relations id).trans (h'.relations id)⟩

variable (h : AgreeOn problem graph graph')
include h

theorem step (id : Option Int) : graph.step (problem, id) = graph'.step (problem, id) := by
  simp only [LocalGraph.step, h.steps]

theorem firstStep : graph.firstStep problem = graph'.firstStep problem := by
  have ho := h.opening
  unfold opening? at ho
  simp only [LocalGraph.firstStep, ho, h.step]

theorem candidates (id : Option Int) :
    graph.candidates problem id = graph'.candidates problem id := by
  have hcandidate : ∀ relation ∈ graph'.relationsFrom problem id,
      graph.candidate relation = graph'.candidate relation := fun relation hr => by
    obtain ⟨-, rfl, -⟩ := mem_relationsFrom.1 hr
    simp only [candidate, h.step]
  unfold LocalGraph.candidates
  rw [h.relations, mapM_congr hcandidate]

theorem source_firstStep : graph.source.firstStep problem = graph'.source.firstStep problem := by
  funext s
  simp only [source, h.firstStep]

theorem source_candidates (id : Option Int) :
    graph.source.candidates problem id = graph'.source.candidates problem id := by
  funext s
  simp only [source, h.candidates]

theorem report {p : Problem} (hp : p.id = problem) (depth : Nat) :
    Audit.problem graph.source depth p = Audit.problem graph'.source depth p := by
  subst hp
  exact Audit.problem_congr h.source_firstStep h.source_candidates depth

theorem run (lookup : LookupSource τ) (limit : Nat) (data : OrderedMap String Datum)
    (world : Unit × τ) : Traversal.run ⟨graph.source, lookup⟩ limit problem data world =
      Traversal.run ⟨graph'.source, lookup⟩ limit problem data world :=
  Traversal.run_congr (Traversal.next_congr h.source_candidates) h.source_firstStep lookup limit
    data world

end AgreeOn

section Elsewhere

theorem agreeOn_addProblem {p : Problem} (h : graph.addProblem p = .ok graph') :
    AgreeOn problem graph graph' := by
  obtain ⟨hs, hr⟩ := addProblem_frame h
  exact ⟨fun _ => by rw [hs], by simp only [opening?, hr],
    fun _ => by simp only [relationsFrom, hr]⟩

theorem agreeOn_addStep {step : Step} (hne : step.problem ≠ problem) :
    AgreeOn problem graph (graph.addStep step) where
  steps id := by
    have hkey : (problem, id) ≠ step.key := fun he => hne (congrArg Prod.fst he).symm
    rw [addStep, OrderedMap.get?_insert, if_neg hkey]
  opening := rfl
  relations _ := rfl

theorem agreeOn_addRelation {relation : Relation} (hne : relation.problem ≠ problem)
    (h : graph.addRelation relation = .ok graph') : AgreeOn problem graph graph' := by
  obtain ⟨hs, hr, -⟩ := addRelation_frame h
  refine ⟨fun _ => by rw [hs], ?_, fun id => ?_⟩
  · simp [opening?, hr, hne]
  · simp [relationsFrom, hr, hne]

/-- One addition to another problem, accepted or refused. -/
theorem agreeOn_enter {addition : Addition} (hne : addition.problem? ≠ problem) :
    AgreeOn problem graph (enter addition graph).2 := by
  unfold enter
  rcases ha : graph.add addition with f | next
  -- A refused addition leaves the graph as it is.
  · exact .refl problem graph
  · cases addition with
    | problem p => exact agreeOn_addProblem ha
    | step step =>
      cases ha
      exact agreeOn_addStep hne
    | relation relation => exact agreeOn_addRelation hne ha

theorem agreeOn_enterAll {additions : List Addition}
    (hne : ∀ addition ∈ additions, addition.problem? ≠ problem) :
    AgreeOn problem graph (graph.enterAll additions) := by
  induction additions generalizing graph with
  | nil => exact .refl problem graph
  | cons addition rest ih =>
    rw [List.forall_mem_cons] at hne
    exact (agreeOn_enter hne.1).trans (ih hne.2)

theorem problems_enter {id : String} {addition : Addition} (hne : addition.problem? ≠ some id) :
    (enter addition graph).2.problems.get? id = graph.problems.get? id := by
  unfold enter
  rcases ha : graph.add addition with f | next
  · rfl
  cases addition with
  | problem p =>
    simp only [add, addProblem] at ha
    split at ha
    · rename_i other ho
      split_ifs at ha
      cases ha
      have hother : id ≠ other := fun he => hne (he ▸ ho)
      rw [OrderedMap.get?_insert, if_neg hother]
    · cases ha
  | step step =>
    cases ha
    rfl
  | relation relation =>
    change next.problems.get? id = _
    rw [problems_of_addRelation ha]

theorem problems_enterAll {id : String} {additions : List Addition}
    (hne : ∀ addition ∈ additions, addition.problem? ≠ some id) :
    (graph.enterAll additions).problems.get? id = graph.problems.get? id := by
  induction additions generalizing graph with
  | nil => rfl
  | cons addition rest ih =>
    rw [List.forall_mem_cons] at hne
    exact (ih hne.2).trans (problems_enter hne.1)

/-- Whatever is added to other problems, accepted or refused, a problem stays as it is, and so do
its first step, its candidates, its audits and its runs. -/
theorem additions_elsewhere (graph : LocalGraph) {id : String} {additions : List Addition}
    (hne : ∀ addition ∈ additions, addition.problem? ≠ some id) :
    let after := graph.enterAll additions
    after.problems.get? id = graph.problems.get? id ∧
      after.firstStep (some id) = graph.firstStep (some id) ∧
      (∀ step, after.candidates (some id) step = graph.candidates (some id) step) ∧
      (∀ (depth : Nat) (problem : Problem), problem.id = some id →
        Audit.problem after.source depth problem () =
          Audit.problem graph.source depth problem ()) ∧
      ∀ (τ : Type) (lookup : LookupSource τ) (limit : Nat) (data : OrderedMap String Datum)
        (world : Unit × τ), Traversal.run ⟨after.source, lookup⟩ limit (some id) data world =
          Traversal.run ⟨graph.source, lookup⟩ limit (some id) data world := by
  intro after
  have h : AgreeOn (some id) graph after := agreeOn_enterAll hne
  refine ⟨problems_enterAll hne, h.firstStep.symm, fun step => (h.candidates step).symm, ?_, ?_⟩
  · intro depth problem hid
    rw [h.report hid depth]
  · intro τ lookup limit data world
    exact (h.run lookup limit data world).symm

/-- Additions to another problem with the same numbers of steps, the last of them refused. -/
theorem additions_elsewhere_refunds :
    let additions : List Addition :=
      [.problem ⟨some "return", some "return", none, true⟩,
        .step { refunds.paid with problem := some "return", id := some 1 },
        .relation ⟨some "return", none, some 1, some firstRelation, none⟩,
        .relation ⟨some "return", some 1, some 1, some defaultRelation, none⟩,
        .relation ⟨some "return", some 2, some 1, some defaultRelation, none⟩]
    let after := refunds.enterAll additions
    (∀ addition ∈ additions, addition.problem? ≠ some "refund") ∧
      after.relations.length = refunds.relations.length + 2 ∧
      after.problems.get? "refund" = refunds.problems.get? "refund" ∧
      after.firstStep (some "refund") = refunds.firstStep (some "refund") ∧
      ∀ step, after.candidates (some "refund") step = refunds.candidates (some "refund") step := by
  intro additions after
  have hne : ∀ addition ∈ additions, addition.problem? ≠ some "refund" := by decide
  obtain ⟨hp, hf, hc, -, -⟩ := additions_elsewhere refunds hne
  exact ⟨hne, by decide +kernel, hp, hf, hc⟩

end Elsewhere

end LocalGraph

end Playbook
