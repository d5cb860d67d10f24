import Playbook.Proofs.Built
import Playbook.Proofs.Lockstep

/-!
# Relations that are never followed

Relations are tried in the order in which they were added, and the first that applies is followed.
So a relation that comes after its equal, after a default one from the same step, or after another
one to a first step of its problem is dead: no run is changed by adding it (`run_addRelation`).
-/

namespace Playbook

variable {τ : Type}

theorem find?_concat {α : Type} {p : α → Bool} {earlier : List α} {last : α}
    (h : p last = true → ∃ a ∈ earlier, p a = true) :
    (earlier ++ [last]).find? p = earlier.find? p := by
  rw [List.find?_append]
  rcases he : earlier.find? p with _ | a
  · have hlast : ¬ p last = true := fun hp => by
      obtain ⟨a, ha, hpa⟩ := h hp
      exact List.find?_eq_none.1 he a ha hpa
    simp [hlast]
  · rfl

namespace LocalGraph

/-- A relation that would never be the first to apply in a graph. -/
inductive Dead (graph : LocalGraph) (relation : Relation) : Prop where
  | repeated (stored : relation ∈ graph.relations)
  | behindDefault {before : Relation} (stored : before ∈ graph.relations)
      (problem : before.problem = relation.problem) (source : before.source = relation.source)
      (type : before.type = some defaultRelation) (next : relation.isNext = true)
  | behindFirst {before : Relation} (stored : before ∈ graph.relations)
      (problem : before.problem = relation.problem) (type : before.type = some firstRelation)
      (first : relation.type = some firstRelation)

variable {graph graph' : LocalGraph} {relation : Relation}

theorem not_isNext_of_first (h : relation.type = some firstRelation) : relation.isNext = false := by
  simp [Relation.isNext, h, firstRelation, defaultRelation, guardedRelation]

theorem isNext_of_default (h : relation.type = some defaultRelation) : relation.isNext = true := by
  simp [Relation.isNext, h]

section Candidates

variable {problem : Option String} {id : Option Int}
  (hr : relation.problem = problem ∧ relation.source = id ∧ relation.isNext = true)
include hr

theorem Dead.before (hd : graph.Dead relation) : ∃ before ∈ graph.relationsFrom problem id,
    before = relation ∨ before.type = some defaultRelation := by
  cases hd with
  | repeated stored => exact ⟨relation, mem_relationsFrom.2 ⟨stored, hr⟩, .inl rfl⟩
  | @behindDefault before stored hp hs type =>
    refine ⟨before, mem_relationsFrom.2 ⟨stored, hp.trans hr.1, hs.trans hr.2.1, ?_⟩, .inr type⟩
    exact isNext_of_default type
  | behindFirst _ _ _ first => simp [not_isNext_of_first first] at hr

/-- Whenever the candidate of a dead relation applies, so does one of those before it. -/
theorem Dead.covered (hd : graph.Dead relation) {candidates : List Candidate}
    {candidate : Candidate} (hc : graph.candidates problem id = .ok candidates)
    (he : graph.candidate relation = .ok candidate) : ∃ c ∈ candidates,
      ∀ context, candidate.applies context = true → c.applies context = true := by
  obtain ⟨before, hb, h⟩ := hd.before hr
  obtain ⟨c, hm, hcb⟩ := mapM_ok_of_mem hc before hb
  refine ⟨c, hm, fun context ha => ?_⟩
  rcases h with rfl | htype
  · cases hcb.symm.trans he
    exact ha
  · have htype : c.type = some defaultRelation := (candidate_eq_ok_iff.1 hcb).2.1.trans htype
    exact Candidate.applies_iff.2 (.inl htype)

end Candidates

section Added

variable (hadd : graph.addRelation relation = .ok graph')
include hadd

theorem candidate_addRelation : graph'.candidate = graph.candidate := by
  obtain ⟨hs, -, -⟩ := addRelation_frame hadd
  funext r
  simp only [candidate, LocalGraph.step, hs]

theorem candidate_of_addRelation (ht : relation.target.isSome = true) :
    ∃ candidate, graph.candidate relation = .ok candidate := by
  obtain ⟨-, -, hm⟩ := addRelation_frame hadd
  obtain ⟨id, hid⟩ := Option.isSome_iff_exists.1 ht
  have hc : graph.steps.contains (relation.problem, some id) = true :=
    contains_of_missingEnd hm (by simp [hid])
  rw [← hid] at hc
  rcases he : graph.candidate relation with f | candidate
  · simp [(candidate_error he).1] at hc
  · exact ⟨candidate, rfl⟩

/-- An added relation is tried last, and only from its own step. -/
theorem candidates_addRelation {candidate : Candidate}
    (he : graph.candidate relation = .ok candidate) (problem : Option String) (id : Option Int) :
    graph'.candidates problem id = graph.candidates problem id ∨
      (relation.problem = problem ∧ relation.source = id ∧ relation.isNext = true) ∧
        graph'.candidates problem id = (graph.candidates problem id).map (· ++ [candidate]) := by
  obtain ⟨-, hr, -⟩ := addRelation_frame hadd
  have hf : graph'.relationsFrom problem id = graph.relationsFrom problem id ++
      [relation].filter fun r => r.problem = problem && r.source = id && r.isNext := by
    rw [relationsFrom, hr, List.filter_append, relationsFrom]
  unfold candidates
  rw [hf, candidate_addRelation hadd]
  by_cases hm : relation.problem = problem ∧ relation.source = id ∧ relation.isNext = true
  · refine .inr ⟨hm, ?_⟩
    have hlast : [relation].mapM graph.candidate = .ok [candidate] := by
      simp [he, bind, Except.bind, pure, Except.pure]
    rw [List.filter_cons_of_pos (by simp [hm]), List.filter_nil, List.mapM_append, hlast]
    rcases (graph.relationsFrom problem id).mapM graph.candidate with f | candidates <;> rfl
  · refine .inl ?_
    rw [List.filter_cons_of_neg (by simpa [and_assoc] using hm), List.filter_nil, List.append_nil]

variable (hd : graph.Dead relation)
include hd

theorem firstStep_addRelation (problem : Option String) :
    graph'.firstStep problem = graph.firstStep problem := by
  obtain ⟨hs, hr, -⟩ := addRelation_frame hadd
  have hfind : graph'.relations.find?
      (fun r => r.problem = problem && r.type = some firstRelation) =
        graph.relations.find? fun r => r.problem = problem && r.type = some firstRelation := by
    rw [hr]
    refine find?_concat fun h => ?_
    simp only [Bool.and_eq_true, decide_eq_true_eq] at h ⊢
    cases hd with
    | repeated stored => exact ⟨relation, stored, h⟩
    | behindDefault _ _ _ _ next => simp [not_isNext_of_first h.2] at next
    | @behindFirst before stored hp type => exact ⟨before, stored, hp.trans h.1, type⟩
  simp only [LocalGraph.firstStep, hfind, LocalGraph.step, hs]

open Traversal in
theorem next_addRelation (ht : relation.target.isSome = true) (problem : Option String)
    (step : Step) (context : Context) :
    next graph'.source problem step context = next graph.source problem step context := by
  obtain ⟨candidate, he⟩ := candidate_of_addRelation hadd ht
  funext g
  simp only [next, source]
  rcases candidates_addRelation hadd he problem step.id with hsame | ⟨hr, hmore⟩
  · rw [hsame]
  rw [hmore]
  rcases hc : graph.candidates problem step.id with f | candidates
  · rfl
  obtain ⟨c, hm, hcovers⟩ := hd.covered hr hc he
  have hempty : candidates.isEmpty = false := by simpa using List.ne_nil_of_mem hm
  have hempty' : (candidates ++ [candidate]).isEmpty = false := by simp
  have hselect : Candidate.select (candidates ++ [candidate]) context =
      Candidate.select candidates context := find?_concat fun h => ⟨c, hm, hcovers context h⟩
  simp only [Except.map, follow, hempty, hempty', hselect]

end Added

end LocalGraph

/-- Adding a relation that leads to a step and is dead changes no run, of any problem, with any
service and any limit. -/
theorem Traversal.run_addRelation {graph graph' : LocalGraph} {relation : Relation}
    (hadd : graph.addRelation relation = .ok graph') (ht : relation.target.isSome = true)
    (hd : graph.Dead relation) (lookup : LookupSource τ) (limit : Nat) (problem : Option String)
    (data : OrderedMap String Datum) (world : Unit × τ) :
    run ⟨graph'.source, lookup⟩ limit problem data world =
      run ⟨graph.source, lookup⟩ limit problem data world := by
  have hf : graph'.source.firstStep problem = graph.source.firstStep problem := by
    funext g
    simp only [LocalGraph.source, LocalGraph.firstStep_addRelation hadd hd]
  exact run_congr (LocalGraph.next_addRelation hadd hd ht problem) hf lookup limit data world

/-- A branch for all amounts after the default one, a default one after its equal, and another first
step. -/
theorem Traversal.run_addRelation_refunds :
    let graph := LocalGraph.refunds
    let branch : Relation := ⟨some "refund", some 1, some 2, some guardedRelation, some "1 > 0"⟩
    let again : Relation := ⟨some "refund", some 2, some 1, some defaultRelation, none⟩
    let first : Relation := ⟨some "refund", none, some 3, some firstRelation, none⟩
    let systems : SqlSystems := .ofRegistered (.ofEntries [("shop", .address "sqlite://shop")])
      none true (.ofEntries [("sqlite://shop", .ofEntries
        [("SELECT amount FROM orders WHERE id = 7", .row (some [.int 50]))])])
    let result (graph : LocalGraph) := run ⟨graph.source, systems.source⟩ 4 (some "refund")
      (.ofEntries [("id", .int 7)]) ((), .fresh)
    ∀ relation ∈ [branch, again, first],
      let more : LocalGraph := { graph with relations := graph.relations ++ [relation] }
      graph.addRelation relation = .ok more ∧ relation.target.isSome = true ∧
        graph.Dead relation ∧ result more = result graph := by
  intro graph branch again first systems result relation hr more
  have hbranch : graph.Dead branch := @LocalGraph.Dead.behindDefault _ _
    ⟨some "refund", some 1, some 1, some defaultRelation, none⟩ (by decide) rfl rfl rfl rfl
  have hagain : graph.Dead again := .repeated (by decide)
  have hfirst : graph.Dead first := @LocalGraph.Dead.behindFirst _ _
    ⟨some "refund", none, some 1, some firstRelation, none⟩ (by decide) rfl rfl rfl
  have hd : graph.Dead relation := by
    simp only [List.mem_cons, List.not_mem_nil, or_false] at hr
    rcases hr with rfl | rfl | rfl
    · exact hbranch
    · exact hagain
    · exact hfirst
  obtain ⟨hadd, ht⟩ : graph.addRelation relation = .ok more ∧ relation.target.isSome = true := by
    clear hd
    revert relation
    decide +kernel
  exact ⟨hadd, ht, hd, run_addRelation hadd ht hd systems.source 4 _ _ _⟩

end Playbook
