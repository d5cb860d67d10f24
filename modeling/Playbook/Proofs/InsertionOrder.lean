import Playbook.Proofs.Agreement

/-!
# The order of additions

Additions with keys of their own may come in any order as long as relations that compete, those of a
problem to first steps and those from one step to the next, come in the same one
(`Additions.SameOrder`). The graphs then hold the same problems and steps, if not in the same order,
and agree on every problem, so that all questions are answered alike
(`LocalGraph.additions_reordered`). Among active problems of a type the least id is found
(`LocalGraph.problemFor_eq_ok_iff`).
-/

namespace Playbook

variable {τ : Type}

namespace OrderedMap

variable {κ α : Type} [DecidableEq κ] {m m' : OrderedMap κ α}

theorem get?_eq_of_perm (h : m.entries.Perm m'.entries) (key : κ) : m.get? key = m'.get? key := by
  ext value
  rw [get?_eq_some_iff, get?_eq_some_iff, h.mem_iff]

end OrderedMap

section Sorted

variable {α : Type}

theorem pairwise_mergeSort_fst (entries : List (String × α)) :
    (entries.mergeSort fun a b => a.1 ≤ b.1).Pairwise fun a b => a.1 ≤ b.1 := by
  refine (List.pairwise_mergeSort ?_ ?_ entries).imp fun h => of_decide_eq_true h
  · intro a b c hab hbc
    exact decide_eq_true (String.le_trans (of_decide_eq_true hab) (of_decide_eq_true hbc))
  · intro a b
    simpa using String.le_total a.1 b.1

/-- Entries with distinct keys are sorted into the same list from any order. -/
theorem mergeSort_fst_eq_of_perm {m m' : OrderedMap String α} (h : m.entries.Perm m'.entries) :
    (m.entries.mergeSort fun a b => a.1 ≤ b.1) = m'.entries.mergeSort fun a b => a.1 ≤ b.1 := by
  have hperm := ((List.mergeSort_perm m.entries fun a b => a.1 ≤ b.1).trans h).trans
    (List.mergeSort_perm m'.entries fun a b => a.1 ≤ b.1).symm
  refine hperm.eq_of_pairwise ?_ (pairwise_mergeSort_fst _) (pairwise_mergeSort_fst _)
  rintro ⟨key, v⟩ ⟨key', v'⟩ hv hv' hle hle'
  obtain rfl : key = key' := String.le_antisymm hle hle'
  -- Entries of one key are one entry, so the order of entries is antisymmetric.
  have hm : (key, v) ∈ m'.entries := h.mem_iff.1 (List.mem_mergeSort.1 hv)
  rw [OrderedMap.eq_of_mem hm (List.mem_mergeSort.1 hv')]

end Sorted

namespace Addition

/-- The id of the problem that an addition adds. -/
def problemId? : Addition → Option String
  | .problem p => p.id
  | _ => none

/-- The key of the step that an addition adds. -/
def stepKey? : Addition → Option StepKey
  | .step s => some s.key
  | _ => none

def relationAdded? : Addition → Option Relation
  | .relation r => some r
  | _ => none

def problemAdded? : Addition → Option (String × Problem)
  | .problem p => p.id.map fun id => (id, p)
  | _ => none

def stepAdded? : Addition → Option (StepKey × Step)
  | .step s => some (s.key, s)
  | _ => none

theorem map_fst_problemAdded (additions : List Addition) :
    (additions.filterMap problemAdded?).map Prod.fst = additions.filterMap problemId? := by
  rw [List.map_filterMap]
  congr 1
  funext addition
  cases addition with
  | problem p => cases h : p.id <;> simp [problemAdded?, problemId?, h]
  | _ => rfl

theorem map_fst_stepAdded (additions : List Addition) :
    (additions.filterMap stepAdded?).map Prod.fst = additions.filterMap stepKey? := by
  rw [List.map_filterMap]
  congr 1
  funext addition
  cases addition <;> rfl

end Addition

namespace Additions

/-- Relations that compete come in the same order: those of a problem to first steps, and those of a
problem from one step to the next. -/
structure SameOrder (additions additions' : List Addition) : Prop where
  firsts (problem : Option String) :
    (additions.filterMap Addition.relationAdded?).filter
        (fun r => r.problem = problem && r.type = some firstRelation) =
      (additions'.filterMap Addition.relationAdded?).filter
        fun r => r.problem = problem && r.type = some firstRelation
  nexts (problem : Option String) (id : Option Int) :
    (additions.filterMap Addition.relationAdded?).filter
        (fun r => r.problem = problem && r.source = id && r.isNext) =
      (additions'.filterMap Addition.relationAdded?).filter
        fun r => r.problem = problem && r.source = id && r.isNext

end Additions

namespace LocalGraph

variable {graph graph' : LocalGraph} {additions additions' : List Addition}

/-- The graph that additions make of the empty one, if all of them are accepted. -/
def ofAdditions (additions : List Addition) : Except Fault LocalGraph :=
  additions.foldlM add empty

section Contents

/-- What an accepted addition adds. -/
theorem add_contents {addition : Addition} (h : graph.add addition = .ok graph') :
    graph'.problems = graph.problems.insertAll addition.problemAdded?.toList ∧
      graph'.steps = graph.steps.insertAll addition.stepAdded?.toList ∧
      graph'.relations = graph.relations ++ addition.relationAdded?.toList := by
  cases addition with
  | problem p =>
    simp only [add, addProblem] at h
    split at h
    · rename_i id hid
      split_ifs at h
      cases h
      refine ⟨?_, rfl, (List.append_nil _).symm⟩
      simp only [Addition.problemAdded?, hid, Option.map_some]
      rfl
    · cases h
  | step s =>
    cases h
    exact ⟨rfl, rfl, (List.append_nil _).symm⟩
  | relation r =>
    obtain ⟨hs, hr, -⟩ := addRelation_frame h
    exact ⟨problems_of_addRelation h, hs, hr⟩

theorem filterMap_cons_toList {α β : Type} (f : α → Option β) (a : α) (as : List α) :
    (a :: as).filterMap f = (f a).toList ++ as.filterMap f := by
  rw [List.filterMap_cons]
  cases f a <;> rfl

theorem foldlM_contents (h : additions.foldlM add graph = .ok graph') :
    graph'.problems = graph.problems.insertAll (additions.filterMap Addition.problemAdded?) ∧
      graph'.steps = graph.steps.insertAll (additions.filterMap Addition.stepAdded?) ∧
      graph'.relations = graph.relations ++ additions.filterMap Addition.relationAdded? := by
  induction additions generalizing graph with
  | nil =>
    cases h
    exact ⟨rfl, rfl, (List.append_nil _).symm⟩
  | cons addition rest ih =>
    rw [List.foldlM_cons] at h
    rcases ha : graph.add addition with f | next <;> rw [ha] at h
    · cases h
    obtain ⟨hp, hs, hr⟩ := add_contents ha
    obtain ⟨hp', hs', hr'⟩ := ih h
    simp only [filterMap_cons_toList, OrderedMap.insertAll_append, ← List.append_assoc, ← hp, ← hs,
      ← hr]
    exact ⟨hp', hs', hr'⟩

variable (h : ofAdditions additions = .ok graph)
include h

theorem relations_ofAdditions : graph.relations = additions.filterMap Addition.relationAdded? :=
  (foldlM_contents h).2.2

theorem problems_ofAdditions (hd : (additions.filterMap Addition.problemId?).Nodup) :
    graph.problems.entries = additions.filterMap Addition.problemAdded? := by
  rw [(foldlM_contents h).1]
  refine OrderedMap.entries_insertAll _ _ ?_
  rw [Addition.map_fst_problemAdded]
  exact hd

theorem steps_ofAdditions (hd : (additions.filterMap Addition.stepKey?).Nodup) :
    graph.steps.entries = additions.filterMap Addition.stepAdded? := by
  rw [(foldlM_contents h).2.1]
  refine OrderedMap.entries_insertAll _ _ ?_
  rw [Addition.map_fst_stepAdded]
  exact hd

end Contents

section Least

variable {type : Option String} {id : String} {problem : Problem}

theorem least_of_problemFor (h : graph.problemFor type = .ok id) :
    (∃ problem, graph.problems.get? id = some problem ∧ problem.type = type ∧
      problem.active = true) ∧
    ∀ other problem, graph.problems.get? other = some problem → problem.type = type →
      problem.active = true → id ≤ other := by
  unfold problemFor at h
  split at h
  swap
  · cases h
  rename_i found hfound
  rw [sortedProblems, List.find?_map, Option.map_eq_some_iff] at hfound
  obtain ⟨⟨key, problem⟩, hfound, rfl⟩ := hfound
  obtain ⟨hq, before, later, he, hbefore⟩ := List.find?_eq_some_iff_append.1 hfound
  have hmem {e : String × Problem} :
      e ∈ graph.problems.entries ↔ e ∈ before ++ (key, problem) :: later := by
    rw [← he, List.mem_mergeSort]
  have hentry : (key, problem) ∈ graph.problems.entries := hmem.2 (by simp)
  have hid : problem.id = some key := graph.problemsById _ hentry
  rw [hid] at h
  obtain rfl : key = id := Except.ok.inj h
  refine ⟨⟨problem, OrderedMap.get?_eq_some_iff.2 hentry, by simpa using hq⟩, ?_⟩
  intro other problem' hother htype hactive
  -- What is listed before does not qualify, and what is listed later has no smaller id.
  rcases List.mem_append.1 (hmem.1 (OrderedMap.get?_eq_some_iff.1 hother)) with hm | hm
  · have hno := hbefore _ hm
    simp [htype, hactive] at hno
  · have hsorted := pairwise_mergeSort_fst graph.problems.entries
    rw [he] at hsorted
    rcases List.mem_cons.1 hm with heq | hm
    · cases heq
      exact String.le_refl _
    · exact (List.pairwise_cons.1 (List.pairwise_append.1 hsorted).2.1).1 _ hm

theorem exists_problemFor (h : graph.problems.get? id = some problem) (htype : problem.type = type)
    (hactive : problem.active = true) : ∃ found, graph.problemFor type = .ok found := by
  unfold problemFor
  split
  · exact ⟨_, rfl⟩
  · rename_i hnone
    have hm : problem ∈ graph.sortedProblems :=
      List.mem_map.2 ⟨_, List.mem_mergeSort.2 (OrderedMap.get?_eq_some_iff.1 h), rfl⟩
    have hno := List.find?_eq_none.1 hnone problem hm
    simp [htype, hactive] at hno

/-- Among the active problems of a type the one with the least id is found. -/
theorem problemFor_eq_ok_iff : graph.problemFor type = .ok id ↔
    (∃ problem, graph.problems.get? id = some problem ∧ problem.type = type ∧
      problem.active = true) ∧
    ∀ other problem, graph.problems.get? other = some problem → problem.type = type →
      problem.active = true → id ≤ other := by
  refine ⟨least_of_problemFor, ?_⟩
  rintro ⟨⟨problem, hid, htype, hactive⟩, hleast⟩
  obtain ⟨found, hfound⟩ := exists_problemFor hid htype hactive
  obtain ⟨⟨problem', hid', htype', hactive'⟩, hleast'⟩ := least_of_problemFor hfound
  have hle := hleast found problem' hid' htype' hactive'
  have hle' := hleast' id problem hid htype hactive
  rw [hfound, String.le_antisymm hle hle']

end Least

section Reordered

/-- Graphs that agree on every problem and list the same problems answer all questions alike. -/
theorem source_congr (h : ∀ problem, AgreeOn problem graph graph')
    (hl : graph.sortedProblems = graph'.sortedProblems) : graph.source = graph'.source := by
  have hf : graph.firstStep = graph'.firstStep := funext fun problem => (h problem).firstStep
  have hc : graph.candidates = graph'.candidates :=
    funext fun problem => funext (h problem).candidates
  have hp : graph.problemFor = graph'.problemFor := by
    funext type
    simp only [problemFor, hl]
  simp only [source, hf, hc, hp, hl]

variable (h : ofAdditions additions = .ok graph) (h' : ofAdditions additions' = .ok graph')
  (hp : additions.Perm additions')
include h h' hp

theorem sortedProblems_reordered (hd : (additions.filterMap Addition.problemId?).Nodup) :
    graph.sortedProblems = graph'.sortedProblems := by
  have hd' := (hp.filterMap Addition.problemId?).nodup_iff.1 hd
  have hperm : graph.problems.entries.Perm graph'.problems.entries := by
    rw [problems_ofAdditions h hd, problems_ofAdditions h' hd']
    exact hp.filterMap _
  rw [sortedProblems, mergeSort_fst_eq_of_perm hperm, sortedProblems]

theorem agreeOn_reordered (hd : (additions.filterMap Addition.stepKey?).Nodup)
    (ho : Additions.SameOrder additions additions') (problem : Option String) :
    AgreeOn problem graph graph' where
  steps id := by
    have hd' := (hp.filterMap Addition.stepKey?).nodup_iff.1 hd
    refine OrderedMap.get?_eq_of_perm ?_ (problem, id)
    rw [steps_ofAdditions h hd, steps_ofAdditions h' hd']
    exact hp.filterMap _
  opening := by
    rw [opening?, opening?, ← List.head?_filter, ← List.head?_filter, relations_ofAdditions h,
      relations_ofAdditions h', ho.firsts]
  relations id := by
    rw [relationsFrom, relationsFrom, relations_ofAdditions h, relations_ofAdditions h', ho.nexts]

/-- Accepted additions in another order, with competing relations in the same one, make a graph that
gives the same first steps, candidates and problems, the same reports and the same runs. The problem
that is found for a type is the active one with the least id. -/
theorem additions_reordered (hproblems : (additions.filterMap Addition.problemId?).Nodup)
    (hsteps : (additions.filterMap Addition.stepKey?).Nodup)
    (ho : Additions.SameOrder additions additions') :
    (∀ problem, graph.firstStep problem = graph'.firstStep problem) ∧
    (∀ problem id, graph.candidates problem id = graph'.candidates problem id) ∧
    (∀ type, graph.problemFor type = graph'.problemFor type) ∧
    (∀ type id, graph.problemFor type = .ok id ↔
      (∃ problem, graph.problems.get? id = some problem ∧ problem.type = type ∧
        problem.active = true) ∧
      ∀ other problem, graph.problems.get? other = some problem → problem.type = type →
        problem.active = true → id ≤ other) ∧
    graph.sortedProblems = graph'.sortedProblems ∧
    (∀ depth problem, Audit.problem graph.source depth problem () =
      Audit.problem graph'.source depth problem ()) ∧
    (∀ depth, Audit.all graph.source depth () = Audit.all graph'.source depth ()) ∧
    ∀ (τ : Type) (lookup : LookupSource τ) (limit : Nat) (problem : Option String)
      (data : OrderedMap String Datum) (world : Unit × τ),
      Traversal.run ⟨graph.source, lookup⟩ limit problem data world =
        Traversal.run ⟨graph'.source, lookup⟩ limit problem data world := by
  have hagree := agreeOn_reordered h h' hp hsteps ho
  have hlist := sortedProblems_reordered h h' hp hproblems
  have hsource : graph.source = graph'.source := source_congr hagree hlist
  refine ⟨fun problem => (hagree problem).firstStep, fun problem => (hagree problem).candidates,
    fun type => ?_, fun _ _ => problemFor_eq_ok_iff, hlist, ?_, ?_, ?_⟩
  · simp only [problemFor, hlist]
  · intro depth problem
    rw [hsource]
  · intro depth
    rw [hsource]
  · intro τ lookup limit problem data world
    rw [hsource]

end Reordered

/-- Two problems of a type, and relations from two steps of one of them. -/
theorem additions_reordered_refunds :
    let problem (id : String) : Addition := .problem ⟨some id, some "refund", none, true⟩
    let first : Relation := ⟨some "refund", none, some 1, some firstRelation, none⟩
    let branch : Relation :=
      ⟨some "refund", some 1, some 2, some guardedRelation, some "amount > 100"⟩
    let again (id : Int) : Relation :=
      ⟨some "refund", some id, some 1, some defaultRelation, none⟩
    let additions : List Addition := [problem "refund", problem "amends", .step refunds.lookup,
      .step refunds.paid, .relation first, .relation branch, .relation (again 1),
      .relation (again 2)]
    let additions' : List Addition := [.step refunds.paid, problem "amends", problem "refund",
      .step refunds.lookup, .relation (again 2), .relation branch, .relation (again 1),
      .relation first]
    ∃ graph graph', ofAdditions additions = .ok graph ∧ ofAdditions additions' = .ok graph' ∧
      additions.Perm additions' ∧ (additions.filterMap Addition.problemId?).Nodup ∧
      (additions.filterMap Addition.stepKey?).Nodup ∧ Additions.SameOrder additions additions' ∧
      (∀ id, graph.candidates (some "refund") id = graph'.candidates (some "refund") id) ∧
      graph'.problemFor (some "refund") = .ok "amends" := by
  intro problem first branch again additions additions'
  obtain ⟨graph, h⟩ : ∃ graph, ofAdditions additions = .ok graph := by
    simp only [additions, first, branch, again, problem]
    exact ⟨_, rfl⟩
  obtain ⟨graph', h'⟩ : ∃ graph, ofAdditions additions' = .ok graph := by
    simp only [additions', first, branch, again, problem]
    exact ⟨_, rfl⟩
  have hp : additions.Perm additions' := by decide
  have hproblems : (additions.filterMap Addition.problemId?).Nodup := by decide
  have hsteps : (additions.filterMap Addition.stepKey?).Nodup := by decide
  have ho : Additions.SameOrder additions additions' := by
    have hr : additions.filterMap Addition.relationAdded? = [first, branch, again 1, again 2] := rfl
    have hr' : additions'.filterMap Addition.relationAdded? = [again 2, branch, again 1, first] :=
      rfl
    constructor <;> rw [hr, hr']
    · intro id
      simp [List.filter_cons, first, branch, again, firstRelation, defaultRelation, guardedRelation]
    · intro id step
      by_cases hstep : some 2 = step
      · subst hstep
        simp [List.filter_cons, first, branch, again]
      · have hfirst : first.isNext = false := by decide
        simp [List.filter_cons, hfirst, show (again 2).source ≠ step from hstep]
  obtain ⟨-, hc, hfound, hleast, -⟩ := additions_reordered h h' hp hproblems hsteps ho
  refine ⟨graph, graph', h, h', hp, hproblems, hsteps, ho, hc (some "refund"), ?_⟩
  rw [← hfound, hleast]
  have hentries : graph.problems.entries =
      [("refund", ⟨some "refund", some "refund", none, true⟩),
        ("amends", ⟨some "amends", some "refund", none, true⟩)] :=
    problems_ofAdditions h hproblems
  have hamends : graph.problems.get? "amends" =
      some ⟨some "amends", some "refund", none, true⟩ := by
    simp [OrderedMap.get?_eq_some_iff, hentries]
  refine ⟨⟨_, hamends, rfl, rfl⟩, ?_⟩
  intro other _ hother _ _
  rw [OrderedMap.get?_eq_some_iff, hentries] at hother
  have hkey : other ∈ ["refund", "amends"] :=
    List.mem_map_of_mem (f := Prod.fst) hother
  have hle : ∀ key ∈ ["refund", "amends"], "amends" ≤ key := by decide
  exact hle other hkey

end LocalGraph

end Playbook
