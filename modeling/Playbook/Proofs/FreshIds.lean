import Playbook.Construction.Builder
import Playbook.Proofs.ProblemIds
import Playbook.Proofs.Sorting

/-!
# Fresh problem ids

A problem without an id gets the number after that of the latest id of its type, where ids are
ordered as texts. That id is fresh, and so are those of the problems written after it, as long as
there is room for them: the latest id is one that was written with a number, the numbers do not
become longer, and no problem of another type holds one of the ids (`createAll_fresh`). Where the
latest id is not the one with the greatest number, or has none, an id is given that is held already,
and what holds it is overwritten (`newId_taken`).
-/

namespace Playbook

open ProblemId

theorem Datum.same_text_iff {d : Datum} {s : String} : d.same (.text s) = true ↔ d = .text s := by
  unfold Datum.same
  cases hn : d.number? with
  | some q =>
    have hne : d ≠ .text s := by
      rintro rfl
      cases hn
    simp [Datum.number?, Datum.text] at hne ⊢
    exact hne
  | none => cases d <;> simp [Datum.number?, Datum.text]

theorem Datum.text_inj {s t : String} (h : Datum.text s = .text t) : s = t :=
  Value.text.inj (Datum.plain.inj h)

namespace RecordedGraph

section Greatest

theorem greatest?_of_texts {ids : List Datum} {latest : String} (hm : .text latest ∈ ids)
    (hle : ∀ d ∈ ids, ∃ id, d = .text id ∧ id ≤ latest) :
    greatest? ids = some [.text latest] := by
  obtain ⟨sorted, hs, hperm, hsorted⟩ := Datum.exists_sorted id (fun d => d.textOf?.getD "")
    fun d (hd : d ∈ ids) d' hd' => by
      obtain ⟨i, rfl, -⟩ := hle d hd
      obtain ⟨j, rfl, -⟩ := hle d' hd'
      exact ⟨_, Datum.before?_text i j, decide_eq_true_iff⟩
  rw [greatest?, hs, Option.map_some]
  rcases hg : sorted.getLast? with _ | last
  · rw [List.getLast?_eq_none_iff.1 hg] at hperm
    exact absurd (hperm.mem_iff.2 hm) List.not_mem_nil
  · obtain ⟨before, rfl⟩ := List.getLast?_eq_some_iff.1 hg
    have hlast : last ∈ ids := hperm.mem_iff.1 (List.mem_append_right _ List.mem_cons_self)
    obtain ⟨id, rfl, hid⟩ := hle last hlast
    rcases List.mem_append.1 (hperm.mem_iff.2 hm) with hm | hm
    · have hge : latest ≤ id := (List.pairwise_append.1 hsorted).2.2 _ hm _ List.mem_cons_self
      rw [le_antisymm hid hge]
      rfl
    · rw [List.mem_singleton.1 hm]
      rfl

end Greatest

section Problems

variable {graph : RecordedGraph} {type : String}

def ofType (graph : RecordedGraph) (type : String) : List Record :=
  graph.problems.filter fun p => (p.column "problemType").same (.text type)

theorem mem_ofType {p : Record} :
    p ∈ graph.ofType type ↔ p ∈ graph.problems ∧ p.column "problemType" = .text type := by
  rw [ofType, List.mem_filter, Datum.same_text_iff]

theorem hasProblem_eq_false_iff {id : String} :
    graph.hasProblem (.text id) = false ↔
      ∀ p ∈ graph.problems, p.column "problemId" ≠ .text id := by
  simp only [hasProblem, hasId, List.any_eq_false, Datum.same_text_iff, ne_eq]

theorem putProblem_of_fresh {fields : Record} {id : String}
    (hi : fields.column "problemId" = .text id) (h : graph.hasProblem (.text id) = false) :
    putProblem fields graph.problems = graph.problems ++ [fields] := by
  unfold hasProblem at h
  rw [putProblem, hi, h]
  rfl

theorem answer_latest_eq :
    graph.answer .latestProblem (.ofEntries [("problemType", .text type)]) =
      match greatest? ((graph.ofType type).map fun p => p.column "problemId") with
      | some ids => (.ok (ids.map (row "problemId")), graph)
      | none => (.error noOrder, graph) := rfl

theorem answer_latest {latest : String}
    (hm : ∃ p ∈ graph.ofType type, p.column "problemId" = .text latest)
    (hle : ∀ p ∈ graph.ofType type, ∃ id, p.column "problemId" = .text id ∧ id ≤ latest) :
    graph.answer .latestProblem (.ofEntries [("problemType", .text type)]) =
      (.ok [row "problemId" (.text latest)], graph) := by
  obtain ⟨p, hp, hi⟩ := hm
  have hg : greatest? ((graph.ofType type).map fun p => p.column "problemId") =
      some [.text latest] := by
    refine greatest?_of_texts (hi ▸ List.mem_map_of_mem hp) fun d hd => ?_
    obtain ⟨q, hq, rfl⟩ := List.mem_map.1 hd
    exact hle q hq
  rw [answer_latest_eq, hg]
  rfl

theorem answer_latest_none (h : graph.ofType type = []) :
    graph.answer .latestProblem (.ofEntries [("problemType", .text type)]) = (.ok [], graph) := by
  have hg : greatest? [] = some [] := by simp [greatest?, Datum.sortBy?]
  rw [answer_latest_eq, h, List.map_nil, hg]
  rfl

/-- There is room for some more problems of a type after the one with the last number: its id is the
greatest of the type and no number of the type has more digits, those to come before the final one
have as many, and problems of other types do not hold the ids to come. -/
structure Room (graph : RecordedGraph) (type : String) (last count : Nat) : Prop where
  upTo : ∀ p ∈ graph.ofType type, ∃ id, p.column "problemId" = .text id ∧ id ≤ numbered type last
  short : ∀ p ∈ graph.ofType type, ∀ k, p.column "problemId" = .text (numbered type k) →
    (numbered type k).length ≤ (numbered type last).length
  held : graph.ofType type = [] ∧ last = 0 ∨
    ∃ p ∈ graph.ofType type, p.column "problemId" = .text (numbered type last)
  elsewhere : ∀ p ∈ graph.problems, p ∉ graph.ofType type → ∀ k, last < k → k ≤ last + count →
    p.column "problemId" ≠ .text (numbered type k)
  width : ∀ k, last ≤ k → k < last + count →
    (numbered type k).length = (numbered type last).length
  limit : last + count < Nat.pow 10 Text.digitLimit

namespace Room

variable {last count : Nat}

theorem fresh (h : graph.Room type last count) {k : Nat} (hl : last < k) (hk : k ≤ last + count) :
    graph.hasProblem (.text (numbered type k)) = false := by
  rw [hasProblem_eq_false_iff]
  intro p hp hid
  by_cases ht : p ∈ graph.ofType type
  · obtain ⟨id, hi, hle⟩ := h.upTo p ht
    rw [hid] at hi
    rw [← Datum.text_inj hi] at hle
    have hlen : (numbered type last).length = (numbered type k).length :=
      le_antisymm (length_numbered_mono type hl.le) (h.short p ht k hid)
    exact absurd hle (not_le.2 (numbered_lt hlen hl))
  · exact h.elsewhere p hp ht k hl hk hid

theorem exists_latest (h : graph.Room type last count) : ∃ rows,
    graph.answer .latestProblem (.ofEntries [("problemType", .text type)]) = (.ok rows, graph) ∧
      Builder.nextNumber rows = .ok (last + 1 : Nat) := by
  rcases h.held with ⟨hn, rfl⟩ | hm
  · exact ⟨[], answer_latest_none hn, rfl⟩
  · have hlast : last < Nat.pow 10 Text.digitLimit := lt_of_le_of_lt (by omega) h.limit
    refine ⟨_, answer_latest hm h.upTo, ?_⟩
    change Except.ok (((ProblemId.number? (numbered type last)).map (· + 1)).getD 1) = _
    rw [number?_numbered type hlast]
    rfl

/-- Writing the next problem leaves room for one less. -/
theorem next {fields : Record} (h : graph.Room type last (count + 1)) (hc : count ≠ 0)
    (hi : fields.column "problemId" = .text (numbered type (last + 1)))
    (ht : fields.column "problemType" = .text type) :
    Room { graph with problems := graph.problems ++ [fields] } type (last + 1) count := by
  have hof : ofType { graph with problems := graph.problems ++ [fields] } type =
      graph.ofType type ++ [fields] := by
    simp [ofType, List.filter_append, ht, Datum.same_text_iff]
  have hw : (numbered type (last + 1)).length = (numbered type last).length :=
    h.width (last + 1) (by omega) (by omega)
  refine ⟨fun p hp => ?_, fun p hp k hk => ?_, .inr ⟨fields, by simp [hof], hi⟩,
    fun p hp hne k hl hk => ?_, fun k hl hk => ?_, ?_⟩
  · rw [hof, List.mem_append, List.mem_singleton] at hp
    rcases hp with hp | rfl
    · obtain ⟨id, hid, hle⟩ := h.upTo p hp
      exact ⟨id, hid, (hle.trans_lt (numbered_lt hw.symm (Nat.lt_succ_self last))).le⟩
    · exact ⟨_, hi, le_refl _⟩
  · rw [hof, List.mem_append, List.mem_singleton] at hp
    rcases hp with hp | rfl
    · rw [hw]
      exact h.short p hp k hk
    · rw [hi] at hk
      rw [Datum.text_inj hk]
  · rw [hof, List.mem_append, List.mem_singleton, not_or] at hne
    rcases List.mem_append.1 hp with hp | hp
    · exact h.elsewhere p hp hne.1 k (by omega) (by omega)
    · exact absurd (List.mem_singleton.1 hp) hne.2
  · rw [hw]
    exact h.width k (by omega) (by omega)
  · have := h.limit
    omega

end Room

end Problems

end RecordedGraph

namespace ProblemDraft

/-- The fields of a problem that are written. -/
def record (draft : ProblemDraft) : Record :=
  .ofEntries (Builder.problemParameters draft)

/-- Problems of a type with ids in turn. -/
def numberedFrom (type : String) : Nat → List ProblemDraft → List ProblemDraft
  | _, [] => []
  | k, draft :: rest =>
    { draft with id := .text (numbered type k) } :: numberedFrom type (k + 1) rest

theorem exists_of_mem_numberedFrom {type : String} {draft : ProblemDraft} :
    ∀ {k : Nat} {drafts : List ProblemDraft}, draft ∈ numberedFrom type k drafts →
      ∃ l, k ≤ l ∧ l < k + drafts.length ∧ draft.id = .text (numbered type l)
  | k, first :: rest, h => by
    rcases List.mem_cons.1 h with rfl | h
    · exact ⟨k, le_refl k, by simp, rfl⟩
    · obtain ⟨l, hl, hu, hi⟩ := exists_of_mem_numberedFrom h
      refine ⟨l, by omega, ?_, hi⟩
      rw [List.length_cons]
      omega

theorem nodup_numberedFrom (type : String) (k : Nat) (drafts : List ProblemDraft) :
    ((numberedFrom type k drafts).map (·.id)).Nodup := by
  induction drafts generalizing k with
  | nil => exact List.nodup_nil
  | cons draft rest ih =>
    refine List.nodup_cons.2 ⟨fun h => ?_, ih (k + 1)⟩
    obtain ⟨other, ho, hi⟩ := List.mem_map.1 h
    obtain ⟨l, hl, -, hl'⟩ := exists_of_mem_numberedFrom ho
    rw [hi] at hl'
    have he : k = l := numbered_inj (Datum.text_inj hl')
    omega

end ProblemDraft

namespace Builder

open RecordedGraph

variable {graph : RecordedGraph} {database : Database} {type : String} {last count : Nat}

/-- Writes some problems, one after the other. -/
def createAll (b : Builder) :
    List ProblemDraft → Attempt (Option Database) (List (Bool × ProblemDraft))
  | [], s => (.ok [], s)
  | draft :: rest, s =>
    match b.createProblem draft s with
    | (.error f, s) => (.error f, s)
    | (.ok written, s) =>
      let (r, s) := b.createAll rest s
      (r.map (written :: ·), s)

theorem ask_of_answer (b : Builder) (hb : database.backend = .recorder graph)
    {statement : Statement} {parameters : List (String × Datum)} {rows : List Record}
    {graph' : RecordedGraph}
    (ha : graph.answer statement (.ofEntries parameters) = (.ok rows, graph')) :
    ∃ database', b.ask statement parameters (some database) = (rows, some database') ∧
      database'.backend = .recorder graph' := by
  have hs : (Database.openSession b.database database).backend = .recorder graph := hb
  simp only [ask, Database.ask, Database.send, hs, Database.answer, ha]
  exact ⟨_, rfl, rfl⟩

theorem newId_of_answer (b : Builder) (hb : database.backend = .recorder graph)
    {rows : List Record} {k : Nat}
    (ha : graph.answer .latestProblem (.ofEntries [("problemType", .text type)]) =
      (.ok rows, graph))
    (hn : nextNumber rows = .ok (k : Int)) (hk : k < Nat.pow 10 Text.digitLimit) :
    ∃ database', b.newId (.text type) (some database) =
        (.ok (numbered type k), some database') ∧
      database'.backend = .recorder graph := by
  obtain ⟨database', hask, hb'⟩ := ask_of_answer b hb ha
  refine ⟨database', ?_, hb'⟩
  simp only [newId, hask, hn, bind, Except.bind]
  exact congrArg (·, some database') (write_natCast type hk)

theorem newId_of_room (b : Builder) (hb : database.backend = .recorder graph)
    (h : graph.Room type last (count + 1)) :
    ∃ database', b.newId (.text type) (some database) =
        (.ok (numbered type (last + 1)), some database') ∧
      database'.backend = .recorder graph := by
  obtain ⟨rows, ha, hn⟩ := h.exists_latest
  exact newId_of_answer b hb ha hn (lt_of_le_of_lt (by omega) h.limit)

theorem createProblem_of_newId (b : Builder) {draft : ProblemDraft} {id : String}
    {database₁ : Database} (hd : draft.id.isTruthy = false)
    (hn : b.newId draft.type (some database) = (.ok id, some database₁))
    (hb : database₁.backend = .recorder graph) :
    ∃ database', b.createProblem draft (some database) =
        (.ok (true, { draft with id := .text id }), some database') ∧
      database'.backend = .recorder { graph with
        problems := putProblem { draft with id := .text id }.record graph.problems } := by
  have ha : graph.answer .mergeProblem
      (.ofEntries (problemParameters { draft with id := .text id })) =
        (.ok [row "problemId" (.text id)], { graph with
          problems := putProblem { draft with id := .text id }.record graph.problems }) := rfl
  obtain ⟨database', hask, hb'⟩ := ask_of_answer b hb ha
  refine ⟨database', ?_, hb'⟩
  rw [createProblem, hd, if_neg Bool.false_ne_true, hn]
  simp only [mergeProblem, succeeds, hask]
  rfl

theorem createAll_of_room (b : Builder) {drafts : List ProblemDraft}
    (hb : database.backend = .recorder graph)
    (hd : ∀ d ∈ drafts, d.id.isTruthy = false ∧ d.type = .text type)
    (h : drafts ≠ [] → graph.Room type last drafts.length) :
    ∃ database', b.createAll drafts (some database) =
        (.ok ((ProblemDraft.numberedFrom type (last + 1) drafts).map (true, ·)), some database') ∧
      database'.backend = .recorder { graph with problems := graph.problems ++
        (ProblemDraft.numberedFrom type (last + 1) drafts).map ProblemDraft.record } := by
  induction drafts generalizing graph database last with
  | nil => exact ⟨database, rfl, by simp [ProblemDraft.numberedFrom, hb]⟩
  | cons draft rest ih =>
    obtain ⟨hf, ht⟩ := hd draft List.mem_cons_self
    have hr : graph.Room type last (rest.length + 1) := h (List.cons_ne_nil _ _)
    obtain ⟨database₁, hn, hb₁⟩ := newId_of_room b hb hr
    rw [← ht] at hn
    obtain ⟨database₂, hcreate, hb₂⟩ := createProblem_of_newId b hf hn hb₁
    have hi : ({ draft with id := .text (numbered type (last + 1)) } : ProblemDraft).record.column
        "problemId" = .text (numbered type (last + 1)) := rfl
    rw [putProblem_of_fresh hi (hr.fresh (Nat.lt_succ_self last) (by omega))] at hb₂
    obtain ⟨database', hrest, hb'⟩ := ih hb₂ (fun d hd' => hd d (List.mem_cons_of_mem _ hd'))
      fun hne => hr.next (fun h0 => hne (List.eq_nil_of_length_eq_zero h0)) hi ht
    refine ⟨database', ?_, ?_⟩
    · simp only [createAll, hcreate, hrest]
      rfl
    · rw [hb', List.append_assoc]
      rfl

/-- While there is room, the next id of a type is held by no problem, and problems without ids that
are written one after the other are added to the graph, under ids of their own that no problem
held. -/
theorem createAll_fresh (b : Builder) {drafts : List ProblemDraft}
    (hb : database.backend = .recorder graph)
    (hd : ∀ d ∈ drafts, d.id.isTruthy = false ∧ d.type = .text type)
    (h : graph.Room type last drafts.length) :
    (drafts ≠ [] → ∃ id, (b.newId (.text type) (some database)).1 = .ok id ∧
      graph.hasProblem (.text id) = false) ∧
    ∃ written database',
      b.createAll drafts (some database) = (.ok (written.map (true, ·)), some database') ∧
      database'.backend =
        .recorder { graph with problems := graph.problems ++ written.map ProblemDraft.record } ∧
      written = ProblemDraft.numberedFrom type (last + 1) drafts ∧
      (written.map (·.id)).Nodup ∧
      ∀ d ∈ written, graph.hasProblem d.id = false := by
  refine ⟨fun hne => ?_, ?_⟩
  · obtain ⟨count, hcount⟩ :=
      Nat.exists_eq_succ_of_ne_zero fun h0 => hne (List.eq_nil_of_length_eq_zero h0)
    rw [hcount] at h
    obtain ⟨database', hn, -⟩ := newId_of_room b hb h
    exact ⟨_, congrArg Prod.fst hn, h.fresh (Nat.lt_succ_self last) (by omega)⟩
  · obtain ⟨database', hall, hb'⟩ := createAll_of_room b hb hd fun _ => h
    refine ⟨_, database', hall, hb', rfl, ProblemDraft.nodup_numberedFrom type _ _, fun d hd' => ?_⟩
    obtain ⟨k, hl, hu, hi⟩ := ProblemDraft.exists_of_mem_numberedFrom hd'
    rw [hi]
    exact h.fresh (by omega) (by omega)

section Graphs

/-- A problem with nothing but an id and a type. -/
def bareProblem (id : Datum) (type : String) : ProblemDraft :=
  ⟨id, .text type, .text "", .bool true⟩

/-- A graph of problems with ids and types. -/
def graphOf (problems : List (String × String)) : RecordedGraph :=
  ⟨problems.map fun (id, type) => (bareProblem (.text id) type).record, []⟩

theorem mem_graphOf_cons {p : Record} {problem : String × String}
    {rest : List (String × String)} : p ∈ (graphOf (problem :: rest)).problems ↔
      p = (bareProblem (.text problem.1) problem.2).record ∨ p ∈ (graphOf rest).problems :=
  List.mem_cons

theorem not_mem_graphOf_nil {p : Record} : ¬p ∈ (graphOf []).problems := List.not_mem_nil

def refundGraph : RecordedGraph :=
  graphOf [("refund-007", "refund"), ("delivery-008", "delivery"), ("refund-004", "refund")]

theorem refundGraph_room : refundGraph.Room "refund" 7 2 where
  upTo p hp := by
    obtain ⟨hp, ht⟩ := mem_ofType.1 hp
    simp only [refundGraph, mem_graphOf_cons, not_mem_graphOf_nil, or_false] at hp
    rcases hp with rfl | rfl | rfl
    · exact ⟨_, rfl, le_refl _⟩
    · exact absurd (Datum.text_inj ht) (by decide)
    · exact ⟨_, rfl, by decide⟩
  short p hp k hk := by
    obtain ⟨hp, ht⟩ := mem_ofType.1 hp
    simp only [refundGraph, mem_graphOf_cons, not_mem_graphOf_nil, or_false] at hp
    rcases hp with rfl | rfl | rfl
    · rw [← Datum.text_inj hk]
      decide
    · exact absurd (Datum.text_inj ht) (by decide)
    · rw [← Datum.text_inj hk]
      decide
  held := .inr ⟨_, mem_ofType.2 ⟨List.mem_cons_self, rfl⟩, rfl⟩
  elsewhere p hp hne k hl hk := by
    have hp' := hp
    simp only [refundGraph, mem_graphOf_cons, not_mem_graphOf_nil, or_false] at hp'
    rcases hp' with rfl | rfl | rfl
    · exact absurd (mem_ofType.2 ⟨hp, rfl⟩) hne
    · obtain rfl | rfl : k = 8 ∨ k = 9 := by omega
      · exact fun h => absurd (Datum.text_inj h) (by decide)
      · exact fun h => absurd (Datum.text_inj h) (by decide)
    · exact absurd (mem_ofType.2 ⟨hp, rfl⟩) hne
  width k hl hk := by
    obtain rfl | rfl : k = 7 ∨ k = 8 := by omega
    · rfl
    · decide
  limit := Text.lt_pow_digitLimit (by decide)

theorem createAll_fresh_refunds :
    let b : Builder := ⟨none⟩
    let database := Database.ofBackend (.recorder refundGraph) true
    let drafts := [bareProblem .null "refund", bareProblem (.text "") "refund"]
    refundGraph.Room "refund" 7 drafts.length ∧
      (∃ id, (b.newId (.text "refund") (some database)).1 = .ok id ∧
        refundGraph.hasProblem (.text id) = false) ∧
      ∃ written database',
        b.createAll drafts (some database) = (.ok (written.map (true, ·)), some database') ∧
        written =
          [bareProblem (.text "refund-008") "refund", bareProblem (.text "refund-009") "refund"] ∧
        database'.backend = .recorder { refundGraph with
          problems := refundGraph.problems ++ written.map ProblemDraft.record } := by
  intro b database drafts
  refine ⟨refundGraph_room, ?_⟩
  have hd : ∀ d ∈ drafts, d.id.isTruthy = false ∧ d.type = .text "refund" := by
    intro d hd
    obtain rfl | rfl : d = _ ∨ d = _ := by
      simpa only [drafts, List.mem_cons, List.not_mem_nil, or_false] using hd
    · exact ⟨rfl, rfl⟩
    · exact ⟨rfl, rfl⟩
  obtain ⟨hn, written, database', hall, hb, rfl, -, -⟩ :=
    createAll_fresh b (rfl : database.backend = .recorder refundGraph) hd refundGraph_room
  exact ⟨hn (List.cons_ne_nil _ _), _, database', hall, rfl, hb⟩

theorem length_putProblem_of_held {fields : Record}
    (h : graph.hasProblem (fields.column "problemId") = true) :
    (putProblem fields graph.problems).length = graph.problems.length := by
  unfold hasProblem at h
  rw [putProblem, h, if_pos rfl, List.length_map]

/-- A problem whose new id is held takes the place of the one that holds it. -/
theorem exists_length_eq_of_held (b : Builder) {draft : ProblemDraft} {id : String}
    {database₁ : Database} (hd : draft.id.isTruthy = false)
    (hn : b.newId draft.type (some database) = (.ok id, some database₁))
    (hb : database₁.backend = .recorder graph) (hh : graph.hasProblem (.text id) = true) :
    ∃ database' graph', b.createProblem draft (some database) =
        (.ok (true, { draft with id := .text id }), some database') ∧
      database'.backend = .recorder graph' ∧ graph'.problems.length = graph.problems.length := by
  obtain ⟨database', hcreate, hb'⟩ := createProblem_of_newId b hd hn hb
  exact ⟨database', _, hcreate, hb', length_putProblem_of_held hh⟩

/-- The next id of a type is held, and a problem to which it is given takes the place of the one
that holds it. -/
def Retakes (b : Builder) (graph : RecordedGraph) (type id : String) : Prop :=
  let database := Database.ofBackend (.recorder graph) true
  (b.newId (.text type) (some database)).1 = .ok id ∧
    graph.hasProblem (.text id) = true ∧
    ∃ database' graph', b.createProblem (bareProblem .null type) (some database) =
        (.ok (true, bareProblem (.text id) type), some database') ∧
      database'.backend = .recorder graph' ∧ graph'.problems.length = graph.problems.length

theorem retakes_of_answer (b : Builder) {type : String} {rows : List Record} {n : Nat}
    (ha : graph.answer .latestProblem (.ofEntries [("problemType", .text type)]) =
      (.ok rows, graph)) (hn : nextNumber rows = .ok n) (hlt : n < Nat.pow 10 Text.digitLimit)
    (hh : graph.hasProblem (.text (numbered type n)) = true) :
    b.Retakes graph type (numbered type n) := by
  let database := Database.ofBackend (.recorder graph) true
  obtain ⟨database₁, hid, hb⟩ :=
    newId_of_answer b (rfl : database.backend = .recorder graph) ha hn hlt
  have hd : (bareProblem .null type).id.isTruthy = false := rfl
  exact ⟨congrArg Prod.fst hid, hh, exists_length_eq_of_held b hd hid hb hh⟩

/-- Where the latest id of a type as a text is not the one with the greatest number, or where it has
no number, or where the ids of the type are held by problems of another, a held id is given and what
holds it is overwritten. -/
theorem newId_taken :
    let b : Builder := ⟨none⟩
    b.Retakes (graphOf [("t-999", "t"), ("t-1000", "t")]) "t" "t-1000" ∧
      b.Retakes (graphOf [("t-001", "t"), ("t-abc", "t")]) "t" "t-001" ∧
      b.Retakes (graphOf [("t-001", "u")]) "t" "t-001" := by
  intro b
  refine ⟨?_, ?_, ?_⟩
  · have hm : ∃ p ∈ (graphOf [("t-999", "t"), ("t-1000", "t")]).ofType "t",
        p.column "problemId" = .text "t-999" :=
      ⟨_, mem_ofType.2 ⟨List.mem_cons_self, rfl⟩, rfl⟩
    refine b.retakes_of_answer (n := 1000) (answer_latest hm fun p hp => ?_) (by rfl)
      (Text.lt_pow_digitLimit (by decide)) (by decide +kernel)
    obtain ⟨hp, -⟩ := mem_ofType.1 hp
    simp only [mem_graphOf_cons, not_mem_graphOf_nil, or_false] at hp
    rcases hp with rfl | rfl
    · exact ⟨_, rfl, le_refl _⟩
    · exact ⟨_, rfl, by decide⟩
  · have hm : ∃ p ∈ (graphOf [("t-001", "t"), ("t-abc", "t")]).ofType "t",
        p.column "problemId" = .text "t-abc" :=
      ⟨_, mem_ofType.2 ⟨List.mem_cons_of_mem _ List.mem_cons_self, rfl⟩, rfl⟩
    refine b.retakes_of_answer (n := 1) (answer_latest hm fun p hp => ?_) (by rfl)
      (Text.lt_pow_digitLimit (by decide)) (by decide +kernel)
    obtain ⟨hp, -⟩ := mem_ofType.1 hp
    simp only [mem_graphOf_cons, not_mem_graphOf_nil, or_false] at hp
    rcases hp with rfl | rfl
    · exact ⟨_, rfl, by decide⟩
    · exact ⟨_, rfl, le_refl _⟩
  · exact b.retakes_of_answer (n := 1) (answer_latest_none rfl) rfl
      (Text.lt_pow_digitLimit (by decide)) (by decide +kernel)

end Graphs

end Builder

end Playbook
