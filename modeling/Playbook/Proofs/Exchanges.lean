import Mathlib.Data.List.Basic
import Mathlib.Tactic.Common
import Playbook.Construction.Builder
import Playbook.Proofs.KeptAnswers
import Playbook.Proofs.ProblemIds

/-!
# What is asked to write problems and steps

The exchanges of a builder with the database, in order (`Builder.Asks`). For each thing that is
written one lemma says what is asked for it and whether it is counted as written; from it the lemma
on a list of things follows by induction (`Builder.createProblems_exchanges`,
`Builder.createSteps_exchanges`). Data that are noted have to be writable (`Builder.Notable`).
-/

namespace Playbook

namespace Exchange

def query (e : Exchange) : Statement × List (String × Datum) := (e.statement, e.parameters)

def call (e : Exchange) : Call := ⟨e.statement, .ofEntries e.parameters⟩

/-- The rows that were answered; a failure answers none. -/
def rows (e : Exchange) : List Record := e.answer.toOption.getD []

def done (e : Exchange) : Bool := !e.rows.isEmpty

/-- The problem that a statement is about. -/
def problem (e : Exchange) : Datum := (e.parameters.lookup "problemId").getD .null

theorem problem_of_query {e : Exchange} {statement : Statement} {problem : Datum}
    {others : List (String × Datum)}
    (h : e.query = (statement, ("problemId", problem) :: others)) : e.problem = problem := by
  have hp : e.parameters = ("problemId", problem) :: others := congrArg Prod.snd h
  rw [Exchange.problem, hp, List.lookup_cons_self]
  rfl

/-- Whether a problem was written. -/
def upserts (e : Exchange) : Bool := e.statement = .mergeProblem && e.done

/-- Whether a statement writes a relation. -/
def creates (e : Exchange) : Bool :=
  e.statement = .createFirst || e.statement = .createDefault || e.statement = .createGuarded

def counts (e : Exchange) : Bool := e.statement = .countProblem || e.statement = .countStep

/-- What was counted is there. -/
def Finds (e : Exchange) : Prop := ∃ n, n ≠ 0 ∧ Builder.countIn "count" e.rows = .ok n

/-- Counts are natural numbers and ids are texts, if they are set. -/
def Typed (e : Exchange) : Prop :=
  (e.counts = true → ∀ row ∈ e.rows,
    row.column "count" = .null ∨ ∃ n : Nat, row.column "count" = .int n) ∧
  (e.statement = .latestProblem → ∀ row ∈ e.rows,
    row.column "problemId" = .null ∨ ∃ id, row.column "problemId" = .text id)

/-- The number after that of the latest id can be written. -/
def HasNext (e : Exchange) : Prop :=
  e.statement = .latestProblem → ∀ row ∈ e.rows, ∀ id n, row.column "problemId" = .text id →
    ProblemId.number? id = some n → (Text.printInteger? (n + 1)).isSome = true

/-- A statement writes a problem, under the id that it has if it has one. -/
def Merges (e : Exchange) (draft : ProblemDraft) : Prop :=
  ∃ id, e.query = (.mergeProblem, Builder.problemParameters { draft with id := id }) ∧
    (draft.id.isTruthy = true → id = draft.id)

theorem Merges.statement_eq {e : Exchange} {draft : ProblemDraft} (h : e.Merges draft) :
    e.statement = .mergeProblem := by
  obtain ⟨_, hq, -⟩ := h
  exact congrArg Prod.fst hq

end Exchange

namespace Builder

open Exchange

variable (b : Builder)

/-- The exchanges that lead from one state of the database to another. -/
inductive Asks : Database → List Exchange → Database → Prop
  | nil {d : Database} : Asks d [] d
  | cons {e : Exchange} {log : List Exchange} {d d₁ d₂ : Database}
    (h : Database.ask b.database e.statement e.parameters d = (e.answer, d₁))
    (hr : Asks d₁ log d₂) : Asks d (e :: log) d₂

variable {b} {d d₁ d₂ : Database} {log later : List Exchange}

theorem Asks.append (h : b.Asks d log d₁) (hl : b.Asks d₁ later d₂) :
    b.Asks d (log ++ later) d₂ := by
  induction h with
  | nil => exact hl
  | cons h _ ih => exact .cons h (ih hl)

/-- What is asked is what the database is sent. -/
theorem Asks.calls (h : b.Asks d log d₁) : d₁.calls = d.calls ++ log.map call := by
  induction h with
  | nil => simp
  | @cons e log d d₁ d₂ ha _ ih =>
    obtain rfl : (Database.ask b.database e.statement e.parameters d).2 = d₁ := by rw [ha]
    rw [ih, List.map_cons, List.append_cons]
    rfl

theorem ask_exchange (b : Builder) (statement : Statement) (parameters : List (String × Datum))
    (d : Database) : ∃ e d₁, b.Asks d [e] d₁ ∧ e.query = (statement, parameters) ∧
      b.ask statement parameters (some d) = (e.rows, some d₁) := by
  rcases ha : Database.ask b.database statement parameters d with ⟨answer, d₁⟩
  refine ⟨⟨statement, parameters, answer⟩, d₁, .cons ha .nil, rfl, ?_⟩
  simp only [ask, ha]
  cases answer <;> rfl

theorem succeeds_exchange (b : Builder) (statement : Statement)
    (parameters : List (String × Datum)) (d : Database) : ∃ e d₁, b.Asks d [e] d₁ ∧
      e.query = (statement, parameters) ∧
      b.succeeds statement parameters (some d) = (e.done, some d₁) := by
  obtain ⟨e, d₁, he, hq, ha⟩ := b.ask_exchange statement parameters d
  refine ⟨e, d₁, he, hq, ?_⟩
  rw [succeeds, ha]
  rfl

section Notes

/-- Data that can be noted. -/
def Notable (data : List Datum) : Prop := ∀ d ∈ data, d.isWritable = true

theorem note_of_notable {data : List Datum} (h : Notable data) : note data = .ok () :=
  if_pos (List.all_eq_true.2 h)

theorem not_notable_of_error {data : List Datum} {f : Fault} (h : note data = .error f) :
    ¬Notable data := fun hn => by
  rw [note_of_notable hn] at h
  cases h

theorem eq_integerTooLong_of_note {data : List Datum} {f : Fault} (h : note data = .error f) :
    f = .integerTooLong := by
  unfold note at h
  split_ifs at h
  exact (Except.error.inj h).symm

/-- What is noted of a problem that is written. -/
def problemNotes (draft : ProblemDraft) : List Datum := [draft.id, draft.type]

/-- What is noted of a step: one that is not written is told of. -/
def stepNotes (draft : StepDraft) : List Datum :=
  if draft.operation.textOf?.any operations.contains then []
  else [draft.operation, draft.problem, draft.id]

/-- What may be noted of a relation: what has to be there for it, or all of one that is not
valid. -/
def relationNotes (draft : RelationDraft) : List Datum :=
  if draft.defects.isEmpty then draft.problem :: endsOf draft else draft.fields

/-- A playbook of which all that is noted can be. -/
structure CanNote (problems : List ProblemDraft) (steps : List StepDraft)
    (relations : List RelationDraft) : Prop where
  problems : ∀ draft ∈ problems, draft.active.isTruthy = true → Notable (problemNotes draft)
  steps : ∀ step ∈ steps, Notable (stepNotes step)
  relations : ∀ relation ∈ relations, Notable (relationNotes relation)

/-- Without its relations there is less to note. -/
theorem CanNote.nodes {problems : List ProblemDraft} {steps : List StepDraft}
    {relations : List RelationDraft} (h : CanNote problems steps relations) :
    CanNote problems steps [] :=
  ⟨h.problems, h.steps, by simp⟩

end Notes

section Problems

/-- The ids of the problems that were written. -/
def upserted (log : List Exchange) : List Datum := (log.filter upserts).map problem

theorem isSome_printInteger?_one : (Text.printInteger? 1).isSome = true :=
  Text.isSome_printInteger?_of_le (by decide)

/-- There is a next number unless an answer is no text or has a number without a next one. -/
theorem exists_nextNumber {e : Exchange} (he : e.statement = .latestProblem) (ht : e.Typed)
    (hn : e.HasNext) : ∃ n, nextNumber e.rows = .ok n ∧ (Text.printInteger? n).isSome = true := by
  rcases hrows : e.rows with _ | ⟨row, rest⟩ <;> simp only [nextNumber]
  · exact ⟨1, rfl, isSome_printInteger?_one⟩
  have hm : row ∈ e.rows := hrows ▸ List.mem_cons_self
  rcases ht.2 he row hm with h | ⟨id, h⟩ <;> rw [h]
  · exact ⟨1, rfl, isSome_printInteger?_one⟩
  · dsimp only [Datum.text]
    rcases hnum : ProblemId.number? id with _ | n
    · exact ⟨1, rfl, isSome_printInteger?_one⟩
    · exact ⟨n + 1, rfl, hn he row hm id n h hnum⟩

/-- A type that can be written has a new id when there is a next number. -/
theorem exists_newId {b : Builder} {type : Datum} {s s₁ : Option Database} {e : Exchange}
    (ha : b.ask .latestProblem [("problemType", type)] s = (e.rows, s₁))
    (he : e.statement = .latestProblem) (ht : e.Typed) (hn : e.HasNext)
    (hw : type.isWritable = true) : ∃ id, b.newId type s = (.ok id, s₁) := by
  obtain ⟨n, hnumber, hp⟩ := exists_nextNumber he ht hn
  refine ⟨s!"{type.asText}-{ProblemId.numberText n}", ?_⟩
  rw [newId, ha]
  simp only [hnumber, Datum.write, hw, if_true, bind, Except.bind, ProblemId.write, hp]

/-- The exchanges that write a problem: the latest id is asked for if one is needed, and the
problem is merged unless there is no new id or the problem cannot be noted. -/
theorem createProblem_exchanges (b : Builder) (draft : ProblemDraft) (d : Database) :
    ∃ asked d₁, b.Asks d asked d₁ ∧ (∀ e ∈ asked, e.statement = .latestProblem) ∧
      ((∃ f, b.createProblem draft (some d) = (.error f, some d₁) ∧
          (Notable (problemNotes draft) → ∃ e ∈ asked, ¬(e.Typed ∧ e.HasNext))) ∨
        ∃ e d₂, b.Asks d₁ [e] d₂ ∧ e.Merges draft ∧
          b.createProblem draft (some d) =
            (.ok (e.done, { draft with id := e.problem }), some d₂)) := by
  unfold createProblem
  split_ifs with hid
  · rcases hn : note [draft.id, draft.type] with f | _
    · exact ⟨[], d, .nil, by simp, .inl ⟨f, rfl, fun h => absurd h (not_notable_of_error hn)⟩⟩
    obtain ⟨e, d₁, he, hq, hdone⟩ :=
      b.succeeds_exchange .mergeProblem (problemParameters draft) d
    refine ⟨[], d, .nil, by simp, .inr ⟨e, d₁, he, ⟨draft.id, hq, fun _ => rfl⟩, ?_⟩⟩
    dsimp only
    rw [mergeProblem, hdone, problem_of_query hq]
  · obtain ⟨e, d₁, he, hq, ha⟩ := b.ask_exchange .latestProblem [("problemType", draft.type)] d
    have hs : e.statement = .latestProblem := congrArg Prod.fst hq
    refine ⟨[e], d₁, he, by simpa using hs, ?_⟩
    rcases hn : b.newId draft.type (some d) with ⟨f | id, s⟩ <;>
      obtain rfl : some d₁ = s := by rw [newId, ha] at hn; exact congrArg Prod.snd hn
    · refine .inl ⟨f, rfl, fun hw => ⟨e, List.mem_singleton_self e, fun h => ?_⟩⟩
      obtain ⟨id, hok⟩ := exists_newId ha hs h.1 h.2 (hw draft.type (by simp [problemNotes]))
      rw [hn] at hok
      cases hok
    · obtain ⟨m, d₂, hm, hq, hdone⟩ := b.succeeds_exchange .mergeProblem
        (problemParameters { draft with id := .text id }) d₁
      refine .inr ⟨m, d₂, hm, ⟨.text id, hq, fun h => absurd h hid⟩, ?_⟩
      dsimp only
      rw [mergeProblem, hdone, problem_of_query hq]

theorem length_upserted (log : List Exchange) : (upserted log).length = log.countP upserts := by
  rw [upserted, List.length_map, List.countP_eq_length_filter]

theorem upserted_append (log later : List Exchange) :
    upserted (log ++ later) = upserted log ++ upserted later := by
  simp [upserted]

/-- What is asked for one problem adds its id if it was written. -/
theorem upserted_of_merges {asked : List Exchange} (ha : ∀ e ∈ asked, e.statement = .latestProblem)
    {e : Exchange} {draft : ProblemDraft} (he : e.Merges draft) :
    upserted (asked ++ [e]) = if e.done then [e.problem] else [] := by
  have hnone : asked.filter upserts = [] :=
    List.filter_eq_nil_iff.2 fun e he => by simp [upserts, ha e he]
  rw [upserted, List.filter_append, hnone, List.nil_append]
  cases hd : e.done <;> simp [upserts, he.statement_eq, hd]

/-- The exchanges that write problems: only active ones are merged, and each of these is counted
as written or as failed. -/
theorem createProblems_exchanges (b : Builder) (drafts : List ProblemDraft) (w : Written)
    (d : Database) : ∃ log d₁, b.Asks d log d₁ ∧
      (∀ e ∈ log, e.statement = .latestProblem ∨
        ∃ draft ∈ drafts, draft.active.isTruthy = true ∧ e.Merges draft) ∧
      ((∃ f, b.createProblems drafts w (some d) = (.error f, some d₁) ∧
          ((∀ draft ∈ drafts, draft.active.isTruthy = true → Notable (problemNotes draft)) →
            ∃ e ∈ log, ¬(e.Typed ∧ e.HasNext))) ∨
        ∃ failed problems, b.createProblems drafts w (some d) =
            (.ok ⟨{ w.tally with
                problems := w.tally.problems + log.countP upserts
                failed := w.tally.failed + failed }, w.ids ++ upserted log, problems⟩, some d₁) ∧
          log.countP upserts + failed = drafts.countP (·.active.isTruthy)) := by
  induction drafts generalizing w d with
  | nil =>
    exact ⟨[], d, .nil, by simp, .inr ⟨0, w.problems, by simp [createProblems, upserted], rfl⟩⟩
  | cons draft rest ih =>
    unfold createProblems
    by_cases hactive : draft.active.isTruthy = true
    · rw [if_pos hactive, List.countP_cons, if_pos hactive]
      obtain ⟨asked, d₁, hasked, hlatest, ⟨f, hf, hbad⟩ | ⟨e, d₂, he, hm, hok⟩⟩ :=
        b.createProblem_exchanges draft d
      · rw [hf]
        exact ⟨asked, d₁, hasked, fun e he => .inl (hlatest e he),
          .inl ⟨f, rfl, fun hw => hbad (hw draft List.mem_cons_self hactive)⟩⟩
      rw [hok]
      obtain ⟨log, d₃, hlog, hall, hend⟩ := ih (w.add e.done { draft with id := e.problem }) d₂
      refine ⟨asked ++ [e] ++ log, d₃, (hasked.append he).append hlog, fun e' he' => ?_, ?_⟩
      · rcases List.mem_append.1 he' with he' | he'
        · rcases List.mem_append.1 he' with he' | he'
          · exact .inl (hlatest e' he')
          · rw [List.mem_singleton.1 he']
            exact .inr ⟨draft, List.mem_cons_self, hactive, hm⟩
        · exact (hall e' he').imp_right List.exists_mem_cons_of_exists
      rcases hend with ⟨f, hf, hbad⟩ | ⟨failed, problems, hr, hsum⟩
      · refine .inl ⟨f, hf, fun hw => ?_⟩
        obtain ⟨e', he', hb⟩ := hbad (List.forall_mem_of_forall_mem_cons hw)
        exact ⟨e', List.mem_append_right _ he', hb⟩
      · right
        rw [← length_upserted] at hr hsum ⊢
        rw [upserted_append, upserted_of_merges hlatest hm]
        dsimp only
        rw [hr]
        cases e.done
        · refine ⟨failed + 1, problems, ?_, by simp; omega⟩
          simp [Written.add]
          omega
        · refine ⟨failed, problems, ?_, by simp; omega⟩
          simp [Written.add]
          omega
    · rw [if_neg hactive, List.countP_cons, if_neg hactive]
      obtain ⟨log, d₁, hlog, hall, hend⟩ := ih { w with problems := w.problems ++ [draft] } d
      refine ⟨log, d₁, hlog, fun e he => (hall e he).imp_right List.exists_mem_cons_of_exists,
        hend.imp_left ?_⟩
      rintro ⟨f, hf, hbad⟩
      exact ⟨f, hf, fun hw => hbad (List.forall_mem_of_forall_mem_cons hw)⟩

end Problems

section Steps

/-- A step that looks something up or replies is merged in one exchange; any other is told of. -/
theorem createStep_exchanges (b : Builder) (draft : StepDraft) (d : Database) :
    ∃ log d₁, b.Asks d log d₁ ∧
      (∀ e ∈ log, e.statement = .mergeStep ∧ e.problem = draft.problem) ∧
      ((∃ f, b.createStep draft (some d) = (.error f, some d₁) ∧ ¬Notable (stepNotes draft)) ∨
        b.createStep draft (some d) = (.ok (decide (log.countP done = 1)), some d₁) ∧
          log.countP done ≤ 1) := by
  unfold createStep
  split_ifs with hop
  · obtain ⟨e, d₁, he, hq, hdone⟩ := b.succeeds_exchange .mergeStep
      [("problemId", draft.problem), ("stepId", draft.id), ("operation", draft.operation),
        ("properties", .dict draft.properties)] d
    refine ⟨[e], d₁, he, fun e' he' => ?_, .inr ⟨?_, List.countP_le_length⟩⟩
    · rw [List.mem_singleton.1 he']
      exact ⟨congrArg Prod.fst hq, problem_of_query hq⟩
    · rw [hdone, List.countP_singleton]
      cases e.done <;> rfl
  · refine ⟨[], d, .nil, by simp, ?_⟩
    rcases hn : note [draft.operation, draft.problem, draft.id] with f | _
    · refine .inl ⟨f, rfl, ?_⟩
      rw [stepNotes, if_neg hop]
      exact not_notable_of_error hn
    · exact .inr ⟨rfl, Nat.zero_le 1⟩

/-- The exchanges that write steps: each step is counted as written or as failed. -/
theorem createSteps_exchanges (b : Builder) (drafts : List StepDraft) (tally : Tally)
    (d : Database) : ∃ log d₁, b.Asks d log d₁ ∧
      (∀ e ∈ log, e.statement = .mergeStep ∧ ∃ draft ∈ drafts, e.problem = draft.problem) ∧
      ((∃ f, b.createSteps drafts tally (some d) = (.error f, some d₁) ∧
          ¬∀ draft ∈ drafts, Notable (stepNotes draft)) ∨
        ∃ failed, b.createSteps drafts tally (some d) =
            (.ok { tally with
              steps := tally.steps + log.countP done
              failed := tally.failed + failed }, some d₁) ∧
          log.countP done + failed = drafts.length) := by
  induction drafts generalizing tally d with
  | nil => exact ⟨[], d, .nil, by simp, .inr ⟨0, rfl, rfl⟩⟩
  | cons draft rest ih =>
    obtain ⟨log, d₁, hlog, hall, hr⟩ := b.createStep_exchanges draft d
    have hmine : ∀ e ∈ log, e.statement = .mergeStep ∧
        ∃ other ∈ draft :: rest, e.problem = other.problem := fun e he =>
      (hall e he).imp_right fun h => ⟨draft, List.mem_cons_self, h⟩
    rcases hr with ⟨f, hf, hbad⟩ | ⟨hone, hle⟩
    · refine ⟨log, d₁, hlog, hmine, .inl ⟨f, ?_, fun hw => hbad (hw draft List.mem_cons_self)⟩⟩
      rw [createSteps, hf]
    generalize hn : log.countP done = n at hone hle
    obtain ⟨later, d₂, hlater, hmore, hend⟩ :=
      ih ⟨tally.problems, tally.steps + n, tally.relations, tally.failed + (1 - n)⟩ d₁
    have hstep : b.createSteps (draft :: rest) tally (some d) = b.createSteps rest
        ⟨tally.problems, tally.steps + n, tally.relations, tally.failed + (1 - n)⟩ (some d₁) := by
      rw [createSteps, hone]
      obtain rfl | rfl : n = 0 ∨ n = 1 := by omega
      · rfl
      · rfl
    rw [hstep]
    refine ⟨log ++ later, d₂, hlog.append hlater, fun e he => ?_, ?_⟩
    · rcases List.mem_append.1 he with he | he
      · exact hmine e he
      · exact (hmore e he).imp_right List.exists_mem_cons_of_exists
    rcases hend with ⟨f, hf, hbad⟩ | ⟨failed, hr, hsum⟩
    · exact .inl ⟨f, hf, fun hw => hbad (List.forall_mem_of_forall_mem_cons hw)⟩
    · refine .inr ⟨1 - n + failed, ?_, ?_⟩ <;> rw [List.countP_append, hn]
      · rw [hr, Nat.add_assoc, Nat.add_assoc]
      · rw [List.length_cons]
        omega

end Steps

end Builder

end Playbook
