import Playbook.Proofs.Exchanges

/-!
# What is asked to write a playbook

A relation is written in one exchange that comes right after counts which found its problem and its
ends (`Builder.Preceded`), or else it is not written (`Builder.createRelation_exchanges`). A whole
playbook is written by the exchanges for its problems, then those for steps, then those for
relations (`Builder.createGraph_exchanges`).
-/

namespace Playbook

/-- What a count does not find can be noted. -/
def Exchange.Tellable (e : Exchange) : Prop :=
  e.counts = true → Builder.countIn "count" e.rows = .ok 0 →
    ∀ parameter ∈ e.parameters, parameter.2.isWritable = true

namespace Builder

open Exchange

variable {b : Builder} {d d₁ d₂ : Database} {log later : List Exchange}

section Relations

/-- What has to be counted for a relation: its problem, and then its ends. -/
def checks (draft : RelationDraft) : List (Statement × List (String × Datum)) :=
  (.countProblem, [("problemId", draft.problem)]) ::
    (endsOf draft).map fun id => (.countStep, [("problemId", draft.problem), ("stepId", id)])

/-- What writes a relation. -/
def creation (draft : RelationDraft) : Statement × List (String × Datum) :=
  (relationStatement draft, [("problemId", draft.problem), ("fromStepId", draft.source),
    ("toStepId", draft.target), ("condition", draft.condition)])

theorem exists_countIn {e : Exchange} (he : e.counts = true) (ht : e.Typed) :
    ∃ n, countIn "count" e.rows = .ok n := by
  rcases hrows : e.rows with _ | ⟨row, rest⟩
  · exact ⟨0, rfl⟩
  unfold countIn
  rcases ht.1 he row (hrows ▸ List.mem_cons_self) with h | ⟨n, h⟩ <;> simp only [h]
  · exact ⟨0, rfl⟩
  · split_ifs
    · exact ⟨n, rfl⟩
    · exact ⟨0, rfl⟩

/-- What comes of counting what has to be there, as far as all of it is found: the counts are about
a problem, and they fail only when an answer is no number or what is not there cannot be noted. -/
def Checked (b : Builder) (problem : Datum) (queries : List (Statement × List (String × Datum)))
    (d : Database) (r : Except Fault Bool × Option Database) : Prop :=
  ∃ log d₁, b.Asks d log d₁ ∧ r.2 = some d₁ ∧
    (∀ e ∈ log, e.counts = true ∧ e.problem = problem) ∧
    (∀ f, r.1 = .error f → ∃ e ∈ log, ¬(e.Typed ∧ e.Tellable)) ∧
    (r.1 = .ok true → (∀ e ∈ log, e.Finds) ∧ log.map query = queries)

/-- One more count comes before the others. -/
theorem Checked.count {problem : Datum} {queries : List (Statement × List (String × Datum))}
    {data : List Datum} {next : Attempt (Option Database) Bool}
    (h : ∀ d, b.Checked problem queries d (next (some d))) {statement : Statement}
    (hs : statement = .countProblem ∨ statement = .countStep) (others : List (String × Datum))
    (hdata : ∀ x ∈ data, ∃ name, (name, x) ∈ ("problemId", problem) :: others) (d : Database) :
    b.Checked problem ((statement, ("problemId", problem) :: others) :: queries) d
      (match b.count statement (("problemId", problem) :: others) (some d) with
      | (.error f, s) => (.error f, s)
      | (.ok n, s) => if n = 0 then ((note data).map fun _ => false, s) else next s) := by
  obtain ⟨e, d₁, he, hq, ha⟩ := b.ask_exchange statement (("problemId", problem) :: others) d
  have hcount : b.count statement (("problemId", problem) :: others) (some d) =
      (countIn "count" e.rows, some d₁) := by rw [Builder.count, ha]
  have hstatement : e.statement = statement := congrArg Prod.fst hq
  have hcounts : e.counts = true := by
    rcases hs with rfl | rfl <;> simp [counts, hstatement]
  have hall : ∀ e' ∈ [e], e'.counts = true ∧ e'.problem = problem := fun e' he' => by
    rw [List.mem_singleton.1 he']
    exact ⟨hcounts, problem_of_query hq⟩
  rw [hcount]
  rcases hn : countIn "count" e.rows with f | n
  · refine ⟨[e], d₁, he, rfl, hall, fun _ _ => ⟨e, List.mem_singleton_self e, fun ht => ?_⟩, nofun⟩
    obtain ⟨n, hok⟩ := exists_countIn hcounts ht.1
    rw [hn] at hok
    cases hok
  dsimp only
  split_ifs with hzero
  · refine ⟨[e], d₁, he, rfl, hall, fun f hf => ⟨e, List.mem_singleton_self e, fun ht => ?_⟩,
      fun ht => ?_⟩
    · have hw : Notable data := fun x hx => by
        obtain ⟨name, hm⟩ := hdata x hx
        have hparameters : e.parameters = ("problemId", problem) :: others := congrArg Prod.snd hq
        exact ht.2 hcounts (hzero ▸ hn) (name, x) (hparameters ▸ hm)
      rw [note_of_notable hw] at hf
      cases hf
    · cases hnote : note data <;> rw [hnote] at ht <;> cases ht
  · obtain ⟨log, d₂, hlog, hstate, hmore, hbad, htrue⟩ := h d₁
    refine ⟨[e] ++ log, d₂, he.append hlog, hstate, fun e' he' => ?_, fun f hf => ?_,
      fun ht => ?_⟩
    · exact (List.mem_append.1 he').elim (hall e') (hmore e')
    · obtain ⟨e', he', hb⟩ := hbad f hf
      exact ⟨e', List.mem_append_right _ he', hb⟩
    · obtain ⟨hfinds, hqueries⟩ := htrue ht
      refine ⟨fun e' he' => ?_, by rw [← hqueries, ← hq]; rfl⟩
      rcases List.mem_cons.1 he' with rfl | he'
      · exact ⟨n, hzero, hn⟩
      · exact hfinds e' he'

theorem hasSteps_checked (b : Builder) (problem : Datum) (ids : List Datum) (d : Database) :
    b.Checked problem
      (ids.map fun id => (.countStep, [("problemId", problem), ("stepId", id)])) d
      (b.hasSteps problem ids (some d)) := by
  induction ids generalizing d with
  | nil => exact ⟨[], d, .nil, rfl, by simp, nofun, fun _ => ⟨by simp, rfl⟩⟩
  | cons id rest ih => exact .count ih (.inr rfl) [("stepId", id)] (by simp) d

theorem hasEnds_checked (b : Builder) (draft : RelationDraft) (d : Database) :
    b.Checked draft.problem (checks draft) d (b.hasEnds draft (some d)) :=
  .count (b.hasSteps_checked draft.problem _) (.inl rfl) [] (by simp) d

/-- What is noted of a relation that is not valid. -/
def refusalNotes (draft : RelationDraft) : List Datum :=
  if draft.defects.isEmpty then [] else draft.fields

/-- In a log each relation that is written is one of some valid ones, and all that has to be there
for it was counted and found just before. -/
def Preceded (drafts : List RelationDraft) (log : List Exchange) : Prop :=
  ∀ earlier e later, log = earlier ++ e :: later → e.creates = true →
    ∃ draft ∈ drafts, draft.defects = [] ∧ e.query = creation draft ∧
      ∃ before counted, earlier = before ++ counted ∧ counted.map query = checks draft ∧
        ∀ c ∈ counted, c.Finds

theorem split_append {xs ys earlier later : List Exchange} {e : Exchange}
    (h : xs ++ ys = earlier ++ e :: later) :
    (∃ rest, xs = earlier ++ e :: rest) ∨
      ∃ rest, earlier = xs ++ rest ∧ ys = rest ++ e :: later := by
  rcases List.append_eq_append_iff.1 h with ⟨rest, he, hy⟩ | ⟨rest, hx, hl⟩
  · exact .inr ⟨rest, he, hy⟩
  · cases rest with
    | nil => exact .inr ⟨[], by simpa using hx.symm, by simpa using hl.symm⟩
    | cons e' rest =>
      cases hl
      exact .inl ⟨rest, hx⟩

theorem creates_of_counts {e : Exchange} (h : e.counts = true) : e.creates = false := by
  simp only [Exchange.counts, Bool.or_eq_true, decide_eq_true_eq] at h
  rcases h with hs | hs <;> simp [Exchange.creates, hs]

theorem creates_of_query {e : Exchange} {draft : RelationDraft} (h : e.query = creation draft) :
    e.creates = true := by
  have hs : e.statement = relationStatement draft := congrArg Prod.fst h
  unfold Exchange.creates
  rw [hs]
  unfold relationStatement
  split_ifs <;> rfl

theorem preceded_of_counts {drafts : List RelationDraft} {log : List Exchange}
    (h : ∀ e ∈ log, e.counts = true) : Preceded drafts log := by
  intro earlier e later hlog hc
  rw [creates_of_counts (h e (hlog ▸ List.mem_append_right _ List.mem_cons_self))] at hc
  cases hc

theorem Preceded.append {drafts : List RelationDraft} {log later : List Exchange}
    (h : Preceded drafts log) (hl : Preceded drafts later) : Preceded drafts (log ++ later) := by
  intro earlier e after he hc
  rcases split_append he with ⟨rest, hx⟩ | ⟨rest, rfl, hy⟩
  · exact h earlier e rest hx hc
  · obtain ⟨draft, hd, hv, hq, before, counted, rfl, hf⟩ := hl rest e after hy hc
    exact ⟨draft, hd, hv, hq, log ++ before, counted, (List.append_assoc ..).symm, hf⟩

theorem Preceded.mono {drafts more : List RelationDraft} {log : List Exchange}
    (h : Preceded drafts log) (hd : ∀ d ∈ drafts, d ∈ more) : Preceded more log := by
  intro earlier e later hlog hc
  obtain ⟨draft, hm, hrest⟩ := h earlier e later hlog hc
  exact ⟨draft, hd draft hm, hrest⟩

theorem preceded_creation {draft : RelationDraft} {counted : List Exchange} {e : Exchange}
    (hv : draft.defects = []) (hc : ∀ c ∈ counted, c.counts = true ∧ c.Finds)
    (hqs : counted.map query = checks draft) (hq : e.query = creation draft) :
    Preceded [draft] (counted ++ [e]) := by
  intro earlier e' later he hcreates
  rcases split_append he with ⟨rest, hx⟩ | ⟨rest, rfl, hy⟩
  · exact preceded_of_counts (fun c h => (hc c h).1) earlier e' rest hx hcreates
  · obtain ⟨rfl, rfl⟩ : rest = [] ∧ e' = e := by
      cases rest with
      | nil => exact ⟨rfl, (List.cons.inj hy).1.symm⟩
      | cons _ rest => cases rest <;> cases hy
    exact ⟨draft, List.mem_singleton_self _, hv, hq, [], counted, by simp, hqs,
      fun c h => (hc c h).2⟩

/-- The exchanges that write a relation: a valid one is written once its problem and its ends were
found, and nothing is written otherwise. -/
theorem createRelation_exchanges (b : Builder) (draft : RelationDraft) (d : Database) :
    ∃ log d₁, b.Asks d log d₁ ∧
      (∀ e ∈ log, (e.counts = true ∨ e.creates = true) ∧ e.problem = draft.problem) ∧
      Preceded [draft] log ∧
      ((∃ f, b.createRelation draft (some d) = (.error f, some d₁) ∧
          (Notable (refusalNotes draft) → ∃ e ∈ log, ¬(e.Typed ∧ e.Tellable))) ∨
        b.createRelation draft (some d) =
            (.ok (decide (log.countP (fun e => e.creates && e.done) = 1)), some d₁) ∧
          log.countP (fun e => e.creates && e.done) ≤ 1) := by
  unfold createRelation
  split_ifs with hv
  · obtain ⟨log, d₁, hlog, hstate, hall, hbad, htrue⟩ := b.hasEnds_checked draft d
    have hnone : log.countP (fun e => e.creates && e.done) = 0 :=
      List.countP_eq_zero.2 fun e he => by simp [creates_of_counts (hall e he).1]
    have hasked : ∀ e ∈ log, (e.counts = true ∨ e.creates = true) ∧ e.problem = draft.problem :=
      fun e he => (hall e he).imp_left .inl
    have hpreceded : Preceded [draft] log := preceded_of_counts fun e he => (hall e he).1
    rcases hr : b.hasEnds draft (some d) with ⟨f | found, s⟩ <;> rw [hr] at hstate hbad htrue <;>
      obtain rfl : s = some d₁ := hstate
    · exact ⟨log, d₁, hlog, hasked, hpreceded, .inl ⟨f, rfl, fun _ => hbad f rfl⟩⟩
    cases found
    · exact ⟨log, d₁, hlog, hasked, hpreceded, .inr (hnone ▸ ⟨rfl, Nat.zero_le 1⟩)⟩
    obtain ⟨hfinds, hqueries⟩ := htrue rfl
    obtain ⟨e, d₂, he, hq, hdone⟩ := b.succeeds_exchange (relationStatement draft)
      [("problemId", draft.problem), ("fromStepId", draft.source), ("toStepId", draft.target),
        ("condition", draft.condition)] d₁
    have hone : (log ++ [e]).countP (fun e => e.creates && e.done) = if e.done then 1 else 0 := by
      rw [List.countP_append, hnone, List.countP_singleton, creates_of_query hq]
      simp
    refine ⟨log ++ [e], d₂, hlog.append he, fun e' he' => ?_,
      preceded_creation (List.isEmpty_iff.1 hv) (fun c hc => ⟨(hall c hc).1, hfinds c hc⟩) hqueries
        hq, .inr ?_⟩
    · rcases List.mem_append.1 he' with he' | he'
      · exact hasked e' he'
      · rw [List.mem_singleton.1 he']
        exact ⟨.inr (creates_of_query hq), problem_of_query hq⟩
    · rw [hone]
      dsimp only
      rw [hdone]
      cases e.done
      · exact ⟨rfl, Nat.zero_le 1⟩
      · exact ⟨rfl, Nat.le_refl 1⟩
  · refine ⟨[], d, .nil, by simp, preceded_of_counts (by simp), ?_⟩
    rcases hn : note draft.fields with f | _
    · refine .inl ⟨f, rfl, ?_⟩
      rw [refusalNotes, if_neg hv]
      exact fun hw => absurd hw (not_notable_of_error hn)
    · exact .inr ⟨rfl, Nat.zero_le 1⟩

/-- The exchanges that write relations: each relation is counted as written or as failed. -/
theorem createRelations_exchanges (b : Builder) (drafts : List RelationDraft) (tally : Tally)
    (d : Database) : ∃ log d₁, b.Asks d log d₁ ∧
      (∀ e ∈ log, (e.counts = true ∨ e.creates = true) ∧
        ∃ draft ∈ drafts, e.problem = draft.problem) ∧
      Preceded drafts log ∧
      ((∃ f, b.createRelations drafts tally (some d) = (.error f, some d₁) ∧
          ((∀ draft ∈ drafts, Notable (refusalNotes draft)) →
            ∃ e ∈ log, ¬(e.Typed ∧ e.Tellable))) ∨
        ∃ failed, b.createRelations drafts tally (some d) =
            (.ok { tally with
              relations := tally.relations + log.countP (fun e => e.creates && e.done)
              failed := tally.failed + failed }, some d₁) ∧
          log.countP (fun e => e.creates && e.done) + failed = drafts.length) := by
  induction drafts generalizing tally d with
  | nil => exact ⟨[], d, .nil, by simp, preceded_of_counts (by simp), .inr ⟨0, rfl, rfl⟩⟩
  | cons draft rest ih =>
    obtain ⟨log, d₁, hlog, hall, hpreceded, hr⟩ := b.createRelation_exchanges draft d
    have hmine : ∀ e ∈ log, (e.counts = true ∨ e.creates = true) ∧
        ∃ other ∈ draft :: rest, e.problem = other.problem := fun e he =>
      (hall e he).imp_right fun h => ⟨draft, List.mem_cons_self, h⟩
    have hfirst : Preceded (draft :: rest) log :=
      hpreceded.mono fun other ho => List.mem_singleton.1 ho ▸ List.mem_cons_self
    rcases hr with ⟨f, hf, hbad⟩ | ⟨hone, hle⟩
    · refine ⟨log, d₁, hlog, hmine, hfirst,
        .inl ⟨f, ?_, fun hw => hbad (hw draft List.mem_cons_self)⟩⟩
      rw [createRelations, hf]
    generalize hn : log.countP (fun e => e.creates && e.done) = n at hone hle
    obtain ⟨later, d₂, hlater, hmore, hp, hend⟩ :=
      ih ⟨tally.problems, tally.steps, tally.relations + n, tally.failed + (1 - n)⟩ d₁
    have hstep : b.createRelations (draft :: rest) tally (some d) = b.createRelations rest
        ⟨tally.problems, tally.steps, tally.relations + n, tally.failed + (1 - n)⟩ (some d₁) := by
      rw [createRelations, hone]
      obtain rfl | rfl : n = 0 ∨ n = 1 := by omega
      · rfl
      · rfl
    rw [hstep]
    refine ⟨log ++ later, d₂, hlog.append hlater, fun e he => ?_,
      hfirst.append (hp.mono fun other ho => List.mem_cons_of_mem _ ho), ?_⟩
    · rcases List.mem_append.1 he with he | he
      · exact hmine e he
      · exact (hmore e he).imp_right List.exists_mem_cons_of_exists
    rcases hend with ⟨f, hf, hbad⟩ | ⟨failed, hr, hsum⟩
    · refine .inl ⟨f, hf, fun hw => ?_⟩
      obtain ⟨e, he, hb⟩ := hbad (List.forall_mem_of_forall_mem_cons hw)
      exact ⟨e, List.mem_append_right _ he, hb⟩
    · refine .inr ⟨1 - n + failed, ?_, ?_⟩ <;> rw [List.countP_append, hn]
      · rw [hr, Nat.add_assoc, Nat.add_assoc]
      · rw [List.length_cons]
        omega

end Relations

section Whole

theorem createGraph_of_steps_error (b : Builder) {problems : List ProblemDraft} {w : Written}
    {s s₁ s₂ : Option Database} {steps : List StepDraft} {f : Fault}
    (hp : b.createProblems problems ⟨.zero, [], []⟩ s = (.ok w, s₁))
    (hs : b.createSteps (steps.filter fun step => isAmong w.ids step.problem) w.tally s₁ =
      (.error f, s₂)) (relations : List RelationDraft) :
    b.createGraph problems steps relations s = (.error f, s₂) := by
  unfold createGraph
  simp only [hp, hs]

theorem createGraph_of_parts (b : Builder) {problems : List ProblemDraft} {w : Written}
    {s s₁ s₂ s₃ : Option Database} {steps : List StepDraft} {relations : List RelationDraft}
    {tally : Tally} {r : Except Fault Tally}
    (hp : b.createProblems problems ⟨.zero, [], []⟩ s = (.ok w, s₁))
    (hs : b.createSteps (steps.filter fun step => isAmong w.ids step.problem) w.tally s₁ =
      (.ok tally, s₂))
    (hr : b.createRelations (relations.filter fun relation => isAmong w.ids relation.problem)
      tally s₂ = (r, s₃)) :
    b.createGraph problems steps relations s =
      (r.map fun tally => (tally, w.problems), s₃) := by
  unfold createGraph
  simp only [hp, hs, hr]
  cases r <;> rfl

end Whole

end Builder

end Playbook
