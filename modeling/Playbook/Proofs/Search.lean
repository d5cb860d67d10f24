import Mathlib.Data.List.Nodup
import Mathlib.Tactic.Tauto
import Playbook.Audit
import Playbook.Proofs.Distance

/-!
# The search of an audit

An audit takes in the steps of one level after the other. What it records of a step depends on the
step alone (`visitStep_findings`), and what it gathers for the next level are the new steps that
the level leads to (`Gathers`). So the levels are the steps at each distance from the first, each
once, and the audit has seen just what is as near or nearer (`Frontier`). From this follow the
ends and the validity of a report (`problem_exact`). An audit that keeps a queue of steps reports
the same (`problem_eq_problemByQueue`).
-/

namespace Playbook.Audit

open LocalGraph

variable {graph : LocalGraph} {problem : Option String} {first : Step}

/-- Nothing follows the step. -/
def Terminal (graph : LocalGraph) (problem : Option String) (s : Step) : Prop :=
  graph.relationsFrom problem s.id = []

instance (graph : LocalGraph) (problem : Option String) (s : Step) :
    Decidable (Terminal graph problem s) :=
  inferInstanceAs (Decidable (_ = _))

/-- A guarded relation without a condition leads on from the step. -/
def Unguarded (graph : LocalGraph) (problem : Option String) (s : Step) : Prop :=
  ∃ relation ∈ graph.relationsFrom problem s.id,
    relation.type = some guardedRelation ∧ isUnstated relation.condition = true

/-- An audit finds nothing wrong at the step. -/
def Sound (graph : LocalGraph) (problem : Option String) (s : Step) : Prop :=
  (Terminal graph problem s → s.isReply = true) ∧ ¬ Unguarded graph problem s

/-- What a report says about a step where the problem can end. -/
def label (s : Step) : Option Int × Option String := (s.id, s.operation)

/-- The numbers that an audit tells of at the step can be written: its own if nothing follows and it
does not reply, and those at both ends of a guarded relation without a condition. -/
def Tellable (graph : LocalGraph) (problem : Option String) (s : Step) : Prop :=
  (Terminal graph problem s → s.isReply = false → s.Writable) ∧
    ∀ relation ∈ graph.relationsFrom problem s.id, relation.type = some guardedRelation →
      isUnstated relation.condition = true →
        s.Writable ∧ (shownNumber relation.target).isOk = true

/-- A guarded candidate without a condition. -/
def Bare (c : Candidate) : Prop :=
  c.type = some guardedRelation ∧ isUnstated c.condition = true

instance (c : Candidate) : Decidable (Bare c) :=
  inferInstanceAs (Decidable (_ ∧ _))

theorem unguarded_iff {s : Step} {candidates : List Candidate}
    (h : graph.candidates problem s.id = .ok candidates) :
    Unguarded graph problem s ↔ ∃ c ∈ candidates, Bare c := by
  constructor
  · rintro ⟨r, hr, ht, hu⟩
    obtain ⟨c, hc, hf⟩ := mapM_ok_of_mem h r hr
    obtain ⟨-, ht', hc'⟩ := candidate_eq_ok_iff.1 hf
    exact ⟨c, hc, by rw [ht', ht], by rw [hc', hu]⟩
  · rintro ⟨c, hc, ht, hu⟩
    obtain ⟨r, hr, hf⟩ := mem_of_mapM_ok h c hc
    obtain ⟨-, ht', hc'⟩ := candidate_eq_ok_iff.1 hf
    exact ⟨r, hr, by rw [← ht', ht], by rw [← hc', hu]⟩

theorem tellable_iff {s : Step} {candidates : List Candidate}
    (h : graph.candidates problem s.id = .ok candidates) :
    Tellable graph problem s ↔ (candidates = [] → s.isReply = false → s.Writable) ∧
      ∀ c ∈ candidates, Bare c → s.Writable ∧ c.step.Writable := by
  unfold Tellable Terminal
  rw [← candidates_nil_iff h]
  refine and_congr_right fun _ => ?_
  constructor
  · rintro ht c hc ⟨hg, hu⟩
    obtain ⟨r, hr, hf⟩ := mem_of_mapM_ok h c hc
    obtain ⟨hs, hg', hu'⟩ := candidate_eq_ok_iff.1 hf
    have hid : c.step.id = r.target := congrArg Prod.snd (key_of_get? hs)
    unfold Step.Writable
    rw [hid]
    exact ht r hr (hg' ▸ hg) (hu' ▸ hu)
  · intro hc r hr hg hu
    obtain ⟨c, hm, hf⟩ := mapM_ok_of_mem h r hr
    obtain ⟨hs, hg', hu'⟩ := candidate_eq_ok_iff.1 hf
    have hid : c.step.id = r.target := congrArg Prod.snd (key_of_get? hs)
    rw [← hid]
    exact hc c hm ⟨hg' ▸ hg, hu' ▸ hu⟩

section Records

variable {s : Step} {c : Candidate} {candidates : List Candidate} {f : Fault}
  {issues : List Issue} {findings : Findings} {level : List Step}
  {found found' : Findings × List Step}

theorem guardIssues_of_bare (h : Bare c) : guardIssues s c = do
    return [.noCondition (← shownNumber s.id) (← shownNumber c.step.id)] := by
  simp [guardIssues, h.1, h.2]

theorem guardIssues_of_not_bare (h : ¬ Bare c) : guardIssues s c = .ok [] := by
  unfold guardIssues
  rw [if_neg (by simpa [Bare] using h)]
  rfl

theorem guardIssues_eq_ok (h : guardIssues s c = .ok issues) :
    (issues = [] ↔ ¬ Bare c) ∧ (Bare c → s.Writable ∧ c.step.Writable) := by
  by_cases hb : Bare c
  · rw [guardIssues_of_bare hb] at h
    by_cases hs : s.Writable
    · obtain ⟨t, ht⟩ := hs.shown
      by_cases hc : c.step.Writable
      · obtain ⟨t', ht'⟩ := hc.shown
        rw [ht, ht'] at h
        cases h
        exact ⟨by simp [hb], fun _ => ⟨hs, hc⟩⟩
      · rw [ht, Step.shown_of_not_writable hc] at h
        cases h
    · rw [Step.shown_of_not_writable hs] at h
      cases h
  · rw [guardIssues_of_not_bare hb] at h
    cases h
    exact ⟨iff_of_true rfl hb, fun h => absurd h hb⟩

theorem guardIssues_error (h : guardIssues s c = .error f) :
    f = .integerTooLong ∧ Bare c ∧ ¬ (s.Writable ∧ c.step.Writable) := by
  by_cases hb : Bare c
  · rw [guardIssues_of_bare hb] at h
    by_cases hs : s.Writable
    · obtain ⟨t, ht⟩ := hs.shown
      by_cases hc : c.step.Writable
      · obtain ⟨t', ht'⟩ := hc.shown
        rw [ht, ht'] at h
        cases h
      · rw [ht, Step.shown_of_not_writable hc] at h
        cases h
        exact ⟨rfl, hb, fun hw => hc hw.2⟩
    · rw [Step.shown_of_not_writable hs] at h
      cases h
      exact ⟨rfl, hb, fun hw => hs hw.1⟩
  · rw [guardIssues_of_not_bare hb] at h
    cases h

/-- What a candidate adds: no end, an issue if it is bare, and its step if that is new. -/
theorem visitCandidate_eq_ok (h : visitCandidate s found c = .ok found') :
    ∃ issues, guardIssues s c = .ok issues ∧ found' =
      if c.step.key ∈ found.1.seen then
        ({ found.1 with issues := found.1.issues ++ issues }, found.2)
      else ({ found.1 with issues := found.1.issues ++ issues, seen := c.step.key :: found.1.seen },
        found.2 ++ [c.step]) := by
  unfold visitCandidate at h
  rcases hg : guardIssues s c with f | issues
  · simp [hg, bind, Except.bind] at h
  · simp only [hg, bind, Except.bind] at h
    refine ⟨issues, rfl, ?_⟩
    split_ifs at h ⊢ <;> exact (Except.ok.inj h).symm

theorem visitCandidate_error (h : visitCandidate s found c = .error f) :
    guardIssues s c = .error f := by
  unfold visitCandidate at h
  rcases hg : guardIssues s c with f | issues
  · simpa [hg, bind, Except.bind] using h
  · simp only [hg, bind, Except.bind] at h
    split_ifs at h <;> cases h

theorem foldlM_visitCandidate_eq_ok : ∀ {candidates : List Candidate}
    {found found' : Findings × List Step},
    candidates.foldlM (visitCandidate s) found = .ok found' →
      found'.1.ends = found.1.ends ∧
      (found'.1.issues = [] ↔ found.1.issues = [] ∧ ¬ ∃ c ∈ candidates, Bare c) ∧
      ∀ c ∈ candidates, Bare c → s.Writable ∧ c.step.Writable
  | [], found, found', h => by
    cases h
    simp
  | c :: rest, found, found', h => by
    rw [List.foldlM_cons] at h
    rcases hc : visitCandidate s found c with f | mid <;> rw [hc] at h
    · cases h
    obtain ⟨issues, hg, hmid⟩ := visitCandidate_eq_ok hc
    obtain ⟨hb, hw⟩ := guardIssues_eq_ok hg
    obtain ⟨he, hi, ht⟩ := foldlM_visitCandidate_eq_ok h
    have hends : mid.1.ends = found.1.ends := by
      rw [hmid]
      split_ifs <;> rfl
    have hissues : mid.1.issues = found.1.issues ++ issues := by
      rw [hmid]
      split_ifs <;> rfl
    refine ⟨he.trans hends, ?_, ?_⟩
    · rw [hi, hissues, List.append_eq_nil_iff, hb]
      simp only [List.mem_cons, exists_eq_or_imp, not_or, and_assoc]
    · rintro c' hm
      rcases List.mem_cons.1 hm with rfl | hm
      · exact hw
      · exact ht c' hm

theorem foldlM_visitCandidate_error : ∀ {candidates : List Candidate}
    {found : Findings × List Step}, candidates.foldlM (visitCandidate s) found = .error f →
      f = .integerTooLong ∧ ∃ c ∈ candidates, Bare c ∧ ¬ (s.Writable ∧ c.step.Writable)
  | [], found, h => by cases h
  | c :: rest, found, h => by
    rw [List.foldlM_cons] at h
    rcases hc : visitCandidate s found c with f' | mid <;> rw [hc] at h
    · obtain ⟨hf, hb⟩ := guardIssues_error (visitCandidate_error hc)
      exact ⟨(Except.error.inj h).symm.trans hf, c, List.mem_cons_self, hb⟩
    · obtain ⟨hf, c', hm, hb⟩ := foldlM_visitCandidate_error h
      exact ⟨hf, c', List.mem_cons_of_mem _ hm, hb⟩

theorem visitStep_nil : visitStep s [] findings level = (endIssues s).map fun issues =>
    ({ findings with ends := findings.ends ++ [label s], issues := findings.issues ++ issues },
      level) := by
  unfold visitStep
  cases endIssues s <;> rfl

theorem visitStep_cons {rest : List Candidate} : visitStep s (c :: rest) findings level =
    (c :: rest).foldlM (visitCandidate s) (findings, level) := rfl

/-- What is recorded of a step: it is an end if nothing follows, and an issue arises unless it is
sound. -/
theorem visitStep_findings (h : graph.candidates problem s.id = .ok candidates)
    (hv : visitStep s candidates findings level = .ok found) :
    found.1.ends = findings.ends ++ ([s].filter (Terminal graph problem)).map label ∧
      (found.1.issues = [] ↔ findings.issues = [] ∧ Sound graph problem s) ∧
        Tellable graph problem s := by
  have hn : candidates = [] ↔ Terminal graph problem s := candidates_nil_iff h
  rw [tellable_iff h, Sound, unguarded_iff h]
  rcases candidates with _ | ⟨c, rest⟩
  · have ht := hn.1 rfl
    rw [visitStep_nil] at hv
    rcases he : endIssues s with f | issues <;> rw [he] at hv
    · cases hv
    cases hv
    unfold endIssues at he
    by_cases hr : s.isReply = true
    · simp only [hr, if_true, pure, Except.pure, Except.ok.injEq] at he
      simp [← he, ht, hr, label]
    · rw [if_neg hr] at he
      rcases hs : shownNumber s.id with f | text <;>
        simp only [hs, bind, Except.bind, pure, Except.pure, Except.ok.injEq, reduceCtorEq] at he
      simp [← he, ht, hr, label, Step.Writable, hs, Except.isOk, Except.toBool]
  · have ht : ¬ Terminal graph problem s := fun ht => by simpa using hn.2 ht
    obtain ⟨he, hi, hw⟩ := foldlM_visitCandidate_eq_ok (visitStep_cons ▸ hv)
    exact ⟨by simp [he, ht], by simp [hi, ht], by simp, hw⟩

theorem visitStep_error (h : graph.candidates problem s.id = .ok candidates)
    (hv : visitStep s candidates findings level = .error f) :
    f = .integerTooLong ∧ ¬ Tellable graph problem s := by
  rw [tellable_iff h]
  rcases candidates with _ | ⟨c, rest⟩
  · rw [visitStep_nil] at hv
    rcases he : endIssues s with f' | issues <;> rw [he] at hv <;> cases hv
    unfold endIssues at he
    split_ifs at he with hr
    · cases he
    rcases hs : shownNumber s.id with f' | text <;>
      simp only [hs, bind, Except.bind, pure, Except.pure, reduceCtorEq, Except.error.injEq] at he
    refine ⟨he ▸ shownNumber_error hs, fun ⟨hw, _⟩ => ?_⟩
    obtain ⟨t, ht⟩ := (hw rfl (by simpa using hr)).shown
    cases hs.symm.trans ht
  · obtain ⟨hf, c', hm, hb, hw⟩ := foldlM_visitCandidate_error (visitStep_cons ▸ hv)
    exact ⟨hf, fun ht => hw (ht.2 c' hm hb)⟩

end Records

section Gathering

/-- From keys seen and a level being gathered to those after the steps of a kind were found: these
are seen, and the new ones are in the level, each once. -/
structure Gathers (graph : LocalGraph) (found : Step → Prop) (seen : List StepKey)
    (level : List Step) (seen' : List StepKey) (level' : List Step) : Prop where
  holds : ∀ s, found s → graph.Holds s
  mem_seen : ∀ s, graph.Holds s → (s.key ∈ seen' ↔ s.key ∈ seen ∨ found s)
  mem_level : ∀ s, s ∈ level' ↔ s ∈ level ∨ s.key ∉ seen ∧ found s
  nodup : level.Nodup → (∀ s ∈ level, s.key ∈ seen) →
    level'.Nodup ∧ ∀ s ∈ level', s.key ∈ seen'

variable {found found' : Step → Prop} {seen seen' seen'' : List StepKey}
  {level level' level'' : List Step}

theorem Gathers.refl (h : ∀ s, ¬ found s) : Gathers graph found seen level seen level where
  holds s hs := absurd hs (h s)
  mem_seen s _ := by simp [h s]
  mem_level s := by simp [h s]
  nodup hn hs := ⟨hn, hs⟩

theorem Gathers.trans (h : Gathers graph found seen level seen' level')
    (h' : Gathers graph found' seen' level' seen'' level'') :
    Gathers graph (fun s => found s ∨ found' s) seen level seen'' level'' where
  holds s hs := hs.elim (h.holds s) (h'.holds s)
  mem_seen s hs := by rw [h'.mem_seen s hs, h.mem_seen s hs, or_assoc]
  mem_level s := by
    rw [h'.mem_level s, h.mem_level s]
    constructor
    · rintro ((hl | ⟨hn, hf⟩) | ⟨hn, hf⟩)
      · exact .inl hl
      · exact .inr ⟨hn, .inl hf⟩
      · exact .inr ⟨fun hs => hn ((h.mem_seen s (h'.holds s hf)).2 (.inl hs)), .inr hf⟩
    · rintro (hl | ⟨hn, hf | hf⟩)
      · exact .inl (.inl hl)
      · exact .inl (.inr ⟨hn, hf⟩)
      · by_cases hf' : found s
        · exact .inl (.inr ⟨hn, hf'⟩)
        · exact .inr ⟨fun hs => ((h.mem_seen s (h'.holds s hf)).1 hs).elim hn hf', hf⟩
  nodup hn hs := by
    obtain ⟨hn', hs'⟩ := h.nodup hn hs
    exact h'.nodup hn' hs'

theorem Gathers.congr (h : Gathers graph found seen level seen' level')
    (hf : ∀ s, found s ↔ found' s) : Gathers graph found' seen level seen' level' := by
  obtain rfl : found = found' := funext fun s => propext (hf s)
  exact h

theorem visitCandidate_gathers {s : Step} {found found' : Findings × List Step} {c : Candidate}
    (hc : graph.Holds c.step) (h : visitCandidate s found c = .ok found') :
    Gathers graph (· = c.step) found.1.seen found.2 found'.1.seen found'.2 := by
  obtain ⟨issues, -, rfl⟩ := visitCandidate_eq_ok h
  obtain ⟨findings, level⟩ := found
  dsimp only
  by_cases hk : c.step.key ∈ findings.seen
  · simp only [hk, if_true]
    refine ⟨fun s hs => hs ▸ hc, fun s _ => ?_, fun s => ?_, fun hn hs => ⟨hn, hs⟩⟩
    · refine ⟨.inl, ?_⟩
      rintro (h | rfl)
      · exact h
      · exact hk
    · refine ⟨.inl, ?_⟩
      rintro (h | ⟨hn, rfl⟩)
      · exact h
      · exact absurd hk hn
  · simp only [hk, if_false]
    refine ⟨fun s hs => hs ▸ hc, fun s hs => ?_, fun s => ?_, fun hn hs => ⟨?_, ?_⟩⟩
    · rw [List.mem_cons, or_comm]
      exact or_congr_right ⟨fun h => hs.eq hc h, fun h => by rw [h]⟩
    · rw [List.mem_append, List.mem_singleton]
      exact or_congr_right ⟨fun h => ⟨h ▸ hk, h⟩, fun h => h.2⟩
    · refine List.nodup_append.2 ⟨hn, by simp, ?_⟩
      rintro a ha b hb rfl
      rw [List.mem_singleton] at hb
      exact hk (hb ▸ hs a ha)
    · intro s h
      rcases List.mem_append.1 h with h | h
      · exact List.mem_cons_of_mem _ (hs s h)
      · rw [List.mem_singleton.1 h]
        exact List.mem_cons_self

theorem foldlM_gathers {s : Step} : ∀ {candidates : List Candidate}
    {found found' : Findings × List Step}, (∀ c ∈ candidates, graph.Holds c.step) →
      candidates.foldlM (visitCandidate s) found = .ok found' →
      Gathers graph (fun b => ∃ c ∈ candidates, c.step = b) found.1.seen found.2 found'.1.seen
        found'.2
  | [], _, _, _, h => by
    cases h
    exact .refl (by simp)
  | c :: rest, found, found', hh, h => by
    rw [List.foldlM_cons] at h
    rcases hc : visitCandidate s found c with f | mid <;> rw [hc] at h
    · cases h
    have hg := visitCandidate_gathers (hh c List.mem_cons_self) hc
    have hr := foldlM_gathers (fun c hc => hh c (List.mem_cons_of_mem _ hc)) h
    exact (hg.trans hr).congr fun b => by simp [eq_comm]

/-- What is gathered from a step: the steps it leads to. -/
theorem visitStep_gathers {s : Step} {candidates : List Candidate} {findings : Findings}
    {level : List Step} {found : Findings × List Step}
    (h : graph.candidates problem s.id = .ok candidates)
    (hv : visitStep s candidates findings level = .ok found) :
    Gathers graph (graph.Leads problem s) findings.seen level found.1.seen found.2 := by
  have hl : ∀ b, graph.Leads problem s b ↔ ∃ c ∈ candidates, c.step = b := fun b => leads_iff h
  rcases candidates with _ | ⟨c, rest⟩
  · rw [visitStep_nil] at hv
    rcases he : endIssues s with f | issues <;> rw [he] at hv <;> cases hv
    exact .refl fun b hb => by simpa using (hl b).1 hb
  · have hh : ∀ c' ∈ c :: rest, graph.Holds c'.step := fun c' hc =>
      ((hl c'.step).2 ⟨c', hc, rfl⟩).holds
    exact (foldlM_gathers hh (visitStep_cons ▸ hv)).congr fun b => (hl b).symm

end Gathering

section Levels

/-- What an audit makes of a level: its terminal steps are ends, issues arise unless all of it is
sound, and the steps it leads to are gathered. -/
theorem visitLevel_eq_ok :
    ∀ {level : List Step} {findings findings' : Findings} {next next' : List Step},
      visitLevel graph.source problem level findings next () = (.ok (findings', next'), ()) →
      (findings'.ends = findings.ends ++ (level.filter (Terminal graph problem)).map label ∧
        (findings'.issues = [] ↔
          findings.issues = [] ∧ ∀ s ∈ level, Sound graph problem s) ∧
        ∀ s ∈ level, Tellable graph problem s) ∧
      Gathers graph (fun b => ∃ a ∈ level, graph.Leads problem a b) findings.seen next
        findings'.seen next'
  | [], _, _, _, _, h => by
    cases h
    exact ⟨by simp, .refl (by simp)⟩
  | s :: rest, findings, findings', next, next', h => by
    unfold visitLevel at h
    rcases hc : graph.candidates problem s.id with f | candidates
    · simp [source, hc] at h
    rcases hv : visitStep s candidates findings next with f | found
    · simp [source, hc, hv] at h
    · simp only [source, hc, hv] at h
      obtain ⟨he, hi, ht⟩ := visitStep_findings hc hv
      obtain ⟨⟨he', hi', ht'⟩, hg⟩ := visitLevel_eq_ok h
      refine ⟨⟨?_, ?_, List.forall_mem_cons.2 ⟨ht, ht'⟩⟩, ?_⟩
      · rw [he', he, List.append_assoc, ← List.map_append, ← List.filter_append,
          List.singleton_append]
      · rw [hi', hi]
        simp only [List.forall_mem_cons, and_assoc]
      · exact ((visitStep_gathers hc hv).trans hg).congr fun b => by simp

/-- An audit fails at a level only where a number of a step cannot be written. -/
theorem visitLevel_error (hg : graph.Complete) {f : Fault} :
    ∀ {level : List Step} {findings : Findings} {next : List Step},
      visitLevel graph.source problem level findings next () = (.error f, ()) →
      f = .integerTooLong ∧ ∃ s ∈ level, ¬ Tellable graph problem s
  | [], _, _, h => by cases h
  | s :: rest, findings, next, h => by
    unfold visitLevel at h
    obtain ⟨candidates, hc⟩ := hg.candidates problem s.id
    rcases hv : visitStep s candidates findings next with f' | found
    · simp only [source, hc, hv, Prod.mk.injEq, Except.error.injEq, and_true] at h
      obtain ⟨hf, ht⟩ := visitStep_error hc hv
      exact ⟨h ▸ hf, s, List.mem_cons_self, ht⟩
    · simp only [source, hc, hv] at h
      obtain ⟨hf, a, ha, ht⟩ := visitLevel_error hg h
      exact ⟨hf, a, List.mem_cons_of_mem _ ha, ht⟩

/-- The level holds the steps at a distance, each once, and what has been seen is as near or
nearer. -/
structure Frontier (graph : LocalGraph) (problem : Option String) (first : Step) (n : Nat)
    (level : List Step) (seen : List StepKey) : Prop where
  mem : ∀ s, s ∈ level ↔ graph.Distance problem first n s
  nodup : level.Nodup
  seen : ∀ s, graph.Holds s → (s.key ∈ seen ↔ graph.Within problem first n s)

theorem frontier_first (hf : graph.Holds first) :
    Frontier graph problem first 0 [first] [first.key] where
  mem s := by rw [List.mem_singleton, distance_zero_iff]
  nodup := by simp
  seen s hs := by
    rw [List.mem_singleton, within_zero_iff]
    exact ⟨fun h => hs.eq hf h, fun h => by rw [h]⟩

theorem Frontier.next {n : Nat} {level level' : List Step} {seen seen' : List StepKey}
    (h : Frontier graph problem first n level seen)
    (hg : Gathers graph (fun b => ∃ a ∈ level, graph.Leads problem a b) seen [] seen' level') :
    Frontier graph problem first (n + 1) level' seen' := by
  have hfound : ∀ s, (∃ a ∈ level, graph.Leads problem a s) ↔
      ∃ a, graph.Distance problem first n a ∧ graph.Leads problem a s := by simp [h.mem]
  refine ⟨fun s => ?_, (hg.nodup List.nodup_nil (by simp)).1, fun s hs => ?_⟩
  · rw [hg.mem_level, distance_succ_iff, ← hfound]
    constructor
    · rintro (hn | ⟨hn, hf⟩)
      · exact absurd hn List.not_mem_nil
      · exact ⟨fun hw => hn ((h.seen s (hg.holds s hf)).2 hw), hf⟩
    · rintro ⟨hw, hf⟩
      exact .inr ⟨fun hn => hw ((h.seen s (hg.holds s hf)).1 hn), hf⟩
  · rw [hg.mem_seen s hs, h.seen s hs, within_succ_iff, distance_succ_iff, hfound]
    tauto

/-- The order in which steps from one distance to another are taken in: nearer ones first, each
once. -/
structure Sweeps (graph : LocalGraph) (problem : Option String) (first : Step) (m n : Nat)
    (order : List Step) : Prop where
  mem : ∀ s, s ∈ order ↔ ∃ k, m ≤ k ∧ k ≤ n ∧ graph.Distance problem first k s
  nodup : order.Nodup
  sorted : order.Pairwise fun a b => ∀ i j, graph.Distance problem first i a →
    graph.Distance problem first j b → i ≤ j

variable {level : List Step} {seen : List StepKey} {n : Nat}

theorem Frontier.sweeps (h : Frontier graph problem first n level seen) :
    Sweeps graph problem first n n level where
  mem s := by
    rw [h.mem]
    constructor
    · exact fun hd => ⟨n, le_rfl, le_rfl, hd⟩
    · rintro ⟨k, hk, hk', hd⟩
      rwa [Nat.le_antisymm hk hk']
  nodup := h.nodup
  sorted := List.pairwise_of_forall_mem_list fun a ha b hb i j hi hj => by
    rw [hi.unique ((h.mem a).1 ha), hj.unique ((h.mem b).1 hb)]

theorem Frontier.sweeps_append {m : Nat} {order : List Step}
    (h : Frontier graph problem first n level seen) (hm : n ≤ m)
    (ho : Sweeps graph problem first (n + 1) m order) :
    Sweeps graph problem first n m (level ++ order) where
  mem s := by
    rw [List.mem_append, h.mem, ho.mem]
    constructor
    · rintro (hd | ⟨k, hk, hk', hd⟩)
      · exact ⟨n, le_rfl, hm, hd⟩
      · exact ⟨k, by omega, hk', hd⟩
    · rintro ⟨k, hk, hk', hd⟩
      rcases Nat.eq_or_lt_of_le hk with rfl | hk
      · exact .inl hd
      · exact .inr ⟨k, hk, hk', hd⟩
  nodup := by
    refine List.nodup_append.2 ⟨h.nodup, ho.nodup, ?_⟩
    rintro a ha b hb rfl
    obtain ⟨k, hk, -, hd⟩ := (ho.mem a).1 hb
    have := hd.unique ((h.mem a).1 ha)
    omega
  sorted := by
    refine List.pairwise_append.2 ⟨h.sweeps.sorted, ho.sorted, fun a ha b hb i j hi hj => ?_⟩
    obtain ⟨k, hk, -, hd⟩ := (ho.mem b).1 hb
    have := hi.unique ((h.mem a).1 ha)
    have := hj.unique hd
    omega

/-- Where nothing comes after the level, the sweep of it goes as far as one likes. -/
theorem Frontier.sweeps_of_last {m : Nat} {seen' : List StepKey}
    (h : Frontier graph problem first n level seen) (hm : n ≤ m)
    (hn : Frontier graph problem first (n + 1) [] seen') :
    Sweeps graph problem first n m level := by
  have ho : Sweeps graph problem first (n + 1) m [] := by
    refine ⟨fun s => iff_of_false List.not_mem_nil ?_, List.nodup_nil, List.Pairwise.nil⟩
    rintro ⟨k, hk, -, hd⟩
    obtain ⟨a, ha⟩ := hd.exists_of_le hk
    exact absurd ((hn.mem a).2 ha) List.not_mem_nil
  simpa using h.sweeps_append hm ho

/-- What an audit makes of a level and those after it. -/
theorem visitLevels_eq_ok :
    ∀ {depth n : Nat} {level : List Step} {findings findings' : Findings},
      Frontier graph problem first n level findings.seen →
      visitLevels graph.source problem depth level findings () = (.ok findings', ()) →
      ∃ order, Sweeps graph problem first n (n + depth) order ∧
        findings'.ends = findings.ends ++ (order.filter (Terminal graph problem)).map label ∧
        (findings'.issues = [] ↔
          findings.issues = [] ∧ ∀ s ∈ order, Sound graph problem s) ∧
        ∀ s ∈ order, Tellable graph problem s
  | 0, n, level, findings, findings', hf, h => by
    unfold visitLevels at h
    rcases hl : visitLevel graph.source problem level findings [] () with ⟨f | ⟨found, next⟩, u⟩
    · simp [hl] at h
    · simp only [hl, Prod.mk.injEq, Except.ok.injEq, and_true] at h
      subst h
      exact ⟨level, hf.sweeps, (visitLevel_eq_ok hl).1⟩
  | depth + 1, n, level, findings, findings', hf, h => by
    unfold visitLevels at h
    rcases hl : visitLevel graph.source problem level findings [] () with ⟨f | ⟨found, next⟩, u⟩
    · simp [hl] at h
    · obtain ⟨⟨he, hi, ht⟩, hg⟩ := visitLevel_eq_ok hl
      have hn := hf.next hg
      rcases next with _ | ⟨s, rest⟩
      · simp only [hl, Prod.mk.injEq, Except.ok.injEq, and_true] at h
        subst h
        exact ⟨level, hf.sweeps_of_last (by omega) hn, he, hi, ht⟩
      · simp only [hl] at h
        obtain ⟨order, ho, he', hi', ht'⟩ := visitLevels_eq_ok hn h
        refine ⟨level ++ order, hf.sweeps_append (by omega) ?_, ?_, ?_,
          List.forall_mem_append.2 ⟨ht, ht'⟩⟩
        · rwa [show n + (depth + 1) = n + 1 + depth by omega]
        · rw [he', he, List.append_assoc, ← List.map_append, ← List.filter_append]
        · rw [hi', hi]
          simp only [List.forall_mem_append, and_assoc]

/-- An audit of the levels fails only where a number of a step within the depth cannot be
written. -/
theorem visitLevels_error (hg : graph.Complete) {f : Fault} :
    ∀ {depth n : Nat} {level : List Step} {findings : Findings},
      Frontier graph problem first n level findings.seen →
      visitLevels graph.source problem depth level findings () = (.error f, ()) →
      f = .integerTooLong ∧
        ∃ s k, k ≤ n + depth ∧ graph.Distance problem first k s ∧ ¬ Tellable graph problem s
  | 0, n, level, findings, hf, h => by
    unfold visitLevels at h
    rcases hl : visitLevel graph.source problem level findings [] () with ⟨f' | ⟨found, next⟩, u⟩
    · simp only [hl, Prod.mk.injEq, Except.error.injEq, and_true] at h
      obtain ⟨he, s, hs, ht⟩ := visitLevel_error hg (h ▸ hl)
      exact ⟨he, s, n, le_rfl, (hf.mem s).1 hs, ht⟩
    · simp [hl] at h
  | depth + 1, n, level, findings, hf, h => by
    unfold visitLevels at h
    rcases hl : visitLevel graph.source problem level findings [] () with ⟨f' | ⟨found, next⟩, u⟩
    · simp only [hl, Prod.mk.injEq, Except.error.injEq, and_true] at h
      obtain ⟨he, s, hs, ht⟩ := visitLevel_error hg (h ▸ hl)
      exact ⟨he, s, n, Nat.le_add_right _ _, (hf.mem s).1 hs, ht⟩
    · have hn := hf.next (visitLevel_eq_ok hl).2
      rcases next with _ | ⟨a, rest⟩
      · simp [hl] at h
      · simp only [hl] at h
        obtain ⟨he, s, k, hk, hs⟩ := visitLevels_error hg hn h
        exact ⟨he, s, k, by omega, hs⟩

end Levels

/-- The report lists each step within the depth where nothing follows, once and nearer ones first,
and it is valid just when there are such steps, all of them reply, and no step within the depth
has a guarded relation without a condition. -/
structure Exact (graph : LocalGraph) (problem : Option String) (first : Step) (depth : Nat)
    (report : Report) : Prop where
  ends : ∃ stops : List Step, report.ends = stops.map label ∧
    (∀ s, s ∈ stops ↔ Terminal graph problem s ∧
      ∃ n ≤ depth, graph.Distance problem first n s) ∧
    stops.Pairwise fun a b => ∀ i j, graph.Distance problem first i a →
      graph.Distance problem first j b → i ≤ j
  once : (report.ends.map Prod.fst).Nodup
  valid : report.valid = true ↔ report.ends ≠ [] ∧
    (∀ e ∈ report.ends, e.2 = some replyOperation) ∧
    ∀ s n, n ≤ depth → graph.Distance problem first n s → ¬ Unguarded graph problem s

theorem Sweeps.exact {depth : Nat} {order : List Step}
    (h : Sweeps graph problem first 0 depth order) (hf : graph.Holds first)
    (hp : first.problem = problem) {report : Report}
    (he : report.ends = (order.filter (Terminal graph problem)).map label)
    (hv : report.valid = true ↔ report.ends ≠ [] ∧ ∀ s ∈ order, Sound graph problem s) :
    Exact graph problem first depth report := by
  have hmem : ∀ s, s ∈ order ↔ ∃ n ≤ depth, graph.Distance problem first n s := by
    simp [h.mem]
  refine ⟨⟨_, he, fun s => ?_, h.sorted.filter _⟩, ?_, hv.trans (and_congr_right fun _ => ?_)⟩
  · rw [List.mem_filter, hmem, decide_eq_true_eq, and_comm]
  · rw [he, List.map_map]
    refine List.Nodup.map_on (fun a ha b hb hab => ?_) (h.nodup.filter _)
    obtain ⟨i, -, hi⟩ := (hmem a).1 (List.mem_of_mem_filter ha)
    obtain ⟨j, -, hj⟩ := (hmem b).1 (List.mem_of_mem_filter hb)
    refine (hi.1.holds hf).eq (hj.1.holds hf) (Prod.ext ?_ hab)
    exact (hi.1.problem_eq hp).trans (hj.1.problem_eq hp).symm
  · constructor
    · intro hs
      refine ⟨fun e hm => ?_, fun s n hn hd => (hs s ((hmem s).2 ⟨n, hn, hd⟩)).2⟩
      rw [he] at hm
      obtain ⟨s, ht, rfl⟩ := List.mem_map.1 hm
      rw [List.mem_filter, decide_eq_true_eq] at ht
      simpa [Step.isReply, label] using (hs s ht.1).1 ht.2
    · rintro ⟨hr, hu⟩ s hs
      obtain ⟨n, hn, hd⟩ := (hmem s).1 hs
      refine ⟨fun ht => ?_, hu s n hn hd⟩
      have hm : label s ∈ report.ends :=
        he ▸ List.mem_map_of_mem (List.mem_filter.2 ⟨hs, decide_eq_true ht⟩)
      simpa [Step.isReply, label] using hr _ hm

/-- All that an audit tells of the steps within the depth can be written. -/
def TellableWithin (graph : LocalGraph) (problem : Option String) (first : Step) (depth : Nat) :
    Prop :=
  ∀ s n, n ≤ depth → graph.Distance problem first n s → Tellable graph problem s

theorem tellableWithin_of_writable (hg : graph.Complete) (hw : graph.Writable)
    (hf : graph.Holds first) (depth : Nat) : TellableWithin graph problem first depth := by
  intro s n _ hd
  have hs : s.Writable := hw s (hd.1.holds hf)
  obtain ⟨candidates, hc⟩ := hg.candidates problem s.id
  refine (tellable_iff hc).2 ⟨fun _ _ => hs, fun c hm _ => ⟨hs, hw _ ?_⟩⟩
  exact ((leads_iff hc).2 ⟨c, hm, rfl⟩).holds

/-- Whatever an audit reports on a problem with a first step is exact, and could be written. -/
theorem exact_of_eq_ok {depth : Nat} {p : Problem} {report : Report}
    (hf : graph.firstStep p.id = .ok first)
    (h : Audit.problem graph.source depth p () = (.ok report, ())) :
    Exact graph p.id first depth report ∧ TellableWithin graph p.id first depth := by
  obtain ⟨hh, hp⟩ := holds_of_firstStep hf
  unfold Audit.problem at h
  simp only [show graph.source.firstStep p.id () = (.ok first, ()) by simp [source, hf]] at h
  rcases hl : visitLevels graph.source p.id depth [first] ⟨[], [], [first.key]⟩ () with
    ⟨f | found, u⟩
  · simp [hl] at h
  · simp only [hl, Prod.mk.injEq, Except.ok.injEq, and_true] at h
    obtain ⟨order, ho, he, hi, ht⟩ := visitLevels_eq_ok (frontier_first hh) hl
    rw [Nat.zero_add] at ho
    rw [List.nil_append] at he
    subst h
    refine ⟨ho.exact hh hp he ?_, fun s n hn hd => ht s ((ho.mem s).2 ⟨n, by omega, hn, hd⟩)⟩
    by_cases hn : found.ends = []
    · simp [Report.valid, hn]
    · simpa [Report.valid, hn] using hi

/-- An audit of a problem with a first step fails only where something it tells of cannot be
written. -/
theorem problem_error (hg : graph.Complete) {depth : Nat} {p : Problem} {f : Fault}
    (hf : graph.firstStep p.id = .ok first)
    (h : Audit.problem graph.source depth p () = (.error f, ())) :
    f = .integerTooLong ∧ ¬ TellableWithin graph p.id first depth := by
  unfold Audit.problem at h
  simp only [show graph.source.firstStep p.id () = (.ok first, ()) by simp [source, hf]] at h
  rcases hl : visitLevels graph.source p.id depth [first] ⟨[], [], [first.key]⟩ () with
    ⟨f' | found, u⟩
  · simp only [hl, Prod.mk.injEq, Except.error.injEq, and_true] at h
    obtain ⟨he, s, k, hk, hs, ht⟩ :=
      visitLevels_error hg (frontier_first (holds_of_firstStep hf).1) (h ▸ hl)
    exact ⟨he, fun hw => ht (hw s k (by omega) hs)⟩
  · simp [hl] at h

/-- In a graph whose relations all lead to steps, an audit of a problem with a first step answers
with an exact report if all that it tells of can be written, and otherwise fails for a number of
too many digits. An audit of a problem without one answers that it is invalid and has no end. -/
theorem problem_exact (graph : LocalGraph) (depth : Nat) (p : Problem) :
    (graph.Complete → ∀ first, graph.firstStep p.id = .ok first →
      (TellableWithin graph p.id first depth →
        ∃ report, Audit.problem graph.source depth p () = (.ok report, ()) ∧
          Exact graph p.id first depth report) ∧
      (¬ TellableWithin graph p.id first depth →
        Audit.problem graph.source depth p () = (.error .integerTooLong, ()))) ∧
    ((∀ relation ∈ graph.relations,
        ¬ (relation.problem = p.id ∧ relation.type = some firstRelation)) →
      ∃ report, Audit.problem graph.source depth p () = (.ok report, ()) ∧
        report.valid = false ∧ report.ends = []) := by
  constructor
  · intro hg first hf
    rcases hr : Audit.problem graph.source depth p () with ⟨f | report, u⟩
    · obtain ⟨rfl, hn⟩ := problem_error hg hf hr
      exact ⟨fun ht => absurd ht hn, fun _ => rfl⟩
    · obtain ⟨he, ht⟩ := exact_of_eq_ok hf hr
      exact ⟨fun _ => ⟨report, rfl, he⟩, fun hn => absurd ht hn⟩
  · intro hn
    have hf : graph.firstStep p.id = .error (.noFirstStep p.id) := by
      unfold LocalGraph.firstStep
      rw [List.find?_eq_none.2 fun r hr => by simpa using hn r hr]
    refine ⟨⟨p.id, p.type, false, [], [.noFirstStep]⟩, ?_, rfl, rfl⟩
    unfold Audit.problem
    simp [source, hf, Fault.kind]

/-- The audits of a playbook with a cycle and a reply that leads on, and of a problem that it does
not know. -/
theorem problem_exact_refunds :
    let known : Problem := ⟨some "refund", some "refund", none, true⟩
    let unknown : Problem := ⟨some "return", some "return", none, true⟩
    refunds.Complete ∧ refunds.firstStep known.id = .ok refunds.lookup ∧
      TellableWithin refunds known.id refunds.lookup 1 ∧
      (∃ report, Audit.problem refunds.source 1 known () = (.ok report, ()) ∧
        Exact refunds known.id refunds.lookup 1 report) ∧
      (∀ relation ∈ refunds.relations,
        ¬ (relation.problem = unknown.id ∧ relation.type = some firstRelation)) ∧
      ∃ report, Audit.problem refunds.source 1 unknown () = (.ok report, ()) ∧
        report.valid = false ∧ report.ends = [] := by
  intro known unknown
  have hg : refunds.Complete := by decide
  have hf : refunds.firstStep known.id = .ok refunds.lookup := rfl
  have ht : TellableWithin refunds known.id refunds.lookup 1 :=
    tellableWithin_of_writable hg (writable_of_le (by decide)) (holds_of_firstStep hf).1 1
  have hn : ∀ relation ∈ refunds.relations,
      ¬ (relation.problem = unknown.id ∧ relation.type = some firstRelation) := by decide
  exact ⟨hg, hf, ht, ((problem_exact refunds 1 known).1 hg _ hf).1 ht, hn,
    (problem_exact refunds 1 unknown).2 hn⟩

/-- All relations lead to steps and the problem has a first step, but an audit of any depth answers
nothing: it has to tell of a step whose number has too many digits. -/
theorem problem_unwritten :
    let step : Step :=
      ⟨some "refund", some Text.leastUnprinted, some queryOperation, none, none, none, none, none⟩
    let graph : LocalGraph := { LocalGraph.empty.addStep step with
      relations := [⟨some "refund", none, step.id, some firstRelation, none⟩] }
    let p : Problem := ⟨some "refund", some "refund", none, true⟩
    graph.Complete ∧ graph.firstStep p.id = .ok step ∧
      ∀ depth, Audit.problem graph.source depth p () = (.error .integerTooLong, ()) := by
  have hi : ¬ (Text.printInteger? Text.leastUnprinted).isSome = true := by
    rw [Text.printInteger?_leastUnprinted]
    simp
  generalize Text.leastUnprinted = i at hi ⊢
  intro step graph p
  have hg : graph.Complete := by
    simp [LocalGraph.Complete, graph, step, LocalGraph.addStep, Step.key, OrderedMap.contains]
  have hf : graph.firstStep p.id = .ok step := by
    simp [LocalGraph.firstStep, LocalGraph.step, graph, p, step, LocalGraph.addStep, Step.key]
  have hstep : ¬ Tellable graph p.id step := fun ht => by
    have hw : step.Writable := ht.1 (by simp [Terminal, relationsFrom, graph, p]) rfl
    rw [Step.Writable, shownNumber_of_not_isSome hi] at hw
    cases hw
  refine ⟨hg, hf, fun depth => ?_⟩
  rcases hr : Audit.problem graph.source depth p () with ⟨f | report, u⟩
  · rw [(problem_error hg hf hr).1]
  · exact absurd ((exact_of_eq_ok hf hr).2 step 0 (Nat.zero_le _) (distance_zero_iff.2 rfl)) hstep

end Playbook.Audit
