import Mathlib.Data.List.Basic
import Playbook.Traversal

/-!
# The trail of a walk

A walk stands on one place after another. `Moves` says which place follows which, without the
loop: the step is a query, its lookup is done, and the first candidate that is open in the context
after the lookup leads on. What a walk tells of on its way has to be writable (`Step.Writable`). A
`Trail` is a run of such moves, and `Halts` is every way in which a place leads no further. A walk
follows one trail to a place where it halts, or until it has visited as many steps as it may and
could move once more (`walk_trail`).
-/

namespace Playbook

variable {γ τ : Type}

/-- A candidate that may be followed: a default one, or a guarded one whose condition is stated and
holds. -/
def Candidate.Open (context : Context) (candidate : Candidate) : Prop :=
  candidate.type = some defaultRelation ∨
    candidate.type = some guardedRelation ∧ ∃ condition, candidate.condition = some condition ∧
      condition ≠ "" ∧ Condition.evaluate condition context = true

/-- The candidate is open and none before it is. -/
def Candidate.FirstOpen (context : Context) (candidates : List Candidate) (chosen : Candidate) :
    Prop :=
  ∃ earlier later, candidates = earlier ++ chosen :: later ∧ chosen.Open context ∧
    ∀ candidate ∈ earlier, ¬ candidate.Open context

theorem Candidate.applies_iff {context : Context} {candidate : Candidate} :
    candidate.applies context = true ↔ candidate.Open context := by
  unfold Candidate.applies Candidate.Open Condition.evaluate?
  rcases candidate.condition with _ | condition <;> simp

theorem Candidate.select_eq_some_iff {context : Context} {candidates : List Candidate}
    {chosen : Candidate} :
    Candidate.select candidates context = some chosen ↔
      FirstOpen context candidates chosen := by
  unfold Candidate.select
  rw [List.find?_eq_some_iff_append]
  constructor
  · rintro ⟨ha, earlier, later, hl, hn⟩
    exact ⟨earlier, later, hl, applies_iff.1 ha,
      fun c hc ho => by simpa [applies_iff.2 ho] using hn c hc⟩
  · rintro ⟨earlier, later, hl, ho, hn⟩
    exact ⟨applies_iff.2 ho, earlier, later, hl,
      fun c hc => by simpa using fun ha => hn c hc (applies_iff.1 ha)⟩

theorem Candidate.select_eq_none_iff {context : Context} {candidates : List Candidate} :
    Candidate.select candidates context = none ↔ ∀ c ∈ candidates, ¬ c.Open context := by
  unfold Candidate.select
  simp only [List.find?_eq_none, applies_iff]

theorem Candidate.FirstOpen.mem {context : Context} {candidates : List Candidate} {c : Candidate}
    (h : FirstOpen context candidates c) : c ∈ candidates := by
  obtain ⟨earlier, later, rfl, -, -⟩ := h
  exact List.mem_append_right _ List.mem_cons_self

theorem Candidate.FirstOpen.unique {context : Context} {candidates : List Candidate}
    {c c' : Candidate} (h : FirstOpen context candidates c)
    (h' : FirstOpen context candidates c') : c = c' := by
  have hs := select_eq_some_iff.2 h
  rw [select_eq_some_iff.2 h'] at hs
  exact (Option.some.inj hs).symm

/-- A step that replies with a message: it has a text, which renders to the message. -/
def Step.Replies (step : Step) (context : Context) (message : String) : Prop :=
  step.isReply = true ∧ ∃ template, step.reply = some template ∧ template ≠ "" ∧
    Template.render template context = .ok message

theorem Step.not_isReply_of_isQuery {step : Step} (h : step.isQuery = true) :
    step.isReply = false := by
  simp only [isQuery, decide_eq_true_eq] at h
  simp [isReply, h, queryOperation, replyOperation]

/-- The number of a step can be written. -/
def Step.Writable (step : Step) : Prop := (shownNumber step.id).isOk = true

theorem Step.Writable.shown {step : Step} (h : step.Writable) :
    ∃ text, shownNumber step.id = .ok text := by
  unfold Writable at h
  rcases hs : shownNumber step.id with f | text
  · rw [hs] at h
    cases h
  · exact ⟨text, rfl⟩

theorem Step.writable_of_le {step : Step} (h : (step.id.getD 0).natAbs ≤ Text.digitLimit) :
    step.Writable := by
  unfold Writable
  rcases hid : step.id with _ | i
  · rfl
  · rw [hid, Option.getD_some] at h
    rw [shownNumber_of_isSome (Text.isSome_printInteger?_of_le h)]
    rfl

theorem Step.shown_of_not_writable {step : Step} (h : ¬ step.Writable) :
    shownNumber step.id = .error .integerTooLong := by
  unfold Writable at h
  rcases hs : shownNumber step.id with f | text
  · rw [shownNumber_error hs]
  · rw [hs] at h
    exact absurd rfl h

namespace Traversal

/-- The progress once a step is visited. -/
def Progress.visit (progress : Progress) (step : Step) : Progress :=
  { progress with visited := progress.visited ++ [step.key] }

@[simp]
theorem Progress.context_visit (progress : Progress) (step : Step) :
    (Progress.visit progress step).context = progress.context := rfl

/-- Keeping a value makes it known by name if it is for a field and not null. -/
theorem Progress.context_keep (progress : Progress) (field : Option String) (v : Value) :
    (Progress.keep progress field v).context =
      if v = .null then progress.context
      else field.elim progress.context (progress.context.insert · v) := by
  unfold Progress.keep
  split_ifs
  · rfl
  · rcases field with _ | name
    · exact Fields.named_insert_none progress.known v
    · exact Fields.named_insert_some progress.known name v

/-- Where a walk stands on arrival at a step. -/
structure Place (γ τ : Type) where
  step : Step
  progress : Progress
  world : γ × τ

/-- The lookup of a step is done: the step has no condition, which is told, or the service answers
with a value that has a text, which is kept unless it is null. -/
inductive LookedUp (lookup : LookupSource τ) (step : Step) :
    Progress → τ → Progress → τ → Prop where
  | unasked {progress : Progress} {t : τ} (unstated : step.condition.getD "" = "")
      (told : step.Writable) :
      LookedUp lookup step progress t progress t
  | answered {progress : Progress} {t t' : τ} {template condition text : String} {v : Value}
      (stated : step.condition = some template) (nonempty : template ≠ "")
      (rendered : Template.render template progress.context = .ok condition)
      (scalar : lookup.scalar step.system step.table step.field condition t = (.ok v, t'))
      (format : v.format = .ok text) :
      LookedUp lookup step progress t (Progress.keep progress step.field v) t'

/-- From one place to the next: the step is a query, its lookup is done, and the first open
candidate leads on, to a step that can be told. -/
inductive Moves (services : Services γ τ) (problem : Option String) :
    Place γ τ → Place γ τ → Prop where
  | follow {step : Step} {progress progress' : Progress} {g g' : γ} {t t' : τ}
      {candidates : List Candidate} {chosen : Candidate}
      (query : step.isQuery = true)
      (looked : LookedUp services.lookup step (Progress.visit progress step) t progress' t')
      (read : services.graph.candidates problem step.id g = (.ok candidates, g'))
      (first : Candidate.FirstOpen progress'.context candidates chosen)
      (told : chosen.step.Writable) :
      Moves services problem ⟨step, progress, (g, t)⟩ ⟨chosen.step, progress', (g', t')⟩

/-- The places from one to another, each but the last with a move to the next. -/
inductive Trail (services : Services γ τ) (problem : Option String) :
    Place γ τ → List (Place γ τ) → Place γ τ → Prop where
  | here (a : Place γ τ) : Trail services problem a [a] a
  | move {a b last : Place γ τ} {rest : List (Place γ τ)} (h : Moves services problem a b)
      (t : Trail services problem b rest last) : Trail services problem a (a :: rest) last

/-- How a walk ends at a place that leads no further. -/
inductive Halts (services : Services γ τ) (problem : Option String) :
    Place γ τ → Ending × Progress × (γ × τ) → Prop where
  | reply {step : Step} {progress : Progress} {w : γ × τ} (replies : step.isReply = true) :
      Halts services problem ⟨step, progress, w⟩
        (reply step progress.context, Progress.visit progress step, w)
  | unsupported {step : Step} {progress : Progress} {w : γ × τ} (reply : step.isReply = false)
      (query : step.isQuery = false) :
      Halts services problem ⟨step, progress, w⟩
        (.stopped .unsupportedOperation, Progress.visit progress step, w)
  | lookUp {step : Step} {progress progress' : Progress} {g : γ} {t t' : τ} {stop : Stop}
      (query : step.isQuery = true)
      (failed : lookUp services.lookup step (Progress.visit progress step) t =
        (some stop, progress', t')) :
      Halts services problem ⟨step, progress, (g, t)⟩ (.stopped stop, progress', (g, t'))
  | next {step : Step} {progress progress' : Progress} {g g' : γ} {t t' : τ} {f : Fault}
      (query : step.isQuery = true)
      (looked : LookedUp services.lookup step (Progress.visit progress step) t progress' t')
      (failed : next services.graph problem step progress'.context g = (.error f, g')) :
      Halts services problem ⟨step, progress, (g, t)⟩ (.stopped (.fault f), progress', (g', t'))

variable {services : Services γ τ} {problem : Option String}

theorem untold_eq_none_iff {step : Step} : untold step = none ↔ step.Writable := by
  unfold untold Step.Writable
  cases shownNumber step.id <;> simp [Except.isOk, Except.toBool]

theorem untold_of_not_writable {step : Step} (h : ¬ step.Writable) :
    untold step = some (.fault .integerTooLong) := by
  rw [untold, Step.shown_of_not_writable h]

theorem untold_eq_some {step : Step} {stop : Stop} (h : untold step = some stop) :
    stop = .fault .integerTooLong := by
  by_cases hw : step.Writable
  · rw [untold_eq_none_iff.2 hw] at h
    cases h
  · rw [untold_of_not_writable hw] at h
    exact (Option.some.inj h).symm

theorem reply_eq_replied_iff {step : Step} {context : Context} {message : String}
    (h : step.isReply = true) :
    reply step context = .replied message ↔ step.Replies context message := by
  unfold reply Step.Replies
  rcases step.reply with _ | template
  · simp
  · by_cases hne : template = ""
    · simp [hne]
    · simp only [hne, if_false, h, true_and]
      rcases hr : Template.render template context with f | m
      · cases f <;> simp [hr]
      · simp [hne, hr]

theorem lookUp_eq_none_iff {lookup : LookupSource τ} {step : Step} {progress progress' : Progress}
    {t t' : τ} : lookUp lookup step progress t = (none, progress', t') ↔
      LookedUp lookup step progress t progress' t' := by
  constructor
  · intro h
    unfold lookUp at h
    split at h
    · rename_i hc
      obtain ⟨ht, rfl, rfl⟩ : untold step = none ∧ progress = progress' ∧ t = t' := by simpa using h
      exact .unasked (by simp [hc]) (untold_eq_none_iff.1 ht)
    · rename_i template hc
      split_ifs at h with hne
      · obtain ⟨ht, rfl, rfl⟩ : untold step = none ∧ progress = progress' ∧ t = t' := by
          simpa using h
        exact .unasked (by simp [hc, hne]) (untold_eq_none_iff.1 ht)
      · split at h
        · cases h
        · cases h
        · rename_i condition hr
          split at h
          · cases h
          · rename_i v t'' hs
            simp only at h
            split at h
            · rename_i text hf
              cases h
              exact .answered hc hne hr hs hf
            · cases h
  · rintro (⟨hu, ht⟩ | ⟨hc, hne, hr, hs, hf⟩)
    · unfold lookUp
      rw [untold_eq_none_iff.2 ht]
      rcases hc : step.condition with _ | template
      · rfl
      · have : template = "" := by simpa [hc] using hu
        simp [this]
    · simp only [lookUp, hc, hne, if_false, hr, hs, hf]

section Follow

variable {step following : Step} {candidates : List Candidate} {context : Context} {f : Fault}

theorem follow_nil :
    follow step [] context = (shownNumber step.id).bind fun text => .error (.noNextStep text) := by
  unfold follow
  cases shownNumber step.id <;> rfl

theorem follow_of_closed (hs : candidates ≠ []) (h : ∀ c ∈ candidates, ¬ c.Open context) :
    follow step candidates context =
      (shownNumber step.id).bind fun text => .error (.noSatisfiedBranch text) := by
  unfold follow
  rw [if_neg (by simpa using hs), Candidate.select_eq_none_iff.2 h]
  cases shownNumber step.id <;> rfl

theorem follow_of_first {chosen : Candidate} (h : Candidate.FirstOpen context candidates chosen) :
    follow step candidates context = (shownNumber chosen.step.id).map fun _ => chosen.step := by
  have hs : candidates ≠ [] := by
    obtain ⟨earlier, later, rfl, -⟩ := h
    simp
  unfold follow
  rw [if_neg (by simpa using hs), Candidate.select_eq_some_iff.2 h]
  dsimp only
  cases shownNumber chosen.step.id <;> rfl

theorem first_or_closed (candidates : List Candidate) (context : Context) :
    (∃ chosen, Candidate.FirstOpen context candidates chosen) ∨
      ∀ c ∈ candidates, ¬ c.Open context := by
  rcases hs : Candidate.select candidates context with _ | chosen
  · exact .inr (Candidate.select_eq_none_iff.1 hs)
  · exact .inl ⟨chosen, Candidate.select_eq_some_iff.1 hs⟩

/-- Why a walk can go nowhere: what it would tell of cannot be written, or no candidate is open. -/
inductive Strands (step : Step) (candidates : List Candidate) (context : Context) : Fault → Prop
  | lost {chosen : Candidate} (first : Candidate.FirstOpen context candidates chosen)
      (untold : ¬ chosen.step.Writable) : Strands step candidates context .integerTooLong
  | untold (closed : ∀ c ∈ candidates, ¬ c.Open context) (untold : ¬ step.Writable) :
      Strands step candidates context .integerTooLong
  | last {text : String} (none : candidates = []) (shown : shownNumber step.id = .ok text) :
      Strands step candidates context (.noNextStep text)
  | closed {text : String} (some : candidates ≠ []) (closed : ∀ c ∈ candidates, ¬ c.Open context)
      (shown : shownNumber step.id = .ok text) :
      Strands step candidates context (.noSatisfiedBranch text)

theorem follow_eq_ok_iff : follow step candidates context = .ok following ↔
    ∃ chosen, Candidate.FirstOpen context candidates chosen ∧ chosen.step.Writable ∧
      chosen.step = following := by
  constructor
  · intro h
    rcases first_or_closed candidates context with ⟨chosen, hf⟩ | hc
    · rw [follow_of_first hf] at h
      rcases hs : shownNumber chosen.step.id with f | text <;> rw [hs] at h <;> cases h
      exact ⟨chosen, hf, by rw [Step.Writable, hs]; rfl, rfl⟩
    · by_cases hn : candidates = []
      · rw [hn, follow_nil] at h
        cases hs : shownNumber step.id <;> rw [hs] at h <;> cases h
      · rw [follow_of_closed hn hc] at h
        cases hs : shownNumber step.id <;> rw [hs] at h <;> cases h
  · rintro ⟨chosen, hf, hw, rfl⟩
    obtain ⟨text, hs⟩ := hw.shown
    rw [follow_of_first hf, hs]
    rfl

theorem strands_of_follow (h : follow step candidates context = .error f) :
    Strands step candidates context f := by
  rcases first_or_closed candidates context with ⟨chosen, hf⟩ | hc
  · rw [follow_of_first hf] at h
    by_cases hw : chosen.step.Writable
    · obtain ⟨text, hs⟩ := hw.shown
      rw [hs] at h
      cases h
    · rw [Step.shown_of_not_writable hw] at h
      cases h
      exact .lost hf hw
  · by_cases hw : step.Writable
    · obtain ⟨text, hs⟩ := hw.shown
      by_cases hn : candidates = []
      · rw [hn, follow_nil, hs] at h
        cases h
        exact .last hn hs
      · rw [follow_of_closed hn hc, hs] at h
        cases h
        exact .closed hn hc hs
    · have hs := Step.shown_of_not_writable hw
      by_cases hn : candidates = []
      · rw [hn, follow_nil, hs] at h
        cases h
        exact .untold hc hw
      · rw [follow_of_closed hn hc, hs] at h
        cases h
        exact .untold hc hw

end Follow

theorem next_eq_ok_iff {graph : GraphSource γ} {step following : Step} {context : Context}
    {g g' : γ} : next graph problem step context g = (.ok following, g') ↔
      ∃ candidates chosen, graph.candidates problem step.id g = (.ok candidates, g') ∧
        Candidate.FirstOpen context candidates chosen ∧ chosen.step.Writable ∧
          chosen.step = following := by
  unfold next
  rcases graph.candidates problem step.id g with ⟨f | candidates, g''⟩
  · simp
  · simp only [Prod.mk.injEq, follow_eq_ok_iff, Except.ok.injEq]
    constructor
    · rintro ⟨⟨chosen, h⟩, rfl⟩
      exact ⟨candidates, chosen, ⟨rfl, rfl⟩, h⟩
    · rintro ⟨_, chosen, ⟨rfl, rfl⟩, h⟩
      exact ⟨⟨chosen, h⟩, rfl⟩

theorem walk_of_moves {limit left : Nat} {a b : Place γ τ} (h : Moves services problem a b) :
    walk services problem limit (left + 1) a.step a.progress a.world =
      walk services problem limit left b.step b.progress b.world := by
  obtain ⟨hq, hl, hr, hf, hw⟩ := h
  have hl := lookUp_eq_none_iff.2 hl
  have hn := next_eq_ok_iff.2 ⟨_, _, hr, hf, hw, rfl⟩
  unfold Progress.visit at hl
  simp only [walk, Step.not_isReply_of_isQuery hq, hq, hl, hn, Bool.false_eq_true, if_false,
    Bool.not_true]

theorem walk_of_halts {limit left : Nat} {a : Place γ τ} {r : Ending × Progress × (γ × τ)}
    (h : Halts services problem a r) :
    walk services problem limit (left + 1) a.step a.progress a.world = r := by
  cases h with
  | reply hr =>
    simp only [walk, hr, if_true, Progress.visit]
    rfl
  | unsupported hr hq =>
    simp only [walk, hr, hq, Bool.false_eq_true, if_false, Bool.not_false, if_true, Progress.visit]
  | lookUp hq hf =>
    unfold Progress.visit at hf
    simp only [walk, Step.not_isReply_of_isQuery hq, hq, hf, Bool.false_eq_true, if_false,
      Bool.not_true]
  | next hq hl hf =>
    have hl := lookUp_eq_none_iff.2 hl
    unfold Progress.visit at hl
    simp only [walk, Step.not_isReply_of_isQuery hq, hq, hl, hf, Bool.false_eq_true, if_false,
      Bool.not_true]

theorem moves_or_halts (services : Services γ τ) (problem : Option String) (a : Place γ τ) :
    (∃ b, Moves services problem a b) ∨ ∃ r, Halts services problem a r := by
  obtain ⟨step, progress, g, t⟩ := a
  by_cases hr : step.isReply = true
  · exact .inr ⟨_, .reply hr⟩
  by_cases hq : step.isQuery = true
  · rcases hl : lookUp services.lookup step (Progress.visit progress step) t with
      ⟨_ | stop, progress', t'⟩
    · have hl := lookUp_eq_none_iff.1 hl
      rcases hn : next services.graph problem step progress'.context g with ⟨f | following, g'⟩
      · exact .inr ⟨_, .next hq hl hn⟩
      · obtain ⟨candidates, chosen, hc, hf, hw, rfl⟩ := next_eq_ok_iff.1 hn
        exact .inl ⟨_, .follow hq hl hc hf hw⟩
    · exact .inr ⟨_, .lookUp hq hl⟩
  · exact .inr ⟨_, .unsupported (by simpa using hr) (by simpa using hq)⟩

theorem Halts.not_moves {a b : Place γ τ} {r : Ending × Progress × (γ × τ)}
    (h : Halts services problem a r) : ¬ Moves services problem a b := by
  intro hm
  obtain ⟨hq, hl, hc, hf, hw⟩ := hm
  cases h with
  | reply hr => simp [Step.not_isReply_of_isQuery hq] at hr
  | unsupported hr hq' => simp [hq] at hq'
  | lookUp _ hf' => simp [lookUp_eq_none_iff.2 hl] at hf'
  | next _ hl' hf' =>
    have he := lookUp_eq_none_iff.2 hl
    rw [lookUp_eq_none_iff.2 hl'] at he
    cases he
    simp [next_eq_ok_iff.2 ⟨_, _, hc, hf, hw, rfl⟩] at hf'

/-- A place has at most one next place. -/
theorem Moves.unique {a b b' : Place γ τ} (h : Moves services problem a b)
    (h' : Moves services problem a b') : b = b' := by
  obtain ⟨hq, hl, hc, hf, -⟩ := h
  obtain ⟨_, hl', hc', hf', -⟩ := h'
  have he := lookUp_eq_none_iff.2 hl
  rw [lookUp_eq_none_iff.2 hl'] at he
  cases he
  rw [hc] at hc'
  cases hc'
  rw [hf.unique hf']

/-- Two trails of one length from one place are the same. -/
theorem Trail.unique {a last : Place γ τ} {trail : List (Place γ τ)}
    (h : Trail services problem a trail last) {last' : Place γ τ} {trail' : List (Place γ τ)}
    (h' : Trail services problem a trail' last') (hl : trail.length = trail'.length) :
    trail = trail' ∧ last = last' := by
  induction h generalizing trail' with
  | here a =>
    cases h' with
    | here => exact ⟨rfl, rfl⟩
    | move _ ht => cases ht <;> simp at hl
  | move hm ht ih =>
    cases h' with
    | here => cases ht <;> simp at hl
    | move hm' ht' =>
      cases hm.unique hm'
      obtain ⟨rfl, rfl⟩ := ih ht' (by simpa using hl)
      exact ⟨rfl, rfl⟩

theorem visited_keep (progress : Progress) (field : Option String) (v : Value) :
    (Progress.keep progress field v).visited = progress.visited := by
  unfold Progress.keep
  split_ifs <;> rfl

theorem lookUp_visited (lookup : LookupSource τ) (step : Step) (progress : Progress) (t : τ) :
    (lookUp lookup step progress t).2.1.visited = progress.visited := by
  unfold lookUp
  split
  · rfl
  · split_ifs
    · rfl
    · split
      · rfl
      · rfl
      · split
        · rfl
        · simp only
          split <;> exact visited_keep ..

theorem LookedUp.visited {lookup : LookupSource τ} {step : Step} {progress progress' : Progress}
    {t t' : τ} (h : LookedUp lookup step progress t progress' t') :
    progress'.visited = progress.visited := by
  rw [← lookUp_visited lookup step progress t, lookUp_eq_none_iff.2 h]

theorem Moves.visited {a b : Place γ τ} (h : Moves services problem a b) :
    b.progress.visited = a.progress.visited ++ [a.step.key] := by
  obtain ⟨-, hl, -, -, -⟩ := h
  exact hl.visited

theorem Halts.visited {a : Place γ τ} {ending : Ending} {progress : Progress} {world : γ × τ}
    (h : Halts services problem a (ending, progress, world)) :
    progress.visited = a.progress.visited ++ [a.step.key] := by
  generalize hr : (ending, progress, world) = r at h
  cases h with
  | reply =>
    cases hr
    rfl
  | unsupported =>
    cases hr
    rfl
  | @lookUp step before after _ t _ _ _ hf =>
    cases hr
    have hv := lookUp_visited services.lookup step (Progress.visit before step) t
    rw [hf] at hv
    exact hv
  | next _ hl =>
    cases hr
    exact hl.visited

theorem Trail.visited {a last : Place γ τ} {trail : List (Place γ τ)}
    (h : Trail services problem a trail last) :
    last.progress.visited ++ [last.step.key] = a.progress.visited ++ trail.map (·.step.key) := by
  induction h with
  | here => simp
  | move hm _ ih => simp [ih, hm.visited]

/-- A walk follows one trail, no longer than the steps it has left, to a place where it halts or,
at the last of these steps, to one that it could move on from. -/
theorem walk_trail (services : Services γ τ) (problem : Option String) (limit : Nat) :
    ∀ (left : Nat) (a : Place γ τ), ∃ trail last, Trail services problem a trail last ∧
      trail.length ≤ left + 1 ∧
      (Halts services problem last
          (walk services problem limit (left + 1) a.step a.progress a.world) ∨
        trail.length = left + 1 ∧ ∃ b, Moves services problem last b ∧
          walk services problem limit (left + 1) a.step a.progress a.world =
            (.stopped (.fault (.stepLimitExceeded problem limit)), b.progress, b.world))
  | left, a => by
    rcases moves_or_halts services problem a with ⟨b, hm⟩ | ⟨r, hr⟩
    · rw [walk_of_moves hm]
      cases left with
      | zero => exact ⟨[a], a, .here a, by simp, .inr ⟨rfl, b, hm, rfl⟩⟩
      | succ left =>
        obtain ⟨trail, last, ht, hl, he⟩ := walk_trail services problem limit left b
        refine ⟨a :: trail, last, .move hm ht, by simpa using hl, ?_⟩
        simpa only [List.length_cons, Nat.add_right_cancel_iff] using he
    · rw [walk_of_halts hr]
      exact ⟨[a], a, .here a, by simp, .inl hr⟩

end Traversal

end Playbook
