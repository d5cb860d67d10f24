import Mathlib.Tactic.Tauto
import Playbook.Proofs.Trail

/-!
# Why a walk stops

The faults that each part of a walk can meet, and from them the reasons that a place where a walk
halts can give (`Halts.reason`): apart from what the graph itself reports, only a query with
nothing after it stops for want of a next step.
-/

namespace Playbook

variable {γ τ : Type}

theorem Value.format_error {v : Value} {f : Fault} (h : v.format = .error f) :
    f = .integerTooLong := by
  unfold Value.format at h
  split at h
  · cases h
  · cases h
  · split at h
    · cases h
    · cases h
      rfl
  · cases h
  · cases h

/-- A met limit and a failed lookup have reasons of their own. -/
theorem Kind.reason_eq_iff {kind : Kind} (hk : kind ∈ [stepLimitExceeded, lookupFailed])
    (other : Kind) : other.reason = kind.reason ↔ other = kind := by
  simp only [List.mem_cons, List.not_mem_nil, or_false] at hk
  rcases hk with rfl | rfl <;> cases other <;> simp [reason]

theorem Stop.reason_eq_iff {kind : Kind} (hk : kind ∈ [Kind.stepLimitExceeded, .lookupFailed])
    (stop : Stop) : stop.reason = kind.reason ↔ ∃ f, stop = .fault f ∧ f.kind = kind := by
  cases stop with
  | fault f => simpa [reason] using Kind.reason_eq_iff hk f.kind
  | noFirstStep | unsupportedOperation | missingReply | queryVariable | replyVariable =>
    simp only [List.mem_cons, List.not_mem_nil, or_false] at hk
    rcases hk with rfl | rfl <;> simp [reason, Kind.reason]

theorem Outcome.reason?_eq_iff {kind : Kind} (hk : kind ∈ [Kind.stepLimitExceeded, .lookupFailed])
    (outcome : Outcome) :
    outcome.reason? = some kind.reason ↔ ∃ f, outcome.stop? = some (.fault f) ∧ f.kind = kind := by
  unfold reason?
  rcases outcome.stop? with _ | stop
  · simp
  · simp [Stop.reason_eq_iff hk]

theorem Outcome.ended_reason?_eq_iff {kind : Kind}
    (hk : kind ∈ [Kind.stepLimitExceeded, .lookupFailed]) (ending : Ending) (progress : Progress) :
    (ended ending progress).reason? = some kind.reason ↔
      ∃ f, ending = .stopped (.fault f) ∧ f.kind = kind := by
  rw [reason?_eq_iff hk]
  cases ending <;> simp [stop?]

namespace Template

theorem renderPiece_error {context : Context} {piece : Piece} {f : Fault}
    (h : renderPiece context piece = .error f) :
    (∃ name, f = .missingVariable name) ∨ f = .integerTooLong := by
  unfold renderPiece at h
  split at h
  · cases h
  · split at h
    · cases h
      exact .inl ⟨_, rfl⟩
    · rcases hv : Value.format _ with f' | text <;> rw [hv] at h <;> cases h
      exact .inr (Value.format_error hv)

theorem renderPieces_error {context : Context} {f : Fault} :
    ∀ {pieces : List Piece}, renderPieces context pieces = .error f →
      (∃ name, f = .missingVariable name) ∨ f = .integerTooLong
  | [], h => by cases h
  | piece :: rest, h => by
    simp only [renderPieces, bind, Except.bind] at h
    split at h
    · rename_i hp
      cases h
      exact renderPiece_error hp
    · split at h
      · rename_i hr
        cases h
        exact renderPieces_error hr
      · cases h

theorem render_error {template : String} {context : Context} {f : Fault}
    (h : render template context = .error f) :
    (∃ name, f = .missingVariable name) ∨ f = .integerTooLong := by
  unfold render at h
  rcases hp : renderPieces context (pieces template) with f' | text <;> rw [hp] at h <;> cases h
  exact renderPieces_error hp

end Template

theorem kind_lookupFault (fault : Fault) : (lookupFault fault).kind = .lookupFailed := by
  unfold lookupFault
  split_ifs with hk
  · exact hk
  · rfl

theorem LookupSource.settle_error {strict : Bool} {attempt : Attempt τ Value} {t t' : τ}
    {f : Fault} (h : settle strict attempt t = (.error f, t')) :
    strict = true ∧ f.kind = .lookupFailed := by
  unfold settle at h
  split at h
  · cases h
  · split_ifs at h with hs <;> cases h
    exact ⟨hs, kind_lookupFault _⟩

/-- No lookup of the service fails with a fault of the kind. -/
def LookupSource.Avoids (lookup : LookupSource τ) (kind : Kind) : Prop :=
  ∀ system table field condition t f,
    (lookup.scalar system table field condition t).1 = .error f → f.kind ≠ kind

theorem LookupSource.avoids_running {strict : Bool} {kind : Kind}
    (answer : Option String → String → Attempt τ Value)
    (h : strict = true → kind ≠ .lookupFailed) :
    (LookupSource.running strict answer).Avoids kind := by
  intro system table field condition t f hf hk
  have he : settle strict (answer system (selectText table field (some condition))) t =
      (.error f, _) := Prod.ext hf rfl
  obtain ⟨hs, hl⟩ := settle_error he
  exact h hs (hk.symm.trans hl)

/-- The reads of a walk fail with faults of certain kinds only. -/
structure GraphSource.FailsOnly (graph : GraphSource γ) (kinds : List Kind) : Prop where
  firstStep {problem : Option String} {g g' : γ} {f : Fault}
    (h : graph.firstStep problem g = (.error f, g')) : f.kind ∈ kinds
  candidates {problem : Option String} {step : Option Int} {g g' : γ} {f : Fault}
    (h : graph.candidates problem step g = (.error f, g')) : f.kind ∈ kinds

namespace Traversal

variable {graph : GraphSource γ} {strict : Bool}
  {run : Option String → String → Attempt τ Value} {problem : Option String}

theorem reply_reason {step : Step} {context : Context} {stop : Stop}
    (h : reply step context = .stopped stop) :
    stop.reason ∈ ["missing reply", "render failure", "system error"] := by
  have hnone : ((untold step).getD .missingReply).reason ∈
      ["missing reply", "render failure", "system error"] := by
    rcases hu : untold step with _ | stop
    · decide
    · rw [untold_eq_some hu]
      decide
  unfold reply at h
  split at h
  · cases h
    exact hnone
  · split_ifs at h
    · cases h
      exact hnone
    · split at h
      · cases h
      · cases h
        simp [Stop.reason, Kind.reason]
      · rename_i hm hr
        cases h
        rcases Template.render_error hr with ⟨name, rfl⟩ | rfl
        · exact absurd rfl (hm name)
        · decide

theorem lookUp_reason {step : Step} {progress progress' : Progress} {t t' : τ} {stop : Stop}
    (h : lookUp (.running strict run) step progress t = (some stop, progress', t')) :
    stop.reason ∈ ["render failure", "system error", "external query failure"] := by
  have hnone (hu : untold step = some stop) :
      stop.reason ∈ ["render failure", "system error", "external query failure"] := by
    rw [untold_eq_some hu]
    decide
  unfold lookUp at h
  split at h
  · exact hnone (congrArg Prod.fst h)
  · split_ifs at h
    · exact hnone (congrArg Prod.fst h)
    · split at h
      · cases h
        simp [Stop.reason, Kind.reason]
      · rename_i hm hr
        cases h
        rcases Template.render_error hr with ⟨name, rfl⟩ | rfl
        · exact absurd rfl (hm name)
        · decide
      · split at h
        · rename_i hs
          cases h
          have hk := (LookupSource.settle_error hs).2
          simp [Stop.reason, hk, Kind.reason]
        · simp only at h
          split at h
          · cases h
          · rename_i hf
            cases h
            rw [Value.format_error hf]
            decide

theorem next_error {step : Step} {context : Context} {g g' : γ} {f : Fault}
    (h : next graph problem step context g = (.error f, g')) :
    graph.candidates problem step.id g = (.error f, g') ∨
      ∃ candidates, graph.candidates problem step.id g = (.ok candidates, g') ∧
        Strands step candidates context f := by
  unfold next at h
  split at h
  · rename_i hc
    cases h
    exact .inl hc
  · rename_i candidates g'' hc
    obtain ⟨hf, rfl⟩ := Prod.mk.inj h
    exact .inr ⟨candidates, hc, strands_of_follow hf⟩

/-- Where a walk halts for a reason of its own, it is not the limit, and it is the want of a next
step only where the graph has no candidate. -/
theorem Halts.reason {kinds : List Kind} (hg : graph.FailsOnly kinds) {a : Place γ τ} {stop : Stop}
    {progress : Progress} {world : γ × τ}
    (h : Halts ⟨graph, .running strict run⟩ problem a (.stopped stop, progress, world)) :
    stop.reason ∈ ["missing reply", "render failure", "system error", "unsupported operation",
        "external query failure", "no satisfied branch"] ∨
      (a.step.isQuery = true ∧
        ∃ g, graph.candidates problem a.step.id a.world.1 = (.ok [], g)) ∧
        stop.reason = "no next step" ∨
      ∃ kind ∈ kinds, stop.reason = kind.reason := by
  generalize he : Ending.stopped stop = ending at h
  cases h with
  | reply =>
    have hr := reply_reason he.symm
    simp only [List.mem_cons, List.not_mem_nil, or_false] at hr ⊢
    tauto
  | unsupported =>
    cases he
    exact .inl (by decide)
  | lookUp hq hf =>
    cases he
    have hr := lookUp_reason hf
    simp only [List.mem_cons, List.not_mem_nil, or_false] at hr ⊢
    tauto
  | next hq hl hf =>
    cases he
    rcases next_error hf with hc | ⟨candidates, hc, hs⟩
    · exact .inr (.inr ⟨_, hg.candidates hc, rfl⟩)
    · cases hs with
      | lost | untold | closed => exact .inl (by simp [Stop.reason, Kind.reason, Fault.kind])
      | last hn => exact .inr (.inl ⟨⟨hq, _, hn ▸ hc⟩, rfl⟩)

theorem reply_fault {step : Step} {context : Context} {f : Fault}
    (h : reply step context = .stopped (.fault f)) : f = .integerTooLong := by
  have hnone (he : Ending.stopped ((untold step).getD .missingReply) = .stopped (.fault f)) :
      f = .integerTooLong := by
    rcases hu : untold step with _ | stop
    · rw [hu] at he
      cases he
    · rw [hu, untold_eq_some hu] at he
      cases he
      rfl
  unfold reply at h
  split at h
  · exact hnone h
  · split_ifs at h
    · exact hnone h
    split at h
    · cases h
    · cases h
    · rename_i hm hr
      cases h
      rcases Template.render_error hr with ⟨name, rfl⟩ | rfl
      · exact absurd rfl (hm name)
      · rfl

theorem lookUp_fault {lookup : LookupSource τ} {step : Step} {progress progress' : Progress}
    {t t' : τ} {f : Fault}
    (h : lookUp lookup step progress t = (some (.fault f), progress', t')) :
    f = .integerTooLong ∨ ∃ condition,
      lookup.scalar step.system step.table step.field condition t = (.error f, t') := by
  have hnone (hu : untold step = some (.fault f)) : f = .integerTooLong := by
    cases untold_eq_some hu
    rfl
  unfold lookUp at h
  split at h
  · exact .inl (hnone (congrArg Prod.fst h))
  · split_ifs at h
    · exact .inl (hnone (congrArg Prod.fst h))
    · split at h
      · cases h
      · rename_i hm hr
        cases h
        rcases Template.render_error hr with ⟨name, rfl⟩ | rfl
        · exact absurd rfl (hm name)
        · exact .inl rfl
      · rename_i condition _
        split at h
        · rename_i hs
          cases h
          exact .inr ⟨condition, hs⟩
        · simp only at h
          split at h
          · cases h
          · rename_i hf
            cases h
            exact .inl (Value.format_error hf)

/-- Where a walk halts for a fault, it is one of the graph, of the service or of the walk itself. -/
theorem Halts.kind_ne {lookup : LookupSource τ} {kinds : List Kind} {kind : Kind}
    (hg : graph.FailsOnly kinds) (hl : lookup.Avoids kind)
    (hk : kind ∉ .unreadable :: .noNextStep :: .noSatisfiedBranch :: kinds) {a : Place γ τ}
    {f : Fault} {progress : Progress} {world : γ × τ}
    (h : Halts ⟨graph, lookup⟩ problem a (.stopped (.fault f), progress, world)) :
    f.kind ≠ kind := by
  simp only [List.mem_cons, not_or] at hk
  generalize he : Ending.stopped (.fault f) = ending at h
  cases h with
  | reply =>
    rw [reply_fault he.symm]
    exact Ne.symm hk.1
  | unsupported => cases he
  | lookUp _ hf =>
    cases he
    rcases lookUp_fault hf with rfl | ⟨condition, hs⟩
    · exact Ne.symm hk.1
    · exact hl _ _ _ _ _ _ (congrArg Prod.fst hs)
  | next _ _ hf =>
    cases he
    rcases next_error hf with hc | ⟨_, -, hs⟩
    · exact fun he => hk.2.2.2 (he ▸ hg.candidates hc)
    · cases hs with
      | lost | untold => exact Ne.symm hk.1
      | last => exact Ne.symm hk.2.1
      | closed => exact Ne.symm hk.2.2.1

end Traversal

end Playbook
