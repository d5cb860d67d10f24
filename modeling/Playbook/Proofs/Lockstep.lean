import Mathlib.Tactic.Common
import Playbook.Traversal

/-!
# Walks in lock step

Two services that answer alike in related states take a walk the same way and come to related
states (`run_alike`). A service whose answers depend on its arguments alone answers alike in any two
states (`LookupSource.Constant`). Two playbooks with the same first step and the same next steps are
walked the same way (`run_congr`).
-/

namespace Playbook

variable {γ τ τ' : Type}

/-- In related states two services give the same answers, which leave them in related states. -/
structure LookupSource.Alike (lookup : LookupSource τ) (lookup' : LookupSource τ')
    (R : τ → τ' → Prop) : Prop where
  answer_eq (system table field : Option String) (condition : String) {t : τ} {t' : τ'}
    (h : R t t') : (lookup.scalar system table field condition t).1 =
      (lookup'.scalar system table field condition t').1
  stays (system table field : Option String) (condition : String) {t : τ} {t' : τ'}
    (h : R t t') : R (lookup.scalar system table field condition t).2
      (lookup'.scalar system table field condition t').2

/-- In states of a kind, which it does not leave, the answers of a service depend on its arguments
alone. -/
def LookupSource.Constant (lookup : LookupSource τ) (Fit : τ → Prop) : Prop :=
  lookup.Alike lookup fun t t' => Fit t ∧ Fit t'

section Alike

variable {lookup : LookupSource τ} {lookup' : LookupSource τ'} {R : τ → τ' → Prop}
  (h : lookup.Alike lookup' R) {s : τ} {t : τ'} (hst : R s t)
include h hst

theorem LookupSource.Alike.scalar (system table field : Option String) (condition : String) :
    ∃ found u u', R u u' ∧ lookup.scalar system table field condition s = (found, u) ∧
      lookup'.scalar system table field condition t = (found, u') :=
  ⟨_, _, _, h.stays system table field condition hst, rfl,
    Prod.ext (h.answer_eq system table field condition hst).symm rfl⟩

namespace Traversal

theorem lookUp_alike (step : Step) (progress : Progress) :
    ∃ stop progress' u u', R u u' ∧ lookUp lookup step progress s = (stop, progress', u) ∧
      lookUp lookup' step progress t = (stop, progress', u') := by
  unfold lookUp
  rcases step.condition with _ | template
  · exact ⟨_, _, s, t, hst, rfl, rfl⟩
  dsimp only
  split_ifs
  · exact ⟨_, _, s, t, hst, rfl, rfl⟩
  rcases Template.render template progress.context with f | condition
  · cases f <;> exact ⟨_, _, s, t, hst, rfl, rfl⟩
  obtain ⟨found, u, u', hu, hs, hs'⟩ := h.scalar hst step.system step.table step.field condition
  simp only [hs, hs']
  rcases found with f | v
  · exact ⟨_, _, u, u', hu, rfl, rfl⟩
  dsimp only
  rcases v.format with f | text <;> exact ⟨_, _, u, u', hu, rfl, rfl⟩

variable (graph : GraphSource γ) (problem : Option String) (limit : Nat)

theorem walk_alike (left : Nat) (step : Step) (progress : Progress) (g : γ) :
    ∃ ending progress' g' u u', R u u' ∧
      walk ⟨graph, lookup⟩ problem limit left step progress (g, s) =
        (ending, progress', (g', u)) ∧
      walk ⟨graph, lookup'⟩ problem limit left step progress (g, t) =
        (ending, progress', (g', u')) := by
  induction left generalizing step progress g s t with
  | zero => exact ⟨_, _, g, s, t, hst, rfl, rfl⟩
  | succ left ih =>
    simp only [walk]
    split_ifs
    · exact ⟨_, _, g, s, t, hst, rfl, rfl⟩
    · exact ⟨_, _, g, s, t, hst, rfl, rfl⟩
    obtain ⟨stop, progress', u, u', hu, hl, hl'⟩ :=
      lookUp_alike h hst step { progress with visited := progress.visited ++ [step.key] }
    simp only [hl, hl']
    rcases stop with _ | stop
    · dsimp only
      rcases next graph problem step progress'.context g with ⟨f | following, g'⟩
      · exact ⟨_, _, g', u, u', hu, rfl, rfl⟩
      · exact ih hu following progress' g'
    · exact ⟨_, _, g, u, u', hu, rfl, rfl⟩

theorem start_alike (context : Context) (g : γ) :
    ∃ ending progress g' u u', R u u' ∧
      start ⟨graph, lookup⟩ limit problem context (g, s) = (ending, progress, (g', u)) ∧
      start ⟨graph, lookup'⟩ limit problem context (g, t) = (ending, progress, (g', u')) := by
  simp only [start]
  rcases graph.firstStep problem g with ⟨f | first, g'⟩
  · exact ⟨_, _, g', s, t, hst, rfl, rfl⟩
  · exact walk_alike h hst graph problem limit limit first (.initial context) g'

/-- Services that answer alike are not told apart by a run. -/
theorem run_alike (data : OrderedMap String Datum) (g : γ) :
    ∃ outcome g' u u', R u u' ∧
      run ⟨graph, lookup⟩ limit problem data (g, s) = (outcome, (g', u)) ∧
      run ⟨graph, lookup'⟩ limit problem data (g, t) = (outcome, (g', u')) := by
  simp only [run]
  rcases Context.ofData data with f | context
  · exact ⟨_, g, s, t, hst, rfl, rfl⟩
  · obtain ⟨ending, progress, g', u, u', hu, hs, hs'⟩ :=
      start_alike h hst graph problem limit context g
    simp only [hs, hs']
    exact ⟨_, g', u, u', hu, rfl, rfl⟩

end Traversal

end Alike

namespace Traversal

section Congr

variable {graph graph' : GraphSource γ} {problem : Option String}
  (hn : ∀ step context, next graph problem step context = next graph' problem step context)
include hn

theorem walk_congr (lookup : LookupSource τ) (limit left : Nat) (step : Step) (progress : Progress)
    (world : γ × τ) : walk ⟨graph, lookup⟩ problem limit left step progress world =
      walk ⟨graph', lookup⟩ problem limit left step progress world := by
  induction left generalizing step progress world with
  | zero => rfl
  | succ left ih =>
    obtain ⟨g, t⟩ := world
    simp only [walk]
    split_ifs
    · rfl
    · rfl
    rcases lookUp lookup step { progress with visited := progress.visited ++ [step.key] } t with
      ⟨_ | stop, progress', t'⟩
    · dsimp only
      rw [hn]
      rcases next graph' problem step progress'.context g with ⟨f | following, g'⟩
      · rfl
      · exact ih following progress' (g', t')
    · rfl

/-- Playbooks with the same first step and the same next steps are not told apart by a run. -/
theorem run_congr (hf : graph.firstStep problem = graph'.firstStep problem)
    (lookup : LookupSource τ) (limit : Nat) (data : OrderedMap String Datum) (world : γ × τ) :
    run ⟨graph, lookup⟩ limit problem data world =
      run ⟨graph', lookup⟩ limit problem data world := by
  simp only [run, start, hf, walk_congr hn]

end Congr

end Traversal

end Playbook
