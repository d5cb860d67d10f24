import Playbook.Proofs.Engines
import Playbook.Proofs.Itinerary

/-!
# Strict and lenient lookups

A service that is not strict finds null where a strict one fails. Over the same systems the two take
a walk the same way up to the first lookup that fails: the strict walk ends there, and the other one
goes on from there with what it has (`walk_strict`). So a strict service only adds interruptions
(`run_strict`).
-/

namespace Playbook

variable {γ τ : Type}

theorem LookupSource.grows_running {ε : Type} {log : τ → List ε}
    {answer : Option String → String → Attempt τ Value}
    (h : ∀ system sql t, log t <+: log (answer system sql t).2) (strict : Bool) :
    (LookupSource.running strict answer).Grows log := by
  intro system table field condition t
  have ha := h system (selectText table field (some condition)) t
  simp only [running, settle]
  rcases he : answer system (selectText table field (some condition)) t with ⟨f | v, t'⟩ <;>
    rw [he] at ha
  · dsimp only
    split_ifs <;> exact ha
  · exact ha

/-- Running a statement only adds to the log of a service. -/
theorem SqlSystems.run_log (systems : SqlSystems) (system : Option String) (sql : String)
    (connections : SqlConnections) :
    connections.log <+: (systems.run system sql connections).2.log := by
  rcases run_cases systems connections system sql with
    ⟨-, hr⟩ | ⟨name, tried, r, -, ho, ⟨fault, -, hr⟩ | ⟨engine, -, hr⟩⟩
  · simp only [hr, List.prefix_rfl]
  · rw [hr, ho.log]
    exact List.prefix_append _ _
  · rw [hr, SqlConnections.record, ho.log, List.append_assoc]
    exact List.prefix_append _ _

/-- A step asks for a lookup, which the service answers so. -/
def Step.Answered (step : Step) (lookup : LookupSource τ) (context : Context) (t : τ)
    (found : Except Fault Value) : Prop :=
  ∃ template condition, step.condition = some template ∧ template ≠ "" ∧
    Template.render template context = .ok condition ∧
    (lookup.scalar step.system step.table step.field condition t).1 = found

namespace Traversal

/-- The systems fail at a place, where a strict walk breaks off and a lenient one finds null, which
leaves all as it was. -/
structure Place.BreaksOff (answer : Option String → String → Attempt τ Value) (place : Place γ τ)
    (fault : Fault) (t : τ) : Prop where
  kind : fault.kind = .lookupFailed
  strict : place.step.Answered (.running true answer) place.progress.context place.world.2
    (.error fault)
  lenient : place.step.Answered (.running false answer) place.progress.context place.world.2
    (.ok .null)
  interrupts : lookUp (.running true answer) place.step (Progress.visit place.progress place.step)
    place.world.2 = (some (.fault fault), Progress.visit place.progress place.step, t)
  passes : lookUp (.running false answer) place.step (Progress.visit place.progress place.step)
    place.world.2 = (none, Progress.visit place.progress place.step, t)

/-- A strict lookup and a lenient one are the same but where the systems fail. -/
theorem lookUp_strict (answer : Option String → String → Attempt τ Value) (place : Place γ τ) :
    let progress := Progress.visit place.progress place.step
    lookUp (.running true answer) place.step progress place.world.2 =
        lookUp (.running false answer) place.step progress place.world.2 ∨
      ∃ fault t, place.BreaksOff answer fault t := by
  obtain ⟨step, progress, g, t⟩ := place
  dsimp only
  rcases hc : step.condition with _ | template
  · exact .inl (by simp only [lookUp, hc])
  by_cases hne : template = ""
  · exact .inl (by simp only [lookUp, hc, hne, if_true])
  rcases hr : Template.render template progress.context with f | condition
  · refine .inl ?_
    simp only [lookUp, hc, hne, if_false, Progress.context_visit, hr]
    cases f <;> rfl
  rcases ha : answer step.system (selectText step.table step.field (some condition)) t with
    ⟨f | v, t'⟩
  · have hs : (LookupSource.running true answer).scalar step.system step.table step.field condition
        t = (.error (lookupFault f), t') := by
      simp only [LookupSource.running, LookupSource.settle, ha, if_true]
    have hl : (LookupSource.running false answer).scalar step.system step.table step.field condition
        t = (.ok .null, t') := by
      simp only [LookupSource.running, LookupSource.settle, ha, Bool.false_eq_true, if_false]
    have hn : Value.format .null = .ok "null" := rfl
    refine .inr ⟨lookupFault f, t', kind_lookupFault f, ?_, ?_, ?_, ?_⟩
    · exact ⟨template, condition, hc, hne, hr, congrArg Prod.fst hs⟩
    · exact ⟨template, condition, hc, hne, hr, congrArg Prod.fst hl⟩
    · simp only [lookUp, hc, hne, if_false, Progress.context_visit, hr, hs]
    · simp only [lookUp, hc, hne, if_false, Progress.context_visit, hr, hl, hn, Progress.keep,
        if_true]
  · refine .inl ?_
    simp only [lookUp, hc, hne, if_false, Progress.context_visit, hr, LookupSource.running,
      LookupSource.settle, ha]

section Walk

variable {answer : Option String → String → Attempt τ Value} {problem : Option String}

theorem Moves.lenient {graph : GraphSource γ} {a b : Place γ τ}
    (h : Moves ⟨graph, .running true answer⟩ problem a b) :
    Moves ⟨graph, .running false answer⟩ problem a b := by
  cases h with
  | @follow step progress _ g _ t _ _ _ hq hl hc hf hw =>
    have hl := lookUp_eq_none_iff.2 hl
    rcases lookUp_strict answer ⟨step, progress, (g, t)⟩ with he | ⟨fault, t', hb⟩
    · exact .follow hq (lookUp_eq_none_iff.1 (he.symm.trans hl)) hc hf hw
    · cases hb.interrupts.symm.trans hl

/-- A strict walk halts as a lenient one does but where the systems fail. -/
theorem Halts.lenient {graph : GraphSource γ} {a : Place γ τ} {r : Ending × Progress × (γ × τ)}
    (h : Halts ⟨graph, .running true answer⟩ problem a r) :
    Halts ⟨graph, .running false answer⟩ problem a r ∨
      ∃ fault t, a.BreaksOff answer fault t ∧ a.step.isQuery = true ∧
        r = (.stopped (.fault fault), Progress.visit a.progress a.step, (a.world.1, t)) := by
  cases h with
  | reply hr => exact .inl (.reply hr)
  | unsupported hr hq => exact .inl (.unsupported hr hq)
  | @lookUp step progress _ g t _ _ hq hf =>
    rcases lookUp_strict answer ⟨step, progress, (g, t)⟩ with he | ⟨fault, t', hb⟩
    · exact .inl (.lookUp hq (he.symm.trans hf))
    · refine .inr ⟨fault, t', hb, hq, ?_⟩
      cases hb.interrupts.symm.trans hf
      rfl
  | @next step progress _ g _ t _ _ hq hl hf =>
    have hl := lookUp_eq_none_iff.2 hl
    rcases lookUp_strict answer ⟨step, progress, (g, t)⟩ with he | ⟨fault, t', hb⟩
    · exact .inl (.next hq (lookUp_eq_none_iff.1 (he.symm.trans hl)) hf)
    · cases hb.interrupts.symm.trans hl

variable {ε : Type} {log : τ → List ε}
  (hlog : ∀ system sql t, log t <+: log (answer system sql t).2)
include hlog

/-- A strict walk is the lenient one, and no lookup fails in it, or it breaks off at a place of the
lenient one. -/
theorem walk_strict (graph : LocalGraph) (problem : Option String) (limit left : Nat)
    (a : Place Unit τ) :
    let services (strict : Bool) : Services Unit τ := ⟨graph.source, .running strict answer⟩
    let strict := walk (services true) problem limit left a.step a.progress a.world
    let lenient := walk (services false) problem limit left a.step a.progress a.world
    (strict = lenient ∧ ∀ fault, strict.1 = .stopped (.fault fault) →
        fault.kind ≠ .lookupFailed) ∨
      ∃ (n : Nat) (place : Place Unit τ) (fault : Fault) (t : τ),
        (itinerary (services false) problem left a)[n]? = some place ∧
        place.progress.visited.length = a.progress.visited.length + n ∧
        place.BreaksOff answer fault t ∧
        strict = (.stopped (.fault fault), Progress.visit place.progress place.step, ((), t)) ∧
        strict.2.1.visited <+: lenient.2.1.visited ∧ log t <+: log lenient.2.2.2 := by
  intro services strict lenient
  induction left generalizing a with
  | zero =>
    refine .inl ⟨rfl, fun fault he => ?_⟩
    cases he
    simp [Fault.kind]
  | succ left ih =>
    rcases moves_or_halts (services true) problem a with ⟨b, hm⟩ | ⟨r, hr⟩
    · have hs : strict = _ := walk_of_moves hm
      have hl : lenient = _ := walk_of_moves hm.lenient
      rw [hs, hl, itinerary_of_moves hm.lenient]
      refine (ih b).imp_right ?_
      rintro ⟨n, place, fault, t, hn, hv, hrest⟩
      refine ⟨n + 1, place, fault, t, hn, ?_, hrest⟩
      rw [hv, hm.visited, List.length_append, List.length_singleton]
      omega
    · have hs : strict = r := walk_of_halts hr
      rcases hr.lenient with hr' | ⟨fault, t, hb, hq, rfl⟩
      · refine .inl ⟨hs.trans (walk_of_halts hr').symm, fun fault he => ?_⟩
        obtain ⟨ending, progress, world⟩ := r
        rw [hs] at he
        cases he
        refine hr'.kind_ne graph.source_failsOnly ?_ (by decide)
        exact LookupSource.avoids_running answer (by simp)
      · refine .inr ⟨0, a, fault, t, itinerary_zero left, rfl, hb, hs, ?_, ?_⟩
        · rw [hs]
          exact visit_prefix_walk limit left a
        · exact walk_grows_of_lookUp (LookupSource.grows_running hlog false) hq hb.passes limit left

end Walk

/-- A run with a strict service is the one with a lenient service over the same systems, unless it
ends with a failed lookup. Then it breaks off at a place of the lenient run, with what that run had
there, and the lookup that failed finds null in the lenient run. -/
theorem run_strict (systems : SqlSystems) (graph : LocalGraph) (limit : Nat)
    (problem : Option String) (data : OrderedMap String Datum) (connections : SqlConnections) :
    let services (strict : Bool) : Services Unit SqlConnections :=
      ⟨graph.source, SqlSystems.source { systems with strict := strict }⟩
    let strict := run (services true) limit problem data ((), connections)
    let lenient := run (services false) limit problem data ((), connections)
    (strict.1.reason? ≠ some "external query failure" → strict = lenient) ∧
    (strict.1.reason? = some "external query failure" →
      strict.1.visited <+: lenient.1.visited ∧ strict.2.2.log <+: lenient.2.2.log ∧
      ∃ (n : Nat) (place : Place Unit SqlConnections) (fault : Fault) (t : SqlConnections),
        (places (services false) limit problem data ((), connections))[n]? = some place ∧
        strict.1.visited.length = n + 1 ∧
        strict = (.ended (.stopped (.fault fault)) (Progress.visit place.progress place.step),
          ((), t)) ∧
        place.BreaksOff systems.run fault t) := by
  intro services strict lenient
  have hlog : ∀ system sql t, SqlConnections.log t <+: (systems.run system sql t).2.log :=
    systems.run_log
  have hk : Kind.lookupFailed ∈ [.stepLimitExceeded, .lookupFailed] := by decide
  rcases run_cases graph problem data with ⟨outcome, hno, hall⟩ | ⟨first, context, -, hall⟩
  · have hs : strict = _ := (hall (services true).lookup limit connections).1
    have hl : lenient = _ := (hall (services false).lookup limit connections).1
    refine ⟨fun _ => hs.trans hl.symm, fun hr => absurd hr ?_⟩
    rw [hs]
    exact hno .lookupFailed hk
  have hs : strict = finish _ := (hall (services true).lookup limit connections).1
  obtain ⟨hl, hp⟩ := hall (services false).lookup limit connections
  replace hl : lenient = finish _ := hl
  rcases walk_strict hlog graph problem limit limit
    (Place.start first context connections) with
    ⟨he, hno⟩ | ⟨n, place, fault, t, hn, hv, hb, he, hvisited, hgrows⟩
  · refine ⟨fun _ => ?_, fun h => ?_⟩
    · exact hs.trans ((congrArg finish he).trans hl.symm)
    · rw [hs] at h
      obtain ⟨fault, hf, he⟩ := (Outcome.ended_reason?_eq_iff hk _ _).1 h
      exact absurd he (hno fault hf)
  · replace hs : strict = finish _ := hs.trans (congrArg finish he)
    refine ⟨fun h => absurd ?_ h, fun _ => ⟨?_, ?_, n, place, fault, t, ?_, ?_, hs, hb⟩⟩
    · rw [hs]
      exact (Outcome.ended_reason?_eq_iff hk _ _).2 ⟨fault, rfl, hb.kind⟩
    · rw [hs, hl]
      rw [he] at hvisited
      exact hvisited
    · rw [hs, hl]
      exact hgrows
    · exact hp ▸ hn
    · rw [hs]
      change (place.progress.visited ++ [place.step.key]).length = n + 1
      rw [List.length_append, hv]
      simp [Place.start]

/-- A shop that knows the order 7, but not the order 8. -/
theorem run_strict_refunds :
    let systems : SqlSystems := .ofRegistered (.ofEntries [("shop", .address "sqlite://shop")])
      none true (.ofEntries [("sqlite://shop", .ofEntries
        [("SELECT amount FROM orders WHERE id = 7", .row (some [.int 50]))])])
    let services (strict : Bool) : Services Unit SqlConnections :=
      ⟨LocalGraph.refunds.source, SqlSystems.source { systems with strict := strict }⟩
    let data (id : Int) : OrderedMap String Datum := .ofEntries [("id", .int id)]
    let strict (id : Int) := run (services true) 3 (some "refund") (data id) ((), .fresh)
    let lenient (id : Int) := run (services false) 3 (some "refund") (data id) ((), .fresh)
    ((strict 7).1.reason? ≠ some "external query failure" ∧ strict 7 = lenient 7) ∧
    (strict 8).1.reason? = some "external query failure" ∧
      (strict 8).1.visited <+: (lenient 8).1.visited ∧
      (strict 8).2.2.log <+: (lenient 8).2.2.log ∧
      ∃ (n : Nat) (place : Place Unit SqlConnections) (fault : Fault) (t : SqlConnections),
        (places (services false) 3 (some "refund") (data 8) ((), .fresh))[n]? = some place ∧
        (strict 8).1.visited.length = n + 1 ∧
        strict 8 = (.ended (.stopped (.fault fault)) (Progress.visit place.progress place.step),
          ((), t)) ∧
        place.BreaksOff systems.run fault t := by
  intro systems services data strict lenient
  obtain ⟨h7, -⟩ := run_strict systems .refunds 3 (some "refund") (data 7) .fresh
  obtain ⟨-, h8⟩ := run_strict systems .refunds 3 (some "refund") (data 8) .fresh
  have hr7 : (strict 7).1.reason? ≠ some "external query failure" := by decide +kernel
  have hr8 : (strict 8).1.reason? = some "external query failure" := by decide +kernel
  obtain ⟨hvisited, hlog, hplace⟩ := h8 hr8
  refine ⟨⟨hr7, h7 hr7⟩, hr8, hvisited, ?_, hplace⟩
  simpa only [strict, lenient, services] using hlog

end Traversal

end Playbook
