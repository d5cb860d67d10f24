import Playbook.Proofs.Itinerary
import Playbook.Proofs.Lockstep
import Playbook.Proofs.Separation

/-!
# The limit of a walk

A larger limit changes no run that does not meet the smaller one, and lets a run that does go on
from where it was cut (`run_limit`, `run_limit_systems`). The lookups that a run issues are those
that the same run leaves in a service that notes them (`run_noting`).
-/

namespace Playbook

variable {γ τ : Type}

/-- What a service is asked for. -/
structure LookupCall where
  system : Option String
  table : Option String
  field : Option String
  condition : String
deriving DecidableEq

namespace LookupSource

/-- The service that also notes what it is asked for. -/
def noting (lookup : LookupSource τ) : LookupSource (τ × List LookupCall) where
  scalar system table field condition s :=
    let r := lookup.scalar system table field condition s.1
    (r.1, (r.2, s.2 ++ [⟨system, table, field, condition⟩]))

variable (lookup : LookupSource τ)

theorem noting_alike : lookup.noting.Alike lookup fun s t => s.1 = t where
  answer_eq _ _ _ _ _ _ h := h ▸ rfl
  stays _ _ _ _ _ _ h := h ▸ rfl

theorem noting_grows : lookup.noting.Grows Prod.snd :=
  fun _ _ _ _ _ => List.prefix_append _ _

variable {lookup}

theorem Avoids.noting {kind : Kind} (h : lookup.Avoids kind) : lookup.noting.Avoids kind :=
  fun system table field condition s => h system table field condition s.1

/-- A service whose answers depend on its arguments alone notes the same in any two states. -/
theorem Constant.noting {Fit : τ → Prop} (h : lookup.Constant Fit) :
    lookup.noting.Alike lookup.noting fun s s' => (Fit s.1 ∧ Fit s'.1) ∧ s.2 = s'.2 where
  answer_eq system table field condition _ _ hs := h.answer_eq system table field condition hs.1
  stays system table field condition _ _ hs :=
    ⟨h.stays system table field condition hs.1, congrArg (· ++ [_]) hs.2⟩

end LookupSource

namespace Traversal

/-- The lookups that a run issues, in order. -/
def issued (services : Services γ τ) (limit : Nat) (problem : Option String)
    (data : OrderedMap String Datum) (world : γ × τ) : List LookupCall :=
  (run ⟨services.graph, services.lookup.noting⟩ limit problem data
    (world.1, (world.2, []))).2.2.2

/-- Noting the lookups of a run does not change it. -/
theorem run_noting (services : Services γ τ) (limit : Nat) (problem : Option String)
    (data : OrderedMap String Datum) (world : γ × τ) :
    let noted := run ⟨services.graph, services.lookup.noting⟩ limit problem data
      (world.1, (world.2, []))
    run services limit problem data world = (noted.1, (noted.2.1, noted.2.2.1)) := by
  obtain ⟨outcome, g, s, t, rfl, hn, hr⟩ :=
    run_alike services.lookup.noting_alike (s := (world.2, [])) rfl services.graph problem limit
      data world.1
  intro noted
  rw [show noted = (outcome, (g, s)) from hn]
  exact hr

/-- A service whose answers depend on its arguments alone gives a run the same outcome, and is asked
the same, from any two states. -/
theorem run_constant {lookup : LookupSource τ} {Fit : τ → Prop} (hl : lookup.Constant Fit)
    (graph : GraphSource γ) (limit : Nat) (problem : Option String)
    (data : OrderedMap String Datum) (g : γ) {t t' : τ} (ht : Fit t) (ht' : Fit t') :
    let services : Services γ τ := ⟨graph, lookup⟩
    (run services limit problem data (g, t)).1 = (run services limit problem data (g, t')).1 ∧
      issued services limit problem data (g, t) = issued services limit problem data (g, t') := by
  intro services
  obtain ⟨outcome, g', u, u', ⟨-, hu⟩, hn, hn'⟩ := run_alike hl.noting (s := (t, []))
    (t := (t', [])) ⟨⟨ht, ht'⟩, rfl⟩ graph problem limit data g
  simp only [run_noting services, issued, services, hn, hn', hu, and_self]

theorem walk_limit {lookup : LookupSource τ} (graph : LocalGraph) (problem : Option String)
    {limit limit' : Nat} (h : limit ≤ limit') {ε : Type} {log : τ → List ε}
    (hg : lookup.Grows log) (a : Place Unit τ) :
    let services : Services Unit τ := ⟨graph.source, lookup⟩
    let shorter := walk services problem limit limit a.step a.progress a.world
    let longer := walk services problem limit' limit' a.step a.progress a.world
    (longer = shorter ∧ ∀ fault, shorter.1 = .stopped (.fault fault) →
      lookup.Avoids .stepLimitExceeded → fault.kind ≠ .stepLimitExceeded) ∨
    shorter.1 = .stopped (.fault (.stepLimitExceeded problem limit)) ∧
      shorter.2.1.visited.length = a.progress.visited.length + limit ∧
      shorter.2.1.visited <+: longer.2.1.visited ∧ log shorter.2.2.2 <+: log longer.2.2.2 := by
  obtain ⟨more, rfl⟩ := Nat.exists_eq_add_of_le h
  intro services shorter longer
  rcases walk_more limit (limit + more) limit more a with ⟨he, last, hh⟩ | ⟨b, hs, hv, hl⟩
  · refine .inl ⟨he, fun fault hf ha => ?_⟩
    have hs : shorter = (.stopped (.fault fault), shorter.2.1, shorter.2.2) := Prod.ext hf rfl
    replace hh : Halts services problem last shorter := hh
    rw [hs] at hh
    exact hh.kind_ne graph.source_failsOnly ha (by decide)
  · replace hs : shorter = _ := hs
    replace hl : longer = _ := hl
    rw [hs, hl]
    refine .inr ⟨rfl, hv, ?_, walk_grows hg (limit + more) more b⟩
    rw [walk_visited]
    exact List.prefix_append _ _

/-- With a larger limit a run is the same, and then only its service can have failed with the reason
of the limit, or it was cut after as many steps as it may visit and goes on from there. -/
theorem run_limit_cases (graph : LocalGraph) {lookup : LookupSource τ} {Fit : τ → Prop}
    (hl : lookup.Constant Fit) {t t' : τ} (ht : Fit t) (ht' : Fit t') (problem : Option String)
    (data : OrderedMap String Datum) {limit limit' : Nat} (h : limit ≤ limit') :
    let services : Services Unit τ := ⟨graph.source, lookup⟩
    let shorter := (run services limit problem data ((), t)).1
    let longer := (run services limit' problem data ((), t')).1
    let calls := issued services limit problem data ((), t)
    let calls' := issued services limit' problem data ((), t')
    (longer = shorter ∧ calls' = calls ∧
      (lookup.Avoids .stepLimitExceeded → shorter.reason? ≠ some "step limit exceeded")) ∨
    shorter.reason? = some "step limit exceeded" ∧ shorter.visited.length = limit ∧
      shorter.visited <+: longer.visited ∧ calls <+: calls' := by
  intro services shorter longer calls calls'
  have hk : Kind.stepLimitExceeded ∈ [.stepLimitExceeded, .lookupFailed] := by decide
  obtain ⟨hlonger, hissued⟩ := run_constant hl graph.source limit' problem data () ht' ht
  let noted (limit : Nat) := run ⟨graph.source, lookup.noting⟩ limit problem data ((), (t, []))
  have hnoted (limit : Nat) : (run services limit problem data ((), t)).1 = (noted limit).1 :=
    congrArg Prod.fst (run_noting services limit problem data ((), t))
  rw [show longer = _ from hlonger.trans (hnoted limit'), show shorter = _ from hnoted limit,
    show calls' = (noted limit').2.2.2 from hissued, show calls = (noted limit).2.2.2 from rfl]
  rcases run_cases graph problem data with ⟨outcome, hno, hall⟩ | ⟨first, context, -, hall⟩
  · have hs (limit : Nat) : noted limit = _ := (hall lookup.noting limit (t, [])).1
    rw [hs limit, hs limit']
    exact .inl ⟨rfl, rfl, fun _ hr => hno .stepLimitExceeded hk hr⟩
  have hs (limit : Nat) : noted limit = finish _ := (hall lookup.noting limit (t, [])).1
  rw [hs limit, hs limit']
  rcases walk_limit graph problem h lookup.noting_grows (Place.start first context (t, [])) with
    ⟨he, hno⟩ | ⟨he, hv, hvisited, hgrows⟩
  · rw [he]
    refine .inl ⟨rfl, rfl, fun ha hr => ?_⟩
    obtain ⟨fault, hf, hkind⟩ := (Outcome.ended_reason?_eq_iff hk _ _).1 hr
    exact hno fault hf ha.noting hkind
  · refine .inr ⟨?_, hv.trans (Nat.zero_add limit), hvisited, hgrows⟩
    exact (Outcome.ended_reason?_eq_iff hk _ _).2 ⟨_, he, rfl⟩

/-- A larger limit changes no run that does not meet the smaller one. One that does visits as many
steps as it may, unless it is the service that fails with that reason, and these steps and its
lookups come first in the run with the larger limit. -/
theorem run_limit (graph : LocalGraph) {lookup : LookupSource τ} {Fit : τ → Prop}
    (hl : lookup.Constant Fit) {t t' : τ} (ht : Fit t) (ht' : Fit t') (problem : Option String)
    (data : OrderedMap String Datum) {limit limit' : Nat} (h : limit ≤ limit') :
    let services : Services Unit τ := ⟨graph.source, lookup⟩
    let shorter := (run services limit problem data ((), t)).1
    let longer := (run services limit' problem data ((), t')).1
    (shorter.reason? ≠ some "step limit exceeded" → longer = shorter) ∧
    (shorter.reason? = some "step limit exceeded" →
      (lookup.Avoids .stepLimitExceeded → shorter.visited.length = limit) ∧
      shorter.visited <+: longer.visited ∧
      issued services limit problem data ((), t) <+:
        issued services limit' problem data ((), t')) := by
  intro services shorter longer
  rcases run_limit_cases graph hl ht ht' problem data h with
    ⟨he, hcalls, hno⟩ | ⟨hr, hv, hvisited, hcalls⟩
  · refine ⟨fun _ => he, fun hr => ⟨fun ha => absurd hr (hno ha), ?_, ?_⟩⟩
    · exact (congrArg Outcome.visited he).symm ▸ List.prefix_rfl
    · exact hcalls ▸ List.prefix_rfl
  · exact ⟨fun hn => absurd hr hn, fun _ => ⟨fun _ => hv, hvisited, hcalls⟩⟩

/-- A walk that goes round, and one that ends with its second step. -/
theorem run_limit_refunds :
    let systems : SqlSystems := .ofRegistered (.ofEntries [("shop", .address "sqlite://shop")])
      none true (.ofEntries [("sqlite://shop", .ofEntries
        [("SELECT amount FROM orders WHERE id = 7", .row (some [.int 50])),
          ("SELECT amount FROM orders WHERE id = 8", .row (some [.int 200]))])])
    let services : Services Unit SqlConnections := ⟨LocalGraph.refunds.source, systems.source⟩
    let data (id : Int) : OrderedMap String Datum := .ofEntries [("id", .int id)]
    let outcome (limit : Nat) (id : Int) :=
      (run services limit (some "refund") (data id) ((), .fresh)).1
    let calls (limit : Nat) (id : Int) :=
      issued services limit (some "refund") (data id) ((), .fresh)
    services.lookup.Constant systems.Linked ∧ systems.Linked .fresh ∧ 2 ≤ 5 ∧
    services.lookup.Avoids .stepLimitExceeded ∧
    ((outcome 2 8).reason? ≠ some "step limit exceeded" ∧ outcome 5 8 = outcome 2 8) ∧
    (outcome 2 7).reason? = some "step limit exceeded" ∧ (outcome 2 7).visited.length = 2 ∧
      (outcome 2 7).visited <+: (outcome 5 7).visited ∧ calls 2 7 <+: calls 5 7 := by
  intro systems services data outcome calls
  have hl : services.lookup.Constant systems.Linked := systems.steady.constant
  have hf : systems.Linked .fresh := systems.linked_fresh
  have hle : 2 ≤ 5 := by decide
  have ha : services.lookup.Avoids .stepLimitExceeded :=
    LookupSource.avoids_running systems.run fun _ => by decide
  obtain ⟨h8, -⟩ := run_limit .refunds hl hf hf (some "refund") (data 8) hle
  obtain ⟨-, h7⟩ := run_limit .refunds hl hf hf (some "refund") (data 7) hle
  have hr8 : (outcome 2 8).reason? ≠ some "step limit exceeded" := by decide +kernel
  have hr7 : (outcome 2 7).reason? = some "step limit exceeded" := by decide +kernel
  obtain ⟨hlength, hvisited, hcalls⟩ := h7 hr7
  exact ⟨hl, hf, hle, ha, ⟨hr8, h8 hr8⟩, hr7, hlength ha, hvisited, hcalls⟩

/-- Systems do not fail with the reason of the limit, so that a run on them that meets the limit has
visited as many steps as it may. -/
theorem run_limit_systems (graph : LocalGraph) (systems : SqlSystems) {t t' : SqlConnections}
    (ht : systems.Linked t) (ht' : systems.Linked t') (problem : Option String)
    (data : OrderedMap String Datum) {limit limit' : Nat} (h : limit ≤ limit') :
    let services : Services Unit SqlConnections := ⟨graph.source, systems.source⟩
    let shorter := (run services limit problem data ((), t)).1
    let longer := (run services limit' problem data ((), t')).1
    (shorter.reason? ≠ some "step limit exceeded" → longer = shorter) ∧
    (shorter.reason? = some "step limit exceeded" →
      shorter.visited.length = limit ∧ shorter.visited <+: longer.visited ∧
      issued services limit problem data ((), t) <+:
        issued services limit' problem data ((), t')) := by
  intro services shorter longer
  have ha : systems.source.Avoids .stepLimitExceeded :=
    LookupSource.avoids_running systems.run fun _ => by decide
  rcases run_limit_cases graph systems.steady.constant ht ht' problem data h with
    ⟨he, -, hno⟩ | ⟨hr, hcut⟩
  · exact ⟨fun _ => he, fun hr => absurd hr (hno ha)⟩
  · exact ⟨fun hn => absurd hr hn, fun _ => hcut⟩

end Traversal

end Playbook
