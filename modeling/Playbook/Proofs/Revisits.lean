import Mathlib.Data.List.Nodup
import Playbook.Proofs.Itinerary
import Playbook.Proofs.Separation

/-!
# Steps that are visited again

With a playbook in memory and a service whose answers depend on its arguments alone, the step and
the context on arrival decide how a walk goes on (`Moves.alike`). So a walk that comes to a step
again with the context that it had there goes round for ever, whatever its limit, and a run that
completes comes to no step twice with one context (`run_revisits`).
-/

namespace Playbook.Traversal

variable {τ : Type}

/-- The same step is arrived at with the same context. What was visited and looked up before may
differ, and so may what the service did. -/
structure Place.Alike (Fit : τ → Prop) (a b : Place Unit τ) : Prop where
  step : a.step = b.step
  context : a.progress.context = b.progress.context
  left : Fit a.world.2
  right : Fit b.world.2

theorem Place.Alike.trans {Fit : τ → Prop} {a b c : Place Unit τ} (h : a.Alike Fit b)
    (h' : b.Alike Fit c) : a.Alike Fit c :=
  ⟨h.step.trans h'.step, h.context.trans h'.context, h.left, h'.right⟩

/-- The lookup at a place, if its step is a query, leaves the context as it is. -/
def Place.KeepsContext (lookup : LookupSource τ) (place : Place Unit τ) : Prop :=
  place.step.isQuery = true →
    (lookUp lookup place.step (Progress.visit place.progress place.step)
      place.world.2).2.1.context = place.progress.context

instance (lookup : LookupSource τ) (place : Place Unit τ) :
    Decidable (place.KeepsContext lookup) :=
  inferInstanceAs (Decidable (_ = true → _))

section Recurring

variable {services : Services Unit τ} {problem : Option String} {a b : Place Unit τ}

theorem Moves.context (h : Moves services problem a b) (hk : a.KeepsContext services.lookup) :
    b.progress.context = a.progress.context := by
  obtain ⟨hq, hl, -, -⟩ := h
  have hc := hk hq
  rwa [lookUp_eq_none_iff.2 hl] at hc

theorem itinerary_context {left : Nat}
    (hk : ∀ p ∈ itinerary services problem left a, p.KeepsContext services.lookup) :
    ∀ p ∈ itinerary services problem left a, p.progress.context = a.progress.context :=
  forall_itinerary rfl fun p hp _ hm he => (hm.context (hk p hp)).trans he

/-- A walk that always has a place of a kind to go on to meets its limit. -/
theorem walk_recurring {P : Place Unit τ → Prop}
    (hP : ∀ a, P a → ∃ b, Moves services problem a b ∧ P b) (ha : P a) (limit left : Nat) :
    (walk services problem limit left a.step a.progress a.world).1 =
      .stopped (.fault (.stepLimitExceeded problem limit)) := by
  induction left generalizing a with
  | zero => rfl
  | succ left ih =>
    obtain ⟨b, hm, hb⟩ := hP a ha
    rw [walk_of_moves hm]
    exact ih hb

end Recurring

section Constant

variable {lookup : LookupSource τ} {Fit : τ → Prop} (hl : lookup.Constant Fit)

theorem keep_alike {progress progress' : Progress} (h : progress.context = progress'.context)
    (field : Option String) (v : Value) :
    (Progress.keep progress field v).context = (Progress.keep progress' field v).context := by
  rw [Progress.context_keep, Progress.context_keep, h]

include hl

theorem LookedUp.alike {step : Step} {progress progress' left : Progress} {t t' u : τ}
    (h : LookedUp lookup step progress t left u) (hp : progress.context = progress'.context)
    (ht : Fit t) (ht' : Fit t') :
    ∃ left' u', LookedUp lookup step progress' t' left' u' ∧ left.context = left'.context ∧
      Fit u ∧ Fit u' := by
  cases h with
  | unasked hc told => exact ⟨progress', t', .unasked hc told, hp, ht, ht'⟩
  | @answered _ template condition text v hc hne hr hs hf =>
    obtain ⟨found, w, w', hw, he, he'⟩ :=
      hl.scalar (s := t) (t := t') ⟨ht, ht'⟩ step.system step.table step.field condition
    cases hs.symm.trans he
    exact ⟨_, w', .answered hc hne (hp ▸ hr) he' hf, keep_alike hp _ v, hw⟩

variable {graph : LocalGraph} {problem : Option String} {left : Nat} {a b c : Place Unit τ}

/-- Places that are alike lead on to places that are alike. -/
theorem Moves.alike (h : Moves ⟨graph.source, lookup⟩ problem a b) (hc : a.Alike Fit c) :
    ∃ d, Moves ⟨graph.source, lookup⟩ problem c d ∧ b.Alike Fit d := by
  obtain ⟨step, progress, ⟨⟩, t⟩ := c
  obtain ⟨rfl, hcontext, ht, ht'⟩ := hc
  cases h with
  | @follow step _ _ _ _ _ _ candidates chosen hq hlook hread hfirst told =>
    have hvisit : (Progress.visit _ step).context = (Progress.visit progress step).context :=
      hcontext
    obtain ⟨left, u, hlook', hleft, hu, hu'⟩ := hlook.alike hl hvisit ht ht'
    exact ⟨_, .follow hq hlook' hread (hleft ▸ hfirst) told, rfl, hleft, hu, hu'⟩

theorem itinerary_fit (hs : graph.Holds a.step) (ht : Fit a.world.2) {p : Place Unit τ}
    (hp : p ∈ itinerary ⟨graph.source, lookup⟩ problem left a) :
    graph.Holds p.step ∧ Fit p.world.2 := by
  refine forall_itinerary (P := fun p => graph.Holds p.step ∧ Fit p.world.2) ⟨hs, ht⟩
    (fun p _ q hm hp => ⟨hm.leads.holds, ?_⟩) p hp
  obtain ⟨d, -, hd⟩ := hm.alike hl ⟨rfl, rfl, hp.2, hp.2⟩
  exact hd.left

/-- A walk from a place like the first of another one, which comes to a place like an earlier one,
meets its limit. -/
theorem walk_revisits {i j : Nat} {p q : Place Unit τ} (hij : i < j)
    (hi : (itinerary ⟨graph.source, lookup⟩ problem left a)[i]? = some p)
    (hj : (itinerary ⟨graph.source, lookup⟩ problem left a)[j]? = some q) (hpq : p.Alike Fit q)
    (hab : a.Alike Fit b) (limit left' : Nat) :
    (walk ⟨graph.source, lookup⟩ problem limit left' b.step b.progress b.world).1 =
      .stopped (.fault (.stepLimitExceeded problem limit)) := by
  have hlen := (List.getElem?_eq_some_iff.1 hj).1
  have hat {n : Nat} (hn : n ≤ j) :
      ∃ r, (itinerary ⟨graph.source, lookup⟩ problem left a)[n]? = some r :=
    ⟨_, List.getElem?_eq_getElem (by omega)⟩
  -- The walk is always at a place like one that the other comes to before its second visit.
  refine walk_recurring (P := fun c => ∃ n < j, ∃ r,
    (itinerary ⟨graph.source, lookup⟩ problem left a)[n]? = some r ∧ r.Alike Fit c) ?_ ?_ limit
      left'
  · rintro c ⟨n, hn, r, hr, hrc⟩
    obtain ⟨s, hs⟩ := hat hn
    obtain ⟨d, hm, hsd⟩ := (moves_of_itinerary hr hs).alike hl hrc
    refine ⟨d, hm, ?_⟩
    by_cases he : n + 1 = j
    · subst he
      cases hj.symm.trans hs
      exact ⟨i, hij, p, hi, hpq.trans hsd⟩
    · exact ⟨n + 1, by omega, s, hs, hsd⟩
  · obtain ⟨r, hr⟩ := hat (Nat.zero_le j)
    exact ⟨0, by omega, r, hr, eq_of_itinerary_zero hr ▸ hab⟩

/-- A run that comes to a step again with the same context meets its limit, and so does every run
that starts like it. -/
theorem run_recurs {limit i j : Nat} {data : OrderedMap String Datum} {t t' : τ} (ht : Fit t)
    (ht' : Fit t') {p q : Place Unit τ} (hij : i < j)
    (hp : (places ⟨graph.source, lookup⟩ limit problem data ((), t))[i]? = some p)
    (hq : (places ⟨graph.source, lookup⟩ limit problem data ((), t))[j]? = some q)
    (hkey : p.step.key = q.step.key) (hcontext : p.progress.context = q.progress.context)
    (limit' : Nat) :
    (run ⟨graph.source, lookup⟩ limit' problem data ((), t')).1.reason? =
      some "step limit exceeded" := by
  rcases run_cases graph problem data with ⟨_, -, hall⟩ | ⟨first, context, hfirst, hall⟩
  · rw [(hall lookup limit t).2] at hp
    cases hp
  obtain ⟨hrun, -⟩ := hall lookup limit' t'
  rw [(hall lookup limit t).2] at hp hq
  obtain ⟨hp₁, hp₂⟩ := itinerary_fit hl hfirst ht (List.mem_of_getElem? hp)
  obtain ⟨hq₁, hq₂⟩ := itinerary_fit hl hfirst ht (List.mem_of_getElem? hq)
  have hw := walk_revisits hl hij hp hq ⟨hp₁.eq hq₁ hkey, hcontext, hp₂, hq₂⟩
    (b := Place.start first context t') ⟨rfl, rfl, ht, ht'⟩ limit' limit'
  have hk : Kind.stepLimitExceeded ∈ [.stepLimitExceeded, .lookupFailed] := by decide
  rw [hrun]
  exact (Outcome.ended_reason?_eq_iff hk _ _).2 ⟨_, hw, rfl⟩

end Constant

theorem places_context {graph : LocalGraph} {lookup : LookupSource τ} {problem : Option String}
    {limit : Nat} {data : OrderedMap String Datum} {t : τ}
    (hk : ∀ p ∈ places ⟨graph.source, lookup⟩ limit problem data ((), t), p.KeepsContext lookup) :
    ∃ context, ∀ p ∈ places ⟨graph.source, lookup⟩ limit problem data ((), t),
      p.progress.context = context := by
  rcases run_cases graph problem data with ⟨_, -, hall⟩ | ⟨first, context, -, hall⟩
  · rw [(hall lookup limit t).2]
    exact ⟨.empty, fun p hp => absurd hp List.not_mem_nil⟩
  · rw [(hall lookup limit t).2] at hk ⊢
    exact ⟨context, fun p hp =>
      (itinerary_context hk p hp).trans (Progress.context_initial context)⟩

/-- Where a run comes to a step again with the context that it had there before, every run of the
same problem with the same context meets its limit. So a run that completes never comes to a step
again with the same context, nor, if its lookups leave the context as it is, comes to a step
again. -/
theorem run_revisits (graph : LocalGraph) {lookup : LookupSource τ} {Fit : τ → Prop}
    (hl : lookup.Constant Fit) (limit : Nat) (problem : Option String)
    (data : OrderedMap String Datum) {t : τ} (ht : Fit t) :
    let services : Services Unit τ := ⟨graph.source, lookup⟩
    let outcome (limit : Nat) (t : τ) := (run services limit problem data ((), t)).1
    let stands := places services limit problem data ((), t)
    (outcome limit t).visited = stands.map (·.step.key) ∧
    (∀ (i j : Nat) (p q : Place Unit τ), i < j → stands[i]? = some p → stands[j]? = some q →
      p.step.key = q.step.key → p.progress.context = q.progress.context → ∀ limit' t', Fit t' →
        (outcome limit' t').reason? = some "step limit exceeded") ∧
    ((outcome limit t).completed = true →
      (stands.map fun p => (p.step.key, p.progress.context)).Nodup) ∧
    ((outcome limit t).completed = true → (∀ p ∈ stands, p.KeepsContext lookup) →
      (outcome limit t).visited.Nodup) := by
  intro services outcome stands
  have hvisited : (outcome limit t).visited = stands.map (·.step.key) :=
    run_visited services limit problem data ((), t)
  have hpairs : (outcome limit t).completed = true →
      (stands.map fun p => (p.step.key, p.progress.context)).Nodup := by
    intro hc
    rw [List.nodup_iff_getElem?_ne_getElem?]
    intro i j hij hj he
    rw [List.length_map] at hj
    have hp := List.getElem?_eq_getElem (lt_trans hij hj)
    have hq := List.getElem?_eq_getElem hj
    rw [List.getElem?_map, List.getElem?_map, hp, hq] at he
    obtain ⟨hkey, hcontext⟩ := Prod.mk.inj (Option.some.inj he)
    have hr : (outcome limit t).reason? = _ := run_recurs hl ht ht hij hp hq hkey hcontext limit
    rw [Outcome.completed, Option.isNone_iff_eq_none] at hc
    simp [Outcome.reason?, hc] at hr
  refine ⟨hvisited, ?_, hpairs, fun hc hk => ?_⟩
  · intro i j p q hij hp hq hkey hcontext limit' t' ht'
    exact run_recurs hl ht ht' hij hp hq hkey hcontext limit'
  obtain ⟨context, hcontext⟩ := places_context hk
  have he : (stands.map fun p => (p.step.key, p.progress.context)) =
      (outcome limit t).visited.map (·, context) := by
    rw [hvisited, List.map_map]
    exact List.map_congr_left fun p hp => congrArg _ (hcontext p hp)
  exact (he ▸ hpairs hc).of_map _

/-- An order whose amount is looked up again and again, and one that is paid with the amount that is
known before. -/
theorem run_revisits_refunds :
    let systems : SqlSystems := .ofRegistered (.ofEntries [("shop", .address "sqlite://shop")])
      none true (.ofEntries [("sqlite://shop", .ofEntries
        [("SELECT amount FROM orders WHERE id = 7", .row (some [.int 50])),
          ("SELECT amount FROM orders WHERE id = 8", .row (some [.int 200]))])])
    let services : Services Unit SqlConnections := ⟨LocalGraph.refunds.source, systems.source⟩
    let data (id : Int) : OrderedMap String Datum :=
      .ofEntries [("id", .int id), ("amount", .int 200)]
    let outcome (limit : Nat) (id : Int) :=
      (run services limit (some "refund") (data id) ((), .fresh)).1
    let stands (id : Int) := places services 3 (some "refund") (data id) ((), .fresh)
    services.lookup.Constant systems.Linked ∧ systems.Linked .fresh ∧
    (∃ p q, (stands 7)[1]? = some p ∧ (stands 7)[2]? = some q ∧ p.step.key = q.step.key ∧
      p.progress.context = q.progress.context) ∧
    (outcome 9 7).reason? = some "step limit exceeded" ∧
    (outcome 3 8).completed = true ∧ (∀ p ∈ stands 8, p.KeepsContext services.lookup) ∧
    ((stands 8).map fun p => (p.step.key, p.progress.context)).Nodup ∧
      (outcome 3 8).visited.Nodup := by
  intro systems services data outcome stands
  have hl : services.lookup.Constant systems.Linked := systems.steady.constant
  have hf : systems.Linked .fresh := systems.linked_fresh
  obtain ⟨-, h7, -, -⟩ := run_revisits .refunds hl 3 (some "refund") (data 7) hf
  obtain ⟨-, -, h8, h8'⟩ := run_revisits .refunds hl 3 (some "refund") (data 8) hf
  obtain ⟨p, hp⟩ : ∃ p, (stands 7)[1]? = some p := Option.isSome_iff_exists.1 (by decide +kernel)
  obtain ⟨q, hq⟩ : ∃ q, (stands 7)[2]? = some q := Option.isSome_iff_exists.1 (by decide +kernel)
  have he : ((stands 7)[1]?.map fun p => (p.step.key, p.progress.context)) =
      (stands 7)[2]?.map fun q => (q.step.key, q.progress.context) := by decide +kernel
  rw [hp, hq] at he
  obtain ⟨hkey, hcontext⟩ := Prod.mk.inj (Option.some.inj he)
  have hc : (outcome 3 8).completed = true := by decide +kernel
  have hk : ∀ p ∈ stands 8, p.KeepsContext services.lookup := by decide +kernel
  exact ⟨hl, hf, ⟨p, q, hp, hq, hkey, hcontext⟩,
    h7 1 2 p q (by decide) hp hq hkey hcontext 9 .fresh hf, hc, hk, h8 hc, h8' hc hk⟩

end Playbook.Traversal
