import Mathlib.Data.List.Basic
import Mathlib.Tactic.Common
import Playbook.Proofs.Separation

/-!
# Who owns the engines

A query finds the engine of its system live, or is given one that is registered, or creates one at
an address, or fails (`SqlSystems.Obtains`). Between two closes the engines that are ours are those
that were created, each once, and these are the live ones of systems with an address
(`SqlSystems.Keeps`). So a close finds all that it disposes of, and nothing else is disposed of
(`SqlSystems.engines_owned`).
-/

namespace Playbook

/-- What a lookup service is used for. -/
inductive LookupUse where
  | query (system table field condition : Option String)
  | close

/-- The system and the address of an engine that was created. -/
def SqlEvent.creation? : SqlEvent → Option (String × String)
  | created system url => some (system, url)
  | _ => none

namespace SqlSystems

variable (systems : SqlSystems)

/-- A system answers for its own name, and the default one for names that are not registered. -/
def AnswersFor (system : Option String) (name : String) : Prop :=
  (system = some name ∧ name ∈ systems.registered.keys) ∨
    (∀ other ∈ system, other ∉ systems.registered.keys) ∧ systems.default = some name

def use : LookupUse → Attempt SqlConnections (Option Value)
  | .query system table field condition, connections =>
    let (r, connections) := systems.query system table field condition connections
    (r.map some, connections)
  | .close, connections =>
    let (r, connections) := connections.close
    (r.map fun _ => none, connections)

/-- The connections after a history of uses, the latest first. -/
def after : List LookupUse → SqlConnections
  | [] => .fresh
  | use :: past => (systems.use use (after past)).2

/-- What is done with the engines for a use after others. -/
def eventsOf (use : LookupUse) (past : List LookupUse) : List SqlEvent :=
  (systems.after (use :: past)).log.drop (systems.after past).log.length

/-- The engines that were created since the last close. -/
def createdSince : List LookupUse → List (String × String)
  | [] => []
  | .close :: _ => []
  | .query system table field condition :: past =>
    createdSince past ++
      (systems.eventsOf (.query system table field condition) past).filterMap SqlEvent.creation?

variable {systems} {connections : SqlConnections}

theorem chosen_eq_some_iff {system : Option String} {name : String} :
    systems.chosen system = some name ↔ systems.AnswersFor system name := by
  unfold chosen AnswersFor
  cases system with
  | none => simp
  | some other =>
    simp only [Option.any_some, OrderedMap.contains_iff]
    split_ifs with h
    · simp only [Option.some.injEq, Option.mem_def, forall_eq', h, not_true_eq_false, false_and,
        or_false]
      exact ⟨fun he => ⟨he, he ▸ h⟩, And.left⟩
    · simp only [Option.some.injEq, Option.mem_def, forall_eq', h, not_false_eq_true, true_and]
      exact ⟨.inr, fun ho => ho.resolve_left fun hk => h (hk.1 ▸ hk.2)⟩

section Obtains

/-- How the engine of a system is obtained, with what is logged for it. -/
inductive Obtains (systems : SqlSystems) (name : String) (connections : SqlConnections) :
    List SqlEvent → Except Fault SqlEngine × SqlConnections → Prop
  | held {engine} (h : connections.live.get? name = some engine) :
    Obtains systems name connections [] (.ok engine, connections)
  | unknown {fault} (h : systems.registered.get? name = none) :
    Obtains systems name connections [] (.error fault, connections)
  | given {table} (hl : name ∉ connections.live.keys)
    (h : systems.registered.get? name = some (.engine table)) :
    Obtains systems name connections [] (.ok ⟨name, name, table⟩,
      { connections with live := connections.live.insert name ⟨name, name, table⟩ })
  | refused {url fault} (hl : name ∉ connections.live.keys)
    (h : systems.registered.get? name = some (.address url))
    (hu : systems.reachable.get? url = none) :
    Obtains systems name connections [.refused name url]
      (.error fault, connections.record (.refused name url))
  | created {url table} (hl : name ∉ connections.live.keys)
    (h : systems.registered.get? name = some (.address url))
    (hu : systems.reachable.get? url = some table) :
    Obtains systems name connections [.created name url] (.ok ⟨name, url, table⟩,
      { connections.record (.created name url) with
        live := connections.live.insert name ⟨name, url, table⟩
        owned := connections.owned.insert name })

theorem engineFor_obtains (connections : SqlConnections) {system : Option String} {name : String}
    (hn : systems.chosen system = some name) :
    ∃ tried, systems.Obtains name connections tried (systems.engineFor system connections) := by
  unfold engineFor
  simp only [hn]
  rcases hl : connections.live.get? name with _ | engine
  · have hk := OrderedMap.get?_eq_none_iff.1 hl
    rcases hr : systems.registered.get? name with _ | table | url <;> dsimp only
    · exact ⟨_, .unknown hr⟩
    · exact ⟨_, .given hk hr⟩
    · unfold create
      rcases hu : systems.reachable.get? url with _ | table
      · exact ⟨_, .refused hk hr hu⟩
      · exact ⟨_, .created hk hr hu⟩
  · exact ⟨_, .held hl⟩

variable {name : String} {tried : List SqlEvent} {r : Except Fault SqlEngine × SqlConnections}

theorem Obtains.log (h : systems.Obtains name connections tried r) :
    r.2.log = connections.log ++ tried := by
  cases h <;> simp [SqlConnections.record]

theorem Obtains.tried_cases (h : systems.Obtains name connections tried r) :
    tried = [] ∨ ∃ url, systems.registered.get? name = some (.address url) ∧
      name ∉ connections.live.keys ∧ (tried = [.created name url] ∨
        tried = [.refused name url] ∧ (∃ fault, r.1 = .error fault) ∧
          r.2.live = connections.live ∧ r.2.owned = connections.owned) := by
  cases h with
  | held | unknown | given => exact .inl rfl
  | @refused url fault hl h => exact .inr ⟨url, h, hl, .inr ⟨rfl, ⟨fault, rfl⟩, rfl, rfl⟩⟩
  | @created url table hl h => exact .inr ⟨url, h, hl, .inl rfl⟩

/-- The engine is the one that the system opens, whichever way it is obtained. -/
theorem Obtains.opened (h : systems.Obtains name connections tried r)
    (hc : systems.Linked connections) :
    (∀ engine, r.1 = .ok engine ↔ systems.opened name = .ok engine) ∧ systems.Linked r.2 := by
  unfold SqlSystems.opened
  cases h with
  | held h =>
    have ho := hc.get? h
    unfold SqlSystems.opened at ho
    exact ⟨fun engine => by rw [ho], hc⟩
  | unknown h => exact ⟨fun engine => by simp [h], hc⟩
  | given hl h =>
    refine ⟨fun engine => by simp [h], hc.insert ?_⟩
    simp [SqlSystems.opened, h]
  | refused hl h hu => exact ⟨fun engine => by simp [h, hu], hc⟩
  | created hl h hu =>
    refine ⟨fun engine => by simp [h, hu], hc.insert ?_⟩
    simp [SqlSystems.opened, h, hu]

end Obtains

section Query

variable (systems) (connections) (system table field condition : Option String)

theorem query_snd : (systems.query system table field condition connections).2 =
    (systems.run system (selectText table field condition) connections).2 := by
  unfold query LookupSource.settle
  rcases systems.run system (selectText table field condition) connections with ⟨f | v, c⟩
  · dsimp only
    split_ifs <;> rfl
  · rfl

theorem query_fst {connections} (hc : systems.Linked connections) :
    (systems.query system table field condition connections).1 =
      (LookupSource.settle systems.strict
        (fun _ : Unit => (systems.given system (selectText table field condition), ())) ()).1 := by
  rw [← (run_linked hc system (selectText table field condition)).1]
  unfold query LookupSource.settle
  rcases systems.run system (selectText table field condition) connections with ⟨f | v, c⟩
  · dsimp only
    split_ifs <;> rfl
  · rfl

/-- A query obtains the engine that answers for its system, if there is one, and runs one statement
on it. -/
theorem run_cases (sql : String) :
    (systems.chosen system = none ∧ (systems.run system sql connections).2 = connections) ∨
    ∃ name tried r, systems.chosen system = some name ∧
      systems.Obtains name connections tried r ∧
      ((∃ fault, r.1 = .error fault ∧ (systems.run system sql connections).2 = r.2) ∨
        ∃ engine, r.1 = .ok engine ∧ (systems.run system sql connections).2 =
          r.2.record (.ran engine.system engine.label sql)) := by
  unfold run
  rcases hn : systems.chosen system with _ | name
  · exact .inl ⟨rfl, by simp only [engineFor, hn]⟩
  · obtain ⟨tried, ho⟩ := engineFor_obtains connections hn
    refine .inr ⟨name, tried, _, rfl, ho, ?_⟩
    rcases systems.engineFor system connections with ⟨f | engine, c⟩
    · exact .inl ⟨f, rfl, rfl⟩
    · exact .inr ⟨engine, rfl, rfl⟩

end Query

section Keeps

/-- The engines that are ours are those that were made, and the live ones of systems with an
address. -/
structure Keeps (systems : SqlSystems) (connections : SqlConnections)
    (made : List (String × String)) : Prop where
  linked : systems.Linked connections
  owned_perm : connections.owned.Perm (made.map Prod.fst)
  nodup : (made.map Prod.fst).Nodup
  mem_owned (name : String) : name ∈ connections.owned ↔
    name ∈ connections.live.keys ∧ ∃ url, systems.registered.get? name = some (.address url)
  address : ∀ e ∈ made, systems.registered.get? e.1 = some (.address e.2)

theorem keeps_empty (log : List SqlEvent) : systems.Keeps ⟨.empty, [], log⟩ [] where
  linked := OrderedMap.every_empty _
  owned_perm := .nil
  nodup := List.nodup_nil
  mem_owned name := by simp [OrderedMap.keys, OrderedMap.empty]
  address e he := absurd he List.not_mem_nil

variable {made : List (String × String)}

theorem Keeps.record (hk : systems.Keeps connections made) (event : SqlEvent) :
    systems.Keeps (connections.record event) made :=
  ⟨hk.linked, hk.owned_perm, hk.nodup, hk.mem_owned, hk.address⟩

theorem Keeps.obtains (hk : systems.Keeps connections made) {name : String}
    {tried : List SqlEvent} {r : Except Fault SqlEngine × SqlConnections}
    (h : systems.Obtains name connections tried r) :
    systems.Keeps r.2 (made ++ tried.filterMap SqlEvent.creation?) := by
  have hl := (h.opened hk.linked).2
  cases h with
  | held | unknown => simpa using hk
  | @refused url =>
    simpa [List.filterMap_cons, SqlEvent.creation?] using hk.record (.refused name url)
  | given hn hr =>
    refine ⟨hl, by simpa using hk.owned_perm, by simpa using hk.nodup, fun other => ?_,
      by simpa using hk.address⟩
    rw [hk.mem_owned, OrderedMap.mem_keys_insert]
    refine and_congr_left fun hu => (or_iff_right ?_).symm
    obtain ⟨url, hu⟩ := hu
    rintro rfl
    simp [hr] at hu
  | @created url table hn hr hu =>
    have ho : name ∉ connections.owned := fun h => hn ((hk.mem_owned name).1 h).1
    have hm : name ∉ made.map Prod.fst := fun h => ho (hk.owned_perm.mem_iff.2 h)
    simp only [List.filterMap_cons, SqlEvent.creation?, List.filterMap_nil]
    refine ⟨hl, ?_, ?_, fun other => ?_, fun e he => ?_⟩
    · simp only [List.insert_of_not_mem ho, List.map_append, List.map_cons, List.map_nil]
      exact (hk.owned_perm.cons name).trans (List.perm_append_singleton ..).symm
    · rw [List.map_append]
      exact (List.perm_append_singleton name _).nodup_iff.2 (List.nodup_cons.2 ⟨hm, hk.nodup⟩)
    · rw [List.mem_insert_iff, hk.mem_owned, OrderedMap.mem_keys_insert, or_and_right]
      refine or_congr_left (iff_self_and.2 ?_)
      rintro rfl
      exact ⟨url, hr⟩
    · rcases List.mem_append.1 he with he | he
      · exact hk.address e he
      · obtain rfl := List.mem_singleton.1 he
        exact hr

/-- The engine of a system with an address is logged under the address. -/
theorem Keeps.labelOf (hk : systems.Keeps connections made) {e : String × String} (he : e ∈ made) :
    e.1 ∈ connections.live.keys ∧ connections.labelOf e.1 = e.2 := by
  have hl := ((hk.mem_owned e.1).1 (hk.owned_perm.mem_iff.2 (List.mem_map_of_mem he))).1
  refine ⟨hl, ?_⟩
  obtain ⟨engine, hg⟩ := OrderedMap.mem_keys_iff.1 hl
  have ho := hk.linked.get? hg
  simp only [SqlSystems.opened, hk.address e he] at ho
  rcases hu : systems.reachable.get? e.2 with _ | table <;> simp only [hu] at ho
  · cases ho
  · cases ho
    simp [SqlConnections.labelOf, hg]

/-- Engines that are live can be disposed of. -/
theorem dispose_eq {names : List String} (h : ∀ name ∈ names, name ∈ connections.live.keys) :
    SqlConnections.dispose names connections = (.ok (), { connections with
      log := connections.log ++
        names.map fun name => .disposed name (connections.labelOf name) }) := by
  induction names generalizing connections with
  | nil => simp [SqlConnections.dispose]
  | cons name rest ih =>
    obtain ⟨engine, hg⟩ := OrderedMap.mem_keys_iff.1 (h name List.mem_cons_self)
    simp only [SqlConnections.dispose, hg]
    have hrest : ∀ other ∈ rest,
        other ∈ (connections.record (.disposed name engine.label)).live.keys :=
      fun other ho => h other (List.mem_cons_of_mem _ ho)
    rw [ih hrest]
    simp [SqlConnections.record, SqlConnections.labelOf, hg]

/-- A close disposes of what was made, in some order, and lets go of all. -/
theorem Keeps.close (hk : systems.Keeps connections made) :
    ∃ events, events.Perm (made.map fun e => .disposed e.1 e.2) ∧
      connections.close = (.ok (), ⟨.empty, [], connections.log ++ events⟩) := by
  have hp := (List.mergeSort_perm connections.owned fun a b =>
    connections.labelOf a ≤ connections.labelOf b).trans hk.owned_perm
  refine ⟨_, (hp.map fun name => .disposed name (connections.labelOf name)).trans ?_, ?_⟩
  · rw [List.map_map]
    refine List.Perm.of_eq (List.map_congr_left fun e he => ?_)
    simp only [Function.comp_apply, (hk.labelOf he).2]
  · have hl : ∀ name ∈ connections.owned.mergeSort fun a b =>
        connections.labelOf a ≤ connections.labelOf b, name ∈ connections.live.keys := by
      intro name hn
      obtain ⟨e, he, rfl⟩ := List.mem_map.1 (hp.mem_iff.1 hn)
      exact (hk.labelOf he).1
    simp only [SqlConnections.close, dispose_eq hl]

end Keeps

section Reaches

/-- What a query does with the engines: it may try to create one, for a system with an address that
has none, and it reaches at most one, that of the system that answers. -/
structure Reaches (systems : SqlSystems) (system : Option String) (sql : String)
    (before after : SqlConnections) (tried reached : List SqlEvent) : Prop where
  log : after.log = before.log ++ (tried ++ reached)
  tried_cases : tried = [] ∨ ∃ name url, systems.AnswersFor system name ∧
    systems.registered.get? name = some (.address url) ∧ name ∉ before.live.keys ∧
    (tried = [.created name url] ∨ tried = [.refused name url] ∧ reached = [] ∧
      after.live = before.live ∧ after.owned = before.owned)
  reached_le : reached.length ≤ 1
  mem_reached (event : SqlEvent) : event ∈ reached ↔ ∃ name engine,
    systems.AnswersFor system name ∧ systems.opened name = .ok engine ∧
    event = .ran name engine.label sql

theorem system_of_opened {name : String} {engine : SqlEngine}
    (h : systems.opened name = .ok engine) : engine.system = name := by
  unfold SqlSystems.opened at h
  split at h
  · cases h
  · cases h; rfl
  · split at h <;> cases h
    rfl

theorem run_reaches (hc : systems.Linked connections) (system : Option String) (sql : String) :
    ∃ tried reached, systems.Reaches system sql connections (systems.run system sql connections).2
      tried reached := by
  rcases run_cases systems connections system sql with
    ⟨hn, hr⟩ | ⟨name, tried, r, hn, ho, hr⟩
  · refine ⟨[], [], by simp [hr], .inl rfl, by simp, fun event => ?_⟩
    simp [← chosen_eq_some_iff, hn]
  obtain ⟨hopen, -⟩ := ho.opened hc
  have honly (event : SqlEvent) : (∃ other engine, systems.AnswersFor system other ∧
      systems.opened other = .ok engine ∧ event = .ran other engine.label sql) ↔
      ∃ engine, r.1 = .ok engine ∧ event = .ran engine.system engine.label sql := by
    constructor
    · rintro ⟨other, engine, ha, he, rfl⟩
      obtain rfl : name = other := Option.some.inj (hn.symm.trans (chosen_eq_some_iff.2 ha))
      exact ⟨engine, (hopen engine).2 he, by rw [system_of_opened he]⟩
    · rintro ⟨engine, he, rfl⟩
      have he := (hopen engine).1 he
      exact ⟨name, engine, chosen_eq_some_iff.1 hn, he, by rw [system_of_opened he]⟩
  have ha := chosen_eq_some_iff.1 hn
  rcases hr with ⟨fault, hf, hr⟩ | ⟨engine, he, hr⟩
  · refine ⟨tried, [], by rw [hr, ho.log, List.append_nil], ?_, by simp, fun event => ?_⟩
    · refine ho.tried_cases.imp_right fun ⟨url, hu, hl, h⟩ => ⟨name, url, ha, hu, hl, ?_⟩
      exact h.imp_right fun ⟨ht, _, hl, ho⟩ => ⟨ht, rfl, by rw [hr, hl], by rw [hr, ho]⟩
    · rw [honly]
      simp [hf]
  · refine ⟨tried, [.ran engine.system engine.label sql], ?_, ?_, by simp, fun event => ?_⟩
    · rw [hr, SqlConnections.record, ho.log, List.append_assoc]
    · refine ho.tried_cases.imp_right fun ⟨url, hu, hl, h⟩ => ⟨name, url, ha, hu, hl, ?_⟩
      refine h.imp_right ?_
      rintro ⟨-, ⟨fault, hf⟩, -⟩
      cases he.symm.trans hf
    · rw [honly]
      simp [he]

theorem run_keeps {made : List (String × String)} (hk : systems.Keeps connections made)
    (system : Option String) (sql : String) {events : List SqlEvent}
    (he : (systems.run system sql connections).2.log = connections.log ++ events) :
    systems.Keeps (systems.run system sql connections).2
      (made ++ events.filterMap SqlEvent.creation?) := by
  rcases run_cases systems connections system sql with
    ⟨-, hr⟩ | ⟨name, tried, r, -, ho, ⟨fault, -, hr⟩ | ⟨engine, -, hr⟩⟩
  · obtain rfl : events = [] := by simpa [hr] using he
    simpa [hr] using hk
  · obtain rfl : events = tried := by simpa [hr, ho.log] using he.symm
    simpa [hr] using hk.obtains ho
  · obtain rfl : events = tried ++ [.ran engine.system engine.label sql] := by
      simpa [hr, SqlConnections.record, ho.log] using he.symm
    simpa [hr, List.filterMap_cons, SqlEvent.creation?] using
      (hk.obtains ho).record (.ran engine.system engine.label sql)

end Reaches

section After

theorem eventsOf_eq {use : LookupUse} {past : List LookupUse} {events : List SqlEvent}
    (h : (systems.after (use :: past)).log = (systems.after past).log ++ events) :
    systems.eventsOf use past = events := by
  rw [eventsOf, h, List.drop_left]

/-- After any history the engines that are ours are those that were created since the last close. -/
theorem keeps_after (past : List LookupUse) :
    systems.Keeps (systems.after past) (systems.createdSince past) := by
  induction past with
  | nil => exact keeps_empty []
  | cons use past ih =>
    cases use with
    | close =>
      obtain ⟨events, -, hc⟩ := ih.close
      simp only [after, SqlSystems.use, hc]
      exact keeps_empty _
    | query system table field condition =>
      have ha : systems.after (.query system table field condition :: past) =
          (systems.run system (selectText table field condition) (systems.after past)).2 :=
        query_snd ..
      obtain ⟨tried, reached, hr⟩ := run_reaches ih.linked system (selectText table field condition)
      rw [createdSince, eventsOf_eq (by rw [ha, hr.log]), ha]
      exact run_keeps ih system _ hr.log

/-- Whatever was asked before and wherever it was closed, a query reaches no engine but that of the
system that answers, and creates it if that has an address and no live engine. Between two closes
each engine is created at most once. A close disposes of those that were created since the last,
once each, and does not fail. What happened before shows in no value. -/
theorem engines_owned (systems : SqlSystems) (past : List LookupUse) :
    (∀ system table field condition,
      let use : LookupUse := .query system table field condition
      ∃ tried reached, systems.eventsOf use past = tried ++ reached ∧
        systems.Reaches system (selectText table field condition) (systems.after past)
          (systems.after (use :: past)) tried reached) ∧
    ((systems.createdSince past).map Prod.fst).Nodup ∧
    (∀ e ∈ systems.createdSince past, systems.registered.get? e.1 = some (.address e.2)) ∧
    (∃ events, events.Perm ((systems.createdSince past).map fun e => .disposed e.1 e.2) ∧
      (systems.after past).close = (.ok (), ⟨.empty, [], (systems.after past).log ++ events⟩)) ∧
    ∀ other system table field condition,
      (systems.query system table field condition (systems.after past)).1 =
        (systems.query system table field condition (systems.after other)).1 := by
  have hk := systems.keeps_after past
  refine ⟨fun system table field condition => ?_, hk.nodup, hk.address, hk.close, ?_⟩
  · have ha : systems.after (.query system table field condition :: past) =
        (systems.run system (selectText table field condition) (systems.after past)).2 :=
      query_snd ..
    obtain ⟨tried, reached, hr⟩ := run_reaches hk.linked system (selectText table field condition)
    exact ⟨tried, reached, eventsOf_eq (by rw [ha, hr.log]), ha ▸ hr⟩
  · intro other system table field condition
    rw [query_fst _ _ _ _ _ hk.linked, query_fst _ _ _ _ _ (keeps_after other).linked]

end After

end SqlSystems

end Playbook
