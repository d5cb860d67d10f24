import Playbook.Proofs.Built
import Playbook.Proofs.Printed
import Playbook.Proofs.Unstuck

/-!
# Runs end as foreseen

On a complete playbook, with a lookup service that is not strict, and with values and step numbers
that have a text, the only faults that a walk can meet are those it foresees (`run_foreseen`). The
values of the context have a text along a whole trail (`Trail.short`), so a rendering fails only for
want of a variable; a lookup does not fail at all, and a read only for want of a first or a next
step.
-/

namespace Playbook

variable {τ : Type}

/-- A scalar that converts to a value with a text: decimals are finite, and integers, also those
that a decimal converts to, have no more digits than can be written. -/
def Datum.Usable : Datum → Prop
  | plain v => v.Short
  | decimal (.finite negative coefficient exponent) =>
    ∀ i, Decimal.toInt? negative coefficient exponent = some i → (Value.int i).Short
  | date _ | dateTime _ | bytes _ => True
  | _ => False

theorem Datum.Usable.toValue {d : Datum} (h : d.Usable) : ∃ v, d.toValue = .ok v ∧ v.Short := by
  unfold Usable at h
  split at h
  · exact ⟨_, rfl, h⟩
  · rename_i negative coefficient exponent
    simp only [Datum.toValue, ofDecimal]
    rcases hi : Decimal.toInt? negative coefficient exponent with _ | i
    · exact ⟨_, rfl, trivial⟩
    · exact ⟨_, rfl, h i hi⟩
  · exact ⟨_, rfl, trivial⟩
  · exact ⟨_, rfl, trivial⟩
  · exact ⟨_, rfl, trivial⟩
  · exact h.elim

theorem Context.ofData_usable {data : OrderedMap String Datum}
    (h : ∀ e ∈ data.entries, e.2.Usable) :
    ∃ context, ofData data = .ok context ∧ context.Short := by
  obtain ⟨context, hc⟩ := ofData_exists fun e he =>
    (h e he).toValue.imp fun _ => And.left
  refine ⟨context, hc, fun e he => ?_⟩
  have hg := get?_of_ofData hc e.1
  rw [OrderedMap.get?_eq_some_iff.2 he] at hg
  obtain ⟨d, hd, hv⟩ := Option.bind_eq_some_iff.1 hg.symm
  obtain ⟨v, hv', hs⟩ := (h _ (OrderedMap.get?_eq_some_iff.1 hd)).toValue
  rw [hv'] at hv
  cases hv
  exact hs

namespace Template

variable {context : Context} (hc : context.Short)
include hc

theorem renderPiece_error_of_short {piece : Piece} {f : Fault}
    (h : renderPiece context piece = .error f) : ∃ name, f = .missingVariable name := by
  unfold renderPiece at h
  split at h
  · cases h
  · rename_i name
    split at h
    · cases h
      exact ⟨_, rfl⟩
    · obtain ⟨text, ht⟩ := (Context.Short.valueOf hc (String.ofList name)).exists_format
      rw [ht] at h
      cases h

theorem renderPieces_error_of_short {f : Fault} : ∀ {pieces : List Piece},
    renderPieces context pieces = .error f → ∃ name, f = .missingVariable name
  | [], h => by cases h
  | piece :: rest, h => by
    simp only [renderPieces, bind, Except.bind] at h
    split at h
    · rename_i hp
      cases h
      exact renderPiece_error_of_short hc hp
    · split at h
      · rename_i hr
        cases h
        exact renderPieces_error_of_short hr
      · cases h

/-- Where every value has a text, a rendering fails only for want of a variable. -/
theorem render_error_of_short {template : String} {f : Fault}
    (h : render template context = .error f) : ∃ name, f = .missingVariable name := by
  unfold render at h
  rcases hp : renderPieces context (pieces template) with f' | text <;> rw [hp] at h <;> cases h
  exact renderPieces_error_of_short hc hp

end Template

section Answers

/-- Systems in a state that satisfies `inv` answer with values that have a text, and stay so. -/
structure AnswersShort (answer : Option String → String → Attempt τ Value) (inv : τ → Prop) :
    Prop where
  short {system : Option String} {sql : String} {t : τ} {v : Value} (h : inv t)
    (hv : (answer system sql t).1 = .ok v) : v.Short
  keeps {system : Option String} {sql : String} {t : τ} (h : inv t) :
    inv (answer system sql t).2

/-- A service that is not strict answers every lookup, with a value that has a text if those of the
systems have one. -/
theorem AnswersShort.settle {answer : Option String → String → Attempt τ Value} {inv : τ → Prop}
    (ha : AnswersShort answer inv) (system : Option String) (sql : String) {t : τ} (ht : inv t) :
    ∃ v t', LookupSource.settle false (answer system sql) t = (.ok v, t') ∧ v.Short ∧ inv t' := by
  unfold LookupSource.settle
  have hk : inv (answer system sql t).2 := ha.keeps ht
  rcases hr : answer system sql t with ⟨f | v, t'⟩ <;> rw [hr] at hk
  · exact ⟨.null, t', rfl, trivial, hk⟩
  · exact ⟨v, t', rfl, ha.short ht (congrArg Prod.fst hr), hk⟩

/-- The values that a database answers with have a text. -/
def SqlTable.Short (table : SqlTable) : Prop :=
  table.Every fun _ answer => ∀ v, answer.scalar = .ok v → v.Short

/-- The databases of the systems, registered or reachable, are short. -/
structure SqlSystems.Short (systems : SqlSystems) : Prop where
  registered : systems.registered.Every fun _ target => ∀ table, target = .engine table →
    table.Short
  reachable : systems.reachable.Every fun _ table => table.Short

/-- The databases of the live engines are short. -/
def SqlConnections.Short (connections : SqlConnections) : Prop :=
  connections.live.Every fun _ engine => engine.table.Short

theorem SqlTable.Short.scalar {table : SqlTable} (h : table.Short) {sql : String} {v : Value}
    (hv : (table.answer sql).scalar = .ok v) : v.Short := by
  unfold SqlTable.answer at hv
  rcases hg : table.get? sql with _ | answer <;> rw [hg] at hv
  · cases hv
  · exact h.get? hg v hv

namespace SqlSystems

variable {systems : SqlSystems} (hs : systems.Short)
include hs

theorem create_short {name url : String} {connections : SqlConnections}
    (hc : connections.Short) : (systems.create name url connections).2.Short ∧
      ∀ engine, (systems.create name url connections).1 = .ok engine → engine.table.Short := by
  unfold create
  rcases hr : systems.reachable.get? url with _ | table
  · exact ⟨hc, nofun⟩
  · have ht : table.Short := hs.reachable.get? hr
    refine ⟨hc.insert ht, fun engine he => ?_⟩
    cases he
    exact ht

theorem engineFor_short (system : Option String) {connections : SqlConnections}
    (hc : connections.Short) : (systems.engineFor system connections).2.Short ∧
      ∀ engine, (systems.engineFor system connections).1 = .ok engine → engine.table.Short := by
  unfold engineFor
  rcases systems.chosen system with _ | name
  · exact ⟨hc, nofun⟩
  dsimp only
  rcases hl : connections.live.get? name with _ | engine
  · dsimp only
    rcases hr : systems.registered.get? name with _ | table | url
    · exact ⟨hc, nofun⟩
    · have ht : table.Short := hs.registered.get? hr table rfl
      refine ⟨hc.insert ht, fun engine he => ?_⟩
      cases he
      exact ht
    · exact create_short hs hc
  · refine ⟨hc, fun engine' he => ?_⟩
    cases he
    exact hc.get? hl

/-- Systems whose databases are short answer with values that have a text. -/
theorem answersShort : AnswersShort systems.run SqlConnections.Short where
  short {system sql t v} ht hv := by
    have he := (engineFor_short hs system ht).2
    unfold run at hv
    rcases hf : systems.engineFor system t with ⟨f | engine, t'⟩ <;> simp only [hf] at hv he
    · cases hv
    · exact (he engine rfl).scalar hv
  keeps {system sql t} ht := by
    have hk := (engineFor_short hs system ht).1
    unfold run
    rcases hf : systems.engineFor system t with ⟨f | engine, t'⟩ <;> rw [hf] at hk <;> exact hk

end SqlSystems

end Answers

namespace Traversal

/-- The reasons for which a walk may stop on a playbook that is as it should be. -/
def foreseenReasons : List String :=
  ["no first step", "no next step", "no satisfied branch", "step limit exceeded",
    "render failure", "missing reply", "unsupported operation"]

theorem reply_foreseen {step : Step} {context : Context} {stop : Stop} (hw : step.Writable)
    (hc : context.Short) (h : reply step context = .stopped stop) :
    stop.reason ∈ foreseenReasons := by
  cases unanswered_of_reply h with
  | unstated => decide
  | untold _ untold => exact absurd hw untold
  | unbound => simp [Stop.reason, Kind.reason, foreseenReasons]
  | tooLong _ _ tooLong =>
    obtain ⟨name, hn⟩ := Template.render_error_of_short hc tooLong
    cases hn

theorem Progress.short_keep {progress : Progress} {field : Option String} {v : Value}
    (hc : progress.context.Short) (hv : v.Short) :
    (Progress.keep progress field v).context.Short := by
  rw [Progress.context_keep]
  split_ifs
  · exact hc
  · rcases field with _ | name
    · exact hc
    · exact hc.insert hv

section Walk

variable {graph : LocalGraph} {problem : Option String}
  {answer : Option String → String → Attempt τ Value} {inv : τ → Prop}

/-- The number of the step and the values known on arrival at a place have a text, and so have those
that the systems will answer with from there. -/
structure Place.Short (inv : τ → Prop) (place : Place Unit τ) : Prop where
  step : place.step.Writable
  context : place.progress.context.Short
  answers : inv place.world.2

variable (ha : AnswersShort answer inv)
include ha

theorem LookedUp.short {step : Step} {progress progress' : Progress} {t t' : τ}
    (h : LookedUp (.running false answer) step progress t progress' t')
    (hc : progress.context.Short) (ht : inv t) : progress'.context.Short ∧ inv t' := by
  cases h with
  | unasked => exact ⟨hc, ht⟩
  | @answered _ _ condition _ v _ _ _ hs _ =>
    obtain ⟨v', t'', hs', hv, ht'⟩ :=
      ha.settle step.system (selectText step.table step.field (some condition)) ht
    simp only [LookupSource.running, hs', Prod.mk.injEq, Except.ok.injEq] at hs
    obtain ⟨rfl, rfl⟩ := hs
    exact ⟨Progress.short_keep hc hv, ht'⟩

theorem Moves.short {a b : Place Unit τ}
    (h : Moves ⟨graph.source, .running false answer⟩ problem a b) (hs : a.Short inv) :
    b.Short inv := by
  obtain ⟨-, hl, -, -, told⟩ := h
  obtain ⟨hc, hi⟩ := hl.short ha hs.context hs.answers
  exact ⟨told, hc, hi⟩

theorem Trail.short {a last : Place Unit τ} {trail : List (Place Unit τ)}
    (h : Trail ⟨graph.source, .running false answer⟩ problem a trail last) (hs : a.Short inv) :
    last.Short inv := by
  induction h with
  | here => exact hs
  | move hm _ ih => exact ih (hm.short ha hs)

theorem lookUp_foreseen {step : Step} {progress progress' : Progress} {t t' : τ} {stop : Stop}
    (hw : step.Writable) (hc : progress.context.Short) (ht : inv t)
    (h : lookUp (.running false answer) step progress t = (some stop, progress', t')) :
    stop.reason ∈ foreseenReasons := by
  cases unlooked_of_lookUp h with
  | untold _ untold => exact absurd hw untold
  | unbound => simp [Stop.reason, Kind.reason, foreseenReasons]
  | tooLong _ _ tooLong =>
    obtain ⟨name, hn⟩ := Template.render_error_of_short hc tooLong
    cases hn
  | @failed _ condition _ _ _ _ _ failed =>
    obtain ⟨v, t'', hs, -, -⟩ :=
      ha.settle step.system (selectText step.table step.field (some condition)) ht
    simp [LookupSource.running, hs] at failed
  | @unwritten _ condition _ _ _ _ _ scalar unwritten =>
    obtain ⟨v, t'', hs, hv, -⟩ :=
      ha.settle step.system (selectText step.table step.field (some condition)) ht
    simp only [LookupSource.running, hs, Prod.mk.injEq, Except.ok.injEq] at scalar
    obtain ⟨text, hf⟩ := hv.exists_format
    rw [← scalar.1, hf] at unwritten
    cases unwritten

/-- On a complete playbook a walk halts for a reason that it foresees. -/
theorem Halts.foreseen (hg : graph.Complete) (hw : graph.Writable) {a : Place Unit τ} {stop : Stop}
    {progress : Progress} {world : Unit × τ} (hs : a.Short inv)
    (h : Halts ⟨graph.source, .running false answer⟩ problem a (.stopped stop, progress, world)) :
    stop.reason ∈ foreseenReasons := by
  generalize he : Ending.stopped stop = ending at h
  cases h with
  | reply => exact reply_foreseen hs.step hs.context he.symm
  | unsupported =>
    cases he
    decide
  | @lookUp step progress _ _ _ _ _ _ hf =>
    cases he
    have hc : (Progress.visit progress step).context.Short := hs.context
    exact lookUp_foreseen ha hs.step hc hs.answers hf
  | @next step _ _ _ _ _ _ _ _ _ hf =>
    cases he
    rcases next_error hf with hn | ⟨candidates, hc, hstrands⟩
    · obtain ⟨candidates, hok⟩ := hg.candidates problem step.id
      simp [LocalGraph.source, hok] at hn
    cases hstrands with
    | @lost chosen first untold =>
      have hl := (LocalGraph.leads_iff (Prod.mk.inj hc).1).2 ⟨chosen, first.mem, rfl⟩
      exact absurd (hw _ hl.holds) untold
    | untold _ untold => exact absurd hs.step untold
    | last => simp [Stop.reason, Kind.reason, Fault.kind, foreseenReasons]
    | closed => simp [Stop.reason, Kind.reason, Fault.kind, foreseenReasons]

theorem walk_foreseen (hg : graph.Complete) (hw : graph.Writable) (limit left : Nat)
    (a : Place Unit τ) (hs : a.Short inv) {stop : Stop} {progress : Progress} {world : Unit × τ}
    (hwalk : walk ⟨graph.source, .running false answer⟩ problem limit left a.step a.progress
      a.world = (.stopped stop, progress, world)) : stop.reason ∈ foreseenReasons := by
  cases left with
  | zero =>
    cases hwalk
    simp [Stop.reason, Kind.reason, Fault.kind, foreseenReasons]
  | succ left =>
    obtain ⟨trail, last, ht, -, hh | ⟨-, b, -, he⟩⟩ :=
      walk_trail ⟨graph.source, .running false answer⟩ problem limit left a
    · rw [hwalk] at hh
      exact hh.foreseen ha hg hw (ht.short ha hs)
    · rw [hwalk] at he
      cases he
      simp [Stop.reason, Kind.reason, Fault.kind, foreseenReasons]

theorem start_foreseen (hg : graph.Complete) (hw : graph.Writable) (limit : Nat)
    {context : Context} (hc : context.Short) (world : Unit × τ) (hi : inv world.2) {stop : Stop}
    {progress : Progress} {w : Unit × τ}
    (hs : start ⟨graph.source, .running false answer⟩ limit problem context world =
      (.stopped stop, progress, w)) : stop.reason ∈ foreseenReasons := by
  have hfails : graph.source.FailsOnly [.notFound] :=
    hg.source_failsOnly List.mem_cons_self
  unfold start at hs
  rcases hf : graph.source.firstStep problem world.1 with ⟨f | first, g⟩ <;>
    simp only [hf] at hs
  · have hk : f.kind = .notFound := List.mem_singleton.1 (hfails.firstStep hf)
    cases hs
    rw [if_pos hk]
    exact List.mem_cons_self
  · have hfirst : first.Writable := hw _ (LocalGraph.holds_of_firstStep (Prod.mk.inj hf).1).1
    exact walk_foreseen ha hg hw limit limit ⟨first, .initial context, (g, world.2)⟩
      ⟨hfirst, (Progress.context_initial context).symm ▸ hc, hi⟩ hs

end Walk

/-- A run on a playbook built by additions, whose relations all have targets and whose step numbers
can be written, with a service that is not strict and data that are usable, is completed or
interrupted for a reason that it foresees: no fault comes from within. -/
theorem run_foreseen {graph : LocalGraph} (hb : graph.Built)
    (ht : ∀ relation ∈ graph.relations, relation.target.isSome = true) (hw : graph.Writable)
    {answer : Option String → String → Attempt τ Value} {inv : τ → Prop}
    (ha : AnswersShort answer inv) (limit : Nat) (problem : Option String)
    {data : OrderedMap String Datum} (hd : ∀ e ∈ data.entries, e.2.Usable) {world : Unit × τ}
    (hi : inv world.2) :
    let outcome := (run ⟨graph.source, .running false answer⟩ limit problem data world).1
    (outcome.completed = true ∧ outcome.reason? = none ∨
      outcome.completed = false ∧ ∃ reason ∈ foreseenReasons, outcome.reason? = some reason) ∧
    ∀ reason ∈ ["system error", "storage failure", "external query failure",
      "invalid context value"], outcome.reason? ≠ some reason := by
  intro outcome
  obtain ⟨context, hc, hs⟩ := Context.ofData_usable hd
  rcases hst : start ⟨graph.source, .running false answer⟩ limit problem context world with
    ⟨ending, progress, w⟩
  have houtcome : outcome = .ended ending progress := by simp only [outcome, run, hc, hst]
  rw [houtcome]
  cases ending with
  | replied message => exact ⟨.inl ⟨rfl, rfl⟩, fun reason _ => (Option.some_ne_none reason).symm⟩
  | stopped stop =>
    have hr := start_foreseen ha (hb.complete ht) hw limit hs world hi hst
    refine ⟨.inr ⟨rfl, stop.reason, hr, rfl⟩, fun reason hm he => ?_⟩
    obtain rfl : stop.reason = reason := Option.some.inj he
    have hdisjoint : ∀ reason ∈ foreseenReasons, reason ∉ ["system error", "storage failure",
      "external query failure", "invalid context value"] := by decide
    exact hdisjoint _ hr hm

/-- A walk whose lookups fail, of a database that has no other statement, and find nothing. -/
theorem run_foreseen_refunds :
    let graph := LocalGraph.refunds
    let systems : SqlSystems := .ofRegistered
      (.ofEntries [("shop", .engine (.ofEntries
        [("SELECT amount FROM orders WHERE id = 7", .row (some [.decimal (.infinite true)]))]))])
      none false .empty
    let data : OrderedMap String Datum := .ofEntries [("id", .decimal (.finite false 70 (-1)))]
    let outcome :=
      (run ⟨graph.source, .running false systems.run⟩ 10 (some "refund") data ((), .fresh)).1
    graph.Built ∧ (∀ relation ∈ graph.relations, relation.target.isSome = true) ∧
      graph.Writable ∧ AnswersShort systems.run SqlConnections.Short ∧
      (∀ e ∈ data.entries, e.2.Usable) ∧ SqlConnections.fresh.Short ∧
      (outcome.completed = true ∧ outcome.reason? = none ∨
        outcome.completed = false ∧ ∃ reason ∈ foreseenReasons, outcome.reason? = some reason) ∧
      ∀ reason ∈ ["system error", "storage failure", "external query failure",
        "invalid context value"], outcome.reason? ≠ some reason := by
  intro graph systems data outcome
  have hb : graph.Built := LocalGraph.refunds_built
  have ht : ∀ relation ∈ graph.relations, relation.target.isSome = true := by decide
  have hw : graph.Writable := LocalGraph.writable_of_le (by decide)
  have hsys : systems.Short :=
    { registered := by
        intro e he table htable
        obtain rfl := List.mem_singleton.1 he
        cases htable
        intro e he v hv
        obtain rfl := List.mem_singleton.1 he
        cases hv
      reachable := OrderedMap.every_empty _ }
  have ha := SqlSystems.answersShort hsys
  have hd : ∀ e ∈ data.entries, e.2.Usable := by
    intro e he
    obtain rfl := List.mem_singleton.1 he
    intro i hi
    obtain rfl : 7 = i := Option.some.inj hi
    exact Value.short_int (n := 1) (by decide) (by decide)
  have hi : SqlConnections.fresh.Short := OrderedMap.every_empty _
  exact ⟨hb, ht, hw, ha, hd, hi, run_foreseen hb ht hw ha 10 (some "refund") hd hi⟩

end Traversal

end Playbook
