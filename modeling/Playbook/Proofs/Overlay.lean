import Playbook.Proofs.Course

/-!
# What a run leaves in its context

A place of a trail finds at most one value: the answer of the service to its lookup, unless that is
null. A run leaves its input overlaid with what the places on its way found, however it ends
(`run_overlays`). The step lemmas are `Moves.progress` and `Halts.progress`: what a place passes on
or ends with is what it was reached with, with what it found kept.
-/

namespace Playbook

variable {γ τ : Type}

/-- A query that states a condition names the field that it looks up. -/
def Step.NamesField (step : Step) : Prop :=
  step.isQuery = true → step.condition.getD "" ≠ "" → step.field.isSome = true

instance (step : Step) : Decidable step.NamesField :=
  inferInstanceAs (Decidable (_ → _ → _))

/-- Every step that a graph answers with has a property. -/
structure GraphSource.Gives (graph : GraphSource γ) (p : Step → Prop) : Prop where
  firstStep {problem : Option String} {g g' : γ} {step : Step}
    (h : graph.firstStep problem g = (.ok step, g')) : p step
  candidates {problem : Option String} {id : Option Int} {g g' : γ} {candidates : List Candidate}
    (h : graph.candidates problem id g = (.ok candidates, g')) : ∀ c ∈ candidates, p c.step

theorem LocalGraph.source_gives {graph : LocalGraph} {p : Step → Prop}
    (h : graph.steps.Every fun _ step => p step) : graph.source.Gives p where
  firstStep {problem _ _ step} hf := by
    have hs := (holds_of_firstStep (Prod.mk.inj hf).1).1
    exact h.get? hs
  candidates {problem id _ _ candidates} hc c hm := by
    obtain ⟨relation, -, hr⟩ := mem_of_mapM_ok (Prod.mk.inj hc).1 c hm
    exact h.get? (candidate_eq_ok_iff.1 hr).1

namespace Fields

/-- Fields that all have a name are stored as they are named. -/
theorem stored_eq_named {fields : Fields} (h : ∀ field ∈ fields.keys, field.isSome = true) :
    fields.stored = fields.named := by
  have he : ∀ entries : List (Option String × Value), (∀ e ∈ entries, e.1.isSome = true) →
      (entries.map fun e => (shownText e.1, e.2)) = namedEntries entries := by
    intro entries hs
    induction entries with
    | nil => rfl
    | cons e rest ih =>
      obtain ⟨_ | name, v⟩ := e
      · exact absurd (hs _ List.mem_cons_self) (by simp)
      · rw [List.map_cons, ih fun e he => hs e (List.mem_cons_of_mem _ he)]
        rfl
  rw [stored, he fields.entries fun e hm => h e.1 (List.mem_map.2 ⟨e, hm, rfl⟩)]
  exact OrderedMap.ofEntries_entries fields.named

theorem isSome_of_mem_keys_ofContext {context : Context} {field : Option String}
    (h : field ∈ (ofContext context).keys) : field.isSome = true := by
  obtain ⟨e, he, rfl⟩ := List.mem_map.1 h
  obtain ⟨e', -, rfl⟩ := List.mem_map.1 he
  rfl

theorem stored_ofContext (context : Context) : (ofContext context).stored = context :=
  (stored_eq_named fun _ => isSome_of_mem_keys_ofContext).trans (named_ofContext context)

theorem isSome_of_mem_keys_insert {fields : Fields}
    (h : ∀ field ∈ fields.keys, field.isSome = true) (name : String) (v : Value) :
    ∀ field ∈ (fields.insert (some name) v).keys, field.isSome = true := by
  intro field hm
  rw [OrderedMap.keys_insert] at hm
  split_ifs at hm
  · exact h field hm
  · rcases List.mem_append.1 hm with hm | hm
    · exact h field hm
    · rw [List.mem_singleton.1 hm]
      rfl

theorem isSome_of_mem_keys_insertAll {found : List (String × Value)} {fields : Fields}
    (h : ∀ field ∈ fields.keys, field.isSome = true) :
    ∀ field ∈ (fields.insertAll (found.map fun e => (some e.1, e.2))).keys,
      field.isSome = true := by
  induction found generalizing fields with
  | nil => exact h
  | cons e rest ih => exact ih (isSome_of_mem_keys_insert h e.1 e.2)

theorem named_insertAll (fields : Fields) : ∀ found : List (String × Value),
    named (fields.insertAll (found.map fun e => (some e.1, e.2))) = fields.named.insertAll found
  | [] => rfl
  | e :: rest => by
    rw [List.map_cons, OrderedMap.insertAll_cons, named_insertAll, named_insert_some,
      OrderedMap.insertAll_cons]

end Fields

namespace Traversal

/-- The field that the step of a place looks up and the value that it finds, if there is one. -/
def Place.found? (lookup : LookupSource τ) (place : Place γ τ) : Option (String × Value) :=
  match place.step.field, place.step.condition with
  | some field, some template =>
    if place.step.isQuery = false ∨ template = "" then none
    else
      match Template.render template place.progress.context with
      | .error _ => none
      | .ok condition =>
        match (lookup.scalar place.step.system place.step.table place.step.field condition
          place.world.2).1 with
        | .error _ => none
        | .ok v => if v = .null then none else some (field, v)
  | _, _ => none

/-- What the places of a trail find, in order. -/
def finds (lookup : LookupSource τ) (trail : List (Place γ τ)) : List (String × Value) :=
  trail.filterMap (Place.found? lookup)

/-- The progress with values kept under their fields, one after the other. -/
def Progress.keepAll (progress : Progress) (found : List (String × Value)) : Progress :=
  { progress with
    known := progress.known.insertAll (found.map fun e => (some e.1, e.2))
    found := progress.found.insertAll (found.map fun e => (some e.1, e.2)) }

theorem found?_of_not_query {lookup : LookupSource τ} {place : Place γ τ}
    (h : place.step.isQuery = false) : place.found? lookup = none := by
  unfold Place.found?
  split
  · rw [if_pos (.inl h)]
  · rfl

theorem of_found?_eq_some {lookup : LookupSource τ} {place : Place γ τ} {field : String} {v : Value}
    (h : place.found? lookup = some (field, v)) :
    v ≠ .null ∧ place.step.isQuery = true ∧ place.step.field = some field ∧
      ∃ template, place.step.condition = some template ∧ template ≠ "" := by
  unfold Place.found? at h
  split at h
  · rename_i field' template hf hc
    split_ifs at h with hq
    rw [not_or, Bool.not_eq_false] at hq
    split at h
    · cases h
    · split at h
      · cases h
      · split_ifs at h with hv
        cases h
        exact ⟨hv, hq.1, hf, template, hc, hq.2⟩
  · cases h

section Step

variable {services : Services γ τ} {problem : Option String}

/-- The progress on leaving a place. -/
def Place.left (lookup : LookupSource τ) (place : Place γ τ) : Progress :=
  Progress.keepAll (Progress.visit place.progress place.step) (place.found? lookup).toList

theorem left_of_not_query (lookup : LookupSource τ) (place : Place γ τ)
    (h : place.step.isQuery = false) :
    place.left lookup = Progress.visit place.progress place.step := by
  rw [Place.left, found?_of_not_query h]
  rfl

theorem keep_eq_keepAll (progress : Progress) (field : String) (v : Value) :
    Progress.keep progress (some field) v =
      Progress.keepAll progress (if v = .null then none else some (field, v)).toList := by
  unfold Progress.keep
  split_ifs <;> rfl

/-- A lookup leaves the progress with what the place finds kept, whether it fails or not. -/
theorem lookUp_progress {lookup : LookupSource τ} {step : Step} (hq : step.isQuery = true)
    (hf : step.NamesField) (progress : Progress) (g : γ) (t : τ) :
    (lookUp lookup step (Progress.visit progress step) t).2.1 =
      Place.left lookup ⟨step, progress, (g, t)⟩ := by
  unfold lookUp Place.left Place.found?
  rcases hc : step.condition with _ | template
  · rcases step.field <;> rfl
  by_cases hne : template = ""
  · rcases step.field <;> simp [hne, Progress.keepAll]
  obtain ⟨field, hfield⟩ : ∃ field, step.field = some field :=
    Option.isSome_iff_exists.1 (hf hq (by simp [hc, hne]))
  simp only [hfield, hne, hq, if_false, Bool.true_eq_false, or_self]
  rw [Progress.context_visit]
  rcases Template.render template progress.context with f | condition
  · cases f <;> rfl
  dsimp only
  rcases lookup.scalar step.system step.table (some field) condition t with ⟨f | v, t'⟩
  · rfl
  · dsimp only
    rw [← keep_eq_keepAll]
    split <;> rfl

theorem Moves.progress {a b : Place γ τ} (h : Moves services problem a b)
    (hf : a.step.NamesField) : b.progress = a.left services.lookup := by
  obtain ⟨hq, hl, -, -⟩ := h
  rw [← lookUp_progress hq hf, lookUp_eq_none_iff.2 hl]

theorem Halts.progress {a : Place γ τ} {ending : Ending} {progress : Progress} {world : γ × τ}
    (h : Halts services problem a (ending, progress, world)) (hf : a.step.NamesField) :
    progress = a.left services.lookup := by
  generalize hr : (ending, progress, world) = r at h
  cases h with
  | reply hs =>
    cases hr
    refine (left_of_not_query services.lookup ⟨_, _, _⟩ ?_).symm
    by_contra hq
    simp [Step.not_isReply_of_isQuery (Bool.not_eq_false _ ▸ hq)] at hs
  | unsupported _ hq =>
    cases hr
    exact (left_of_not_query services.lookup ⟨_, _, _⟩ hq).symm
  | lookUp hq hl =>
    cases hr
    rw [← lookUp_progress hq hf, hl]
  | next hq hl =>
    cases hr
    rw [← lookUp_progress hq hf, lookUp_eq_none_iff.2 hl]

end Step

section Run

variable {services : Services γ τ} {problem : Option String} {a last : Place γ τ}
  {trail : List (Place γ τ)}

theorem Moves.step_gives {p : Step → Prop} (hg : services.graph.Gives p) {b : Place γ τ}
    (h : Moves services problem a b) : p b.step := by
  obtain ⟨-, -, hr, first, -⟩ := h
  exact hg.candidates hr _ first.mem

theorem Trail.last_gives {p : Step → Prop} (hg : services.graph.Gives p)
    (h : Trail services problem a trail last) (ha : p a.step) : p last.step := by
  induction h with
  | here => exact ha
  | move hm _ ih => exact ih (hm.step_gives hg)

/-- What is known on leaving the last place of a trail: what was known at its start, with all finds
of the trail kept. -/
theorem Trail.left (hg : services.graph.Gives Step.NamesField)
    (h : Trail services problem a trail last) (ha : a.step.NamesField) :
    (last.left services.lookup).known = a.progress.known.insertAll
        ((finds services.lookup trail).map fun e => (some e.1, e.2)) ∧
      (last.left services.lookup).found = a.progress.found.insertAll
        ((finds services.lookup trail).map fun e => (some e.1, e.2)) := by
  induction h with
  | here a =>
    have hfinds : finds services.lookup [a] = (a.found? services.lookup).toList := by
      unfold finds
      rcases hd : a.found? services.lookup <;> simp [hd]
    rw [hfinds]
    exact ⟨rfl, rfl⟩
  | @move a b last rest hm _ ih =>
    have hb := ih (hm.step_gives hg)
    have hfinds : finds services.lookup (a :: rest) =
        (a.found? services.lookup).toList ++ finds services.lookup rest := by
      unfold finds
      rw [List.filterMap_cons]
      rcases a.found? services.lookup <;> rfl
    rw [hfinds, List.map_append, OrderedMap.insertAll_append, OrderedMap.insertAll_append, hb.1,
      hb.2, hm.progress ha]
    exact ⟨rfl, rfl⟩

/-- How a run leaves the last place of a trail with the graph and the service as they are then: it
halts there, or it moves on and the trail is as long as it may be. -/
inductive Leaves (services : Services γ τ) (problem : Option String) (limit length : Nat)
    (last : Place γ τ) : γ × τ → Prop
  | halts {ending : Ending} {progress : Progress} {world : γ × τ}
      (halts : Halts services problem last (ending, progress, world)) :
      Leaves services problem limit length last world
  | moves {next : Place γ τ} (moves : Moves services problem last next) (long : length = limit) :
      Leaves services problem limit length last next.world

/-- However a walk ends, it has left the last place of a trail from where it started. -/
theorem walk_left (hg : services.graph.Gives Step.NamesField) {limit left : Nat}
    (a : Place γ τ) (ha : a.step.NamesField) {ending : Ending} {progress : Progress}
    {world : γ × τ}
    (hw : walk services problem limit (left + 1) a.step a.progress a.world =
      (ending, progress, world)) :
    ∃ trail last, Trail services problem a trail last ∧ trail.length ≤ left + 1 ∧
      Leaves services problem (left + 1) trail.length last world ∧
      progress = last.left services.lookup := by
  obtain ⟨trail, last, ht, hlen, he⟩ := walk_trail services problem limit left a
  have hl : last.step.NamesField := ht.last_gives hg ha
  rw [hw] at he
  rcases he with hh | ⟨hlong, b, hm, he⟩
  · exact ⟨trail, last, ht, hlen, .halts hh, hh.progress hl⟩
  · cases he
    exact ⟨trail, last, ht, hlen, .moves hm hlong, hm.progress hl⟩

end Run

/-- The places that a run of a problem passes, and the graph and the service as it leaves them. It
passes none if there is no first step or it may visit none; otherwise those of a trail from the
first step, of which it leaves the last. -/
inductive Passes (services : Services γ τ) (problem : Option String) (limit : Nat)
    (context : Context) (world : γ × τ) : List (Place γ τ) → γ × τ → Prop
  | nowhere {fault : Fault} {g : γ}
      (read : services.graph.firstStep problem world.1 = (.error fault, g)) :
      Passes services problem limit context world [] (g, world.2)
  | unvisited {first : Step} {g : γ}
      (read : services.graph.firstStep problem world.1 = (.ok first, g)) (none : limit = 0) :
      Passes services problem limit context world [] (g, world.2)
  | along {first : Step} {g : γ} {trail : List (Place γ τ)} {last : Place γ τ} {final : γ × τ}
      (read : services.graph.firstStep problem world.1 = (.ok first, g))
      (follows : Trail services problem ⟨first, .initial context, (g, world.2)⟩ trail last)
      (bounded : trail.length ≤ limit)
      (leaves : Leaves services problem limit trail.length last final) :
      Passes services problem limit context world trail final

end Traversal

open Traversal

/-- What a run leaves is its data, as values, overlaid with what was found: under a name the value
last found for it, names in the order of their first appearance. -/
structure Outcome.Overlays (outcome : Outcome) (data : OrderedMap String Datum)
    (found : List (String × Value)) : Prop where
  results (name : String) : outcome.results.get? name = found.reverse.lookup name
  context (name : String) : outcome.data.get? name =
    ((outcome.results.get? name).or ((data.get? name).bind (·.toValue.toOption))).map .plain
  order : outcome.data.keys = (data.keys ++ found.map Prod.fst).eraseDups

theorem Outcome.overlays {data : OrderedMap String Datum} {context : Context}
    (hd : Context.ofData data = .ok context) {ending : Ending} {progress : Progress}
    {found : List (String × Value)} (hc : progress.context = context.insertAll found)
    (hr : progress.results = OrderedMap.empty.insertAll found) :
    (ended ending progress).Overlays data found where
  results name := by
    simp only [Outcome.results, hr, OrderedMap.get?_insertAll, OrderedMap.get?_empty,
      Option.or_none]
  context name := by
    simp only [Outcome.data, Outcome.results, Context.toData, OrderedMap.get?_mapValues, hc, hr,
      OrderedMap.get?_insertAll, OrderedMap.get?_empty, Option.or_none, Context.get?_of_ofData hd]
  order := by
    simp only [Outcome.data, Context.toData, OrderedMap.keys_mapValues, hc,
      OrderedMap.keys_insertAll, Context.keys_of_ofData hd]

theorem Traversal.start_left {services : Services γ τ}
    (hg : services.graph.Gives Step.NamesField) (limit : Nat) (problem : Option String)
    (context : Context) (world : γ × τ) {ending : Ending} {progress : Progress} {w : γ × τ}
    (hs : start services limit problem context world = (ending, progress, w)) :
    ∃ trail, Passes services problem limit context world trail w ∧
      progress.visited = trail.map (·.step.key) ∧
      progress.context = context.insertAll (finds services.lookup trail) ∧
      progress.results = OrderedMap.empty.insertAll (finds services.lookup trail) ∧
      progress.known.stored = progress.context := by
  have hinitial : ∀ field ∈ (Fields.ofContext context).keys, field.isSome = true :=
    fun _ => Fields.isSome_of_mem_keys_ofContext
  have hstored : (Fields.ofContext context).stored = (Progress.initial context).context :=
    Fields.stored_eq_named hinitial
  unfold start at hs
  rcases hf : services.graph.firstStep problem world.1 with ⟨f | first, g⟩ <;>
    simp only [hf] at hs
  · cases hs
    exact ⟨[], .nowhere hf, rfl, Progress.context_initial context, rfl, hstored⟩
  · cases limit with
    | zero =>
      cases hs
      exact ⟨[], .unvisited hf rfl, rfl, Progress.context_initial context, rfl, hstored⟩
    | succ n =>
      have ha : first.NamesField := hg.firstStep hf
      obtain ⟨trail, last, ht, hlen, hleaves, hp⟩ :=
        walk_left hg ⟨first, .initial context, (g, world.2)⟩ ha hs
      have hv : (last.left services.lookup).visited = trail.map (·.step.key) := by
        simpa [Place.left, Progress.keepAll, Progress.visit] using ht.visited
      obtain ⟨hknown, hfound⟩ := ht.left hg ha
      rw [hp]
      refine ⟨trail, .along hf ht hlen hleaves, hv, ?_, ?_, ?_⟩
      · rw [Progress.context, hknown, Fields.named_insertAll]
        exact congrArg (OrderedMap.insertAll · _) (Fields.named_ofContext context)
      · rw [Progress.results, hfound, Fields.named_insertAll]
        rfl
      · refine Fields.stored_eq_named fun field hm => ?_
        rw [hknown] at hm
        exact Fields.isSome_of_mem_keys_insertAll hinitial field hm

/-- However a run ends, it leaves its data overlaid with what the places it passes find; data that
make no context are left as they are. -/
theorem Traversal.run_overlays (services : Services γ τ)
    (hg : services.graph.Gives Step.NamesField) (limit : Nat) (problem : Option String)
    (data : OrderedMap String Datum) (world : γ × τ) :
    let result := run services limit problem data world
    let outcome := result.1
    ((∀ e ∈ data.entries, ∃ v, e.2.toValue = .ok v) →
      ∃ context trail, Context.ofData data = .ok context ∧
        Passes services problem limit context world trail result.2 ∧
        outcome.visited = trail.map (·.step.key) ∧
        outcome.Overlays data (finds services.lookup trail) ∧
        ∀ name v, outcome.results.get? name = some v → v ≠ .null ∧
          ∃ place ∈ trail, place.step.isQuery = true ∧ place.step.field = some name ∧
            ∃ template, place.step.condition = some template ∧ template ≠ "") ∧
    ((∃ e ∈ data.entries, ∃ f, e.2.toValue = .error f) →
      outcome.data = data ∧ outcome.visited = [] ∧ outcome.results = .empty) := by
  intro result outcome
  constructor
  · intro hd
    obtain ⟨context, hc⟩ := Context.ofData_exists hd
    rcases hs : start services limit problem context world with ⟨ending, progress, w⟩
    have hresult : result = (.ended ending progress, w) := by simp only [result, run, hc, hs]
    have houtcome : outcome = .ended ending progress := congrArg Prod.fst hresult
    obtain ⟨trail, hp, hv, hctx, hr, -⟩ := start_left hg limit problem context world hs
    have ho : outcome.Overlays data (finds services.lookup trail) :=
      houtcome ▸ Outcome.overlays hc hctx hr
    refine ⟨context, trail, hc, hresult ▸ hp, houtcome ▸ hv, ho, fun name v h => ?_⟩
    rw [ho.results] at h
    obtain ⟨later, earlier, hl, -⟩ := List.lookup_eq_some_iff.1 h
    have hm : (name, v) ∈ finds services.lookup trail :=
      List.mem_reverse.1 (hl ▸ List.mem_append_right _ List.mem_cons_self)
    obtain ⟨place, hpl, hf⟩ := List.mem_filterMap.1 hm
    obtain ⟨hne, hq, hfield, hcond⟩ := of_found?_eq_some hf
    exact ⟨hne, place, hpl, hq, hfield, hcond⟩
  · rintro ⟨e, he, f, hf⟩
    rcases hc : Context.ofData data with f' | context
    · have houtcome : outcome = .refused data f' := by simp only [outcome, result, run, hc]
      rw [houtcome]
      exact ⟨rfl, rfl, rfl⟩
    · obtain ⟨v, hv⟩ := Context.toValue_of_ofData hc e he
      rw [hf] at hv
      cases hv

/-- A walk that looks the same field up three times, from a decimal that converts to an integer;
and one that is refused. -/
theorem run_overlays_refunds :
    let systems : SqlSystems := .ofRegistered
      (.ofEntries [("shop", .engine (.ofEntries
        [("SELECT amount FROM orders WHERE id = 7", .row (some [.int 50]))]))])
      none true .empty
    let services : Services Unit SqlConnections := ⟨LocalGraph.refunds.source, systems.source⟩
    let data : OrderedMap String Datum := .ofEntries [("id", .decimal (.finite false 70 (-1)))]
    let refused : OrderedMap String Datum := .ofEntries [("id", .int 7), ("tags", .list [])]
    let result (data : OrderedMap String Datum) :=
      run services 3 (some "refund") data ((), .fresh)
    let outcome (data : OrderedMap String Datum) := (result data).1
    services.graph.Gives Step.NamesField ∧
      (∀ e ∈ data.entries, ∃ v, e.2.toValue = .ok v) ∧
      (∃ context trail, Context.ofData data = .ok context ∧
        Passes services (some "refund") 3 context ((), .fresh) trail (result data).2 ∧
        (outcome data).visited = trail.map (·.step.key) ∧
        (outcome data).Overlays data (finds services.lookup trail) ∧
        ∀ name v, (outcome data).results.get? name = some v → v ≠ .null ∧
          ∃ place ∈ trail, place.step.isQuery = true ∧ place.step.field = some name ∧
            ∃ template, place.step.condition = some template ∧ template ≠ "") ∧
      (∃ e ∈ refused.entries, ∃ f, e.2.toValue = .error f) ∧
      (outcome refused).data = refused ∧ (outcome refused).visited = [] ∧
        (outcome refused).results = .empty := by
  intro systems services data refused result outcome
  have hg : services.graph.Gives Step.NamesField := by
    refine LocalGraph.source_gives ?_
    have hall : ∀ e ∈ LocalGraph.refunds.steps.entries, e.2.NamesField := by decide
    exact hall
  have hd : ∀ e ∈ data.entries, ∃ v, e.2.toValue = .ok v := by
    intro e he
    obtain rfl := List.mem_singleton.1 he
    exact ⟨.int 7, rfl⟩
  have hr : ∃ e ∈ refused.entries, ∃ f, e.2.toValue = .error f :=
    ⟨("tags", .list []), List.mem_cons_of_mem _ List.mem_cons_self, _, rfl⟩
  exact ⟨hg, hd, (run_overlays services hg 3 (some "refund") data ((), .fresh)).1 hd, hr,
    (run_overlays services hg 3 (some "refund") refused ((), .fresh)).2 hr⟩

end Playbook
