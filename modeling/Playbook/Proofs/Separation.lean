import Playbook.Proofs.Lockstep
import Playbook.Proofs.Turns

/-!
# Users do not influence each other

A service is steady if its answers depend on the system and the statement alone, whatever it did
before (`LookupSource.Steady`); systems whose engines are created when they are first needed are
(`SqlSystems.steady`). With a playbook in memory and a steady service, a turn of a user depends on
what is kept for that user alone (`Dialogue.take_alike`) and leaves what is kept for others
(`Dialogue.take_other`). So turns of users in any order come out for each as if taken alone
(`Dialogue.users_apart`).
-/

namespace Playbook

variable {τ : Type}

/-- In states of a kind, which it does not leave, a service answers as the system and the statement
say. -/
structure LookupSource.Steady (lookup : LookupSource τ)
    (answer : Option String → String → Except Fault Value) (Fit : τ → Prop) : Prop where
  answer_eq (system table field : Option String) (condition : String) {t : τ} (ht : Fit t) :
    (lookup.scalar system table field condition t).1 =
      answer system (selectText table field (some condition))
  stays (system table field : Option String) (condition : String) {t : τ} (ht : Fit t) :
    Fit (lookup.scalar system table field condition t).2

namespace SqlSystems

variable (systems : SqlSystems)

/-- The engine of a system when it is first needed. -/
def opened (name : String) : Except Fault SqlEngine :=
  match systems.registered.get? name with
  | none => .error (.missingEntry (Text.quoted name))
  | some (.engine table) => .ok ⟨name, name, table⟩
  | some (.address url) =>
    match systems.reachable.get? url with
    | none => .error (.unavailable s!"bad url: {url}")
    | some table => .ok ⟨name, url, table⟩

/-- What a statement gives on the system that answers for a name. -/
def given (system : Option String) (sql : String) : Except Fault Value :=
  match systems.chosen system with
  | none => .error (.unknownSystem system)
  | some name =>
    match systems.opened name with
    | .error f => .error f
    | .ok engine => (engine.table.answer sql).scalar

/-- The live engines are those that their systems open. -/
def Linked (connections : SqlConnections) : Prop :=
  connections.live.Every fun name engine => systems.opened name = .ok engine

theorem linked_fresh : systems.Linked .fresh := OrderedMap.every_empty _

variable {systems} {connections : SqlConnections} (h : systems.Linked connections)
include h

theorem engineFor_linked {system : Option String} {name : String}
    (hn : systems.chosen system = some name) :
    (systems.engineFor system connections).1 = systems.opened name ∧
      systems.Linked (systems.engineFor system connections).2 := by
  unfold engineFor
  simp only [hn]
  rcases hl : connections.live.get? name with _ | engine
  · dsimp only
    rcases hr : systems.registered.get? name with _ | table | url
    · exact ⟨by simp only [opened, hr], h⟩
    · have ho : systems.opened name = .ok ⟨name, name, table⟩ := by simp only [opened, hr]
      exact ⟨ho.symm, h.insert ho⟩
    · dsimp only [create]
      rcases hu : systems.reachable.get? url with _ | table
      · exact ⟨by simp only [opened, hr, hu], h⟩
      · have ho : systems.opened name = .ok ⟨name, url, table⟩ := by simp only [opened, hr, hu]
        exact ⟨ho.symm, h.insert ho⟩
  · exact ⟨(h.get? hl).symm, h⟩

theorem run_linked (system : Option String) (sql : String) :
    (systems.run system sql connections).1 = systems.given system sql ∧
      systems.Linked (systems.run system sql connections).2 := by
  unfold run given
  rcases hn : systems.chosen system with _ | name
  · have he : systems.engineFor system connections =
        (.error (.unknownSystem system), connections) := by simp only [engineFor, hn]
    rw [he]
    exact ⟨rfl, h⟩
  · obtain ⟨ho, hl⟩ := engineFor_linked h hn
    dsimp only
    rcases he : systems.engineFor system connections with ⟨f | engine, connections'⟩ <;>
      rw [he] at ho hl <;> rw [← ho] <;> exact ⟨rfl, hl⟩

omit h in
/-- Creating engines when they are needed shows in no answer. -/
theorem steady (systems : SqlSystems) : systems.source.Steady
    (fun system sql => (LookupSource.settle systems.strict
      (fun _ : Unit => (systems.given system sql, ())) ()).1) systems.Linked where
  answer_eq system table field condition t ht := by
    have hr := (run_linked ht system (selectText table field (some condition))).1
    simp only [source, LookupSource.running, LookupSource.settle, ← hr]
    rcases systems.run system (selectText table field (some condition)) t with ⟨f | v, t'⟩
    · dsimp only
      split_ifs <;> rfl
    · rfl
  stays system table field condition t ht := by
    have hr := (run_linked ht system (selectText table field (some condition))).2
    simp only [source, LookupSource.running, LookupSource.settle]
    rcases he : systems.run system (selectText table field (some condition)) t with ⟨f | v, t'⟩ <;>
      rw [he] at hr
    · dsimp only
      split_ifs <;> exact hr
    · exact hr

end SqlSystems

theorem LookupSource.Steady.constant {lookup : LookupSource τ}
    {answer : Option String → String → Except Fault Value} {Fit : τ → Prop}
    (hl : lookup.Steady answer Fit) : lookup.Constant Fit where
  answer_eq system table field condition _ _ h := by
    rw [hl.answer_eq system table field condition h.1,
      hl.answer_eq system table field condition h.2]
  stays system table field condition _ _ h :=
    ⟨hl.stays system table field condition h.1, hl.stays system table field condition h.2⟩

namespace Dialogue

/-- Turns of users taken together: those of each user come in their own order. -/
def Interleaves (sequences : String → List Turn) (turns : List (String × Turn)) : Prop :=
  ∀ user, (turns.filter (·.1 = user)).map Prod.snd = sequences user

/-- The responses to a user, of those to turns of several. -/
def responsesTo (user : String) (turns : List (String × Turn)) (responses : List Response) :
    List Response :=
  ((turns.zip responses).filter (·.1.1 = user)).map Prod.snd

section Exit

variable {κ : Type} {assistant : Assistant Unit τ κ}
  {answer : Option String → String → Except Fault Value} {Fit : τ → Prop}
  (hl : assistant.lookup.Steady answer Fit)
include hl

theorem Exit.fit {intent : Intent} {context : Context} {t u : τ} {message : String}
    {progress : Progress} (h : Exit assistant intent context () t message progress () u)
    (ht : Fit t) : Fit u := by
  cases h with
  | clarify | unsupported | storageFailed => exact ht
  | walked _ _ hw =>
    obtain ⟨_, _, _, u', _, ⟨hu, -⟩, h, -⟩ :=
      Traversal.start_alike hl.constant ⟨ht, ht⟩ assistant.graph _ assistant.limit context ()
    rw [hw] at h
    cases h
    exact hu

/-- What a steady service did before does not show in an answer. -/
theorem Exit.alike {intent : Intent} {context : Context} {t t' u u' : τ} {message message' : String}
    {progress progress' : Progress} (ht : Fit t) (ht' : Fit t')
    (h : Exit assistant intent context () t message progress () u)
    (h' : Exit assistant intent context () t' message' progress' () u') :
    message = message' ∧ progress = progress' := by
  cases h with
  | clarify hn =>
    cases h' with
    | clarify => exact ⟨rfl, rfl⟩
    | _ hn' => simp [hn] at hn'
  | unsupported hn hp hf =>
    cases h' with
    | clarify hn' => simp [hn] at hn'
    | unsupported => exact ⟨rfl, rfl⟩
    | storageFailed _ hp' hf' =>
      cases hp.symm.trans hp'
      simp [hf] at hf'
    | walked _ hp' => cases hp.symm.trans hp'
  | storageFailed hn hp hf =>
    cases h' with
    | clarify hn' => simp [hn] at hn'
    | unsupported _ hp' hf' =>
      cases hp.symm.trans hp'
      simp [hf] at hf'
    | storageFailed => exact ⟨rfl, rfl⟩
    | walked _ hp' => cases hp.symm.trans hp'
  | walked hn hp hw =>
    cases h' with
    | clarify hn' => simp [hn] at hn'
    | unsupported _ hp' | storageFailed _ hp' => cases hp.symm.trans hp'
    | walked _ hp' hw' =>
      cases hp.symm.trans hp'
      obtain ⟨ending, progress, _, _, _, -, h, h'⟩ :=
        Traversal.start_alike hl.constant ⟨ht, ht'⟩ assistant.graph _ assistant.limit context ()
      cases hw.symm.trans h
      cases hw'.symm.trans h'
      exact ⟨rfl, rfl⟩

end Exit

section Memory

variable {θ : Type} [Add θ] [LE θ] [DecidableLE θ]
  {assistant : Assistant Unit τ (MemoryStore θ)} (hc : assistant.contexts = MemoryStore.source)
  (hm : assistant.graph.MissesOnly) {answer : Option String → String → Except Fault Value}
  {Fit : τ → Prop} (hl : assistant.lookup.Steady answer Fit)
include hc hm hl

theorem take_fit {s : DialogueState Unit τ (MemoryStore θ)} (hs : s.contexts.Lasting)
    (ht : Fit s.lookup) (user : String) (turn : Turn) :
    Fit (take assistant user turn s).2.lookup := by
  cases turn with
  | question query reply =>
    obtain ⟨message, progress, g, t, he, h⟩ := take_question hc hm hs user query reply
    rw [h]
    exact he.fit hl ht
  | read => rwa [take_read hc hs]
  | put data =>
    rw [take_put hc]
    rcases Context.ofData data with f | context <;> exact ht
  | clear => rwa [take_clear hc]

/-- A turn of a user depends on what is kept for that user alone. -/
theorem take_alike {s s' : DialogueState Unit τ (MemoryStore θ)} (hs : s.contexts.Lasting)
    (hs' : s'.contexts.Lasting) (ht : Fit s.lookup) (ht' : Fit s'.lookup) {user : String}
    (hu : s.contexts.contexts.get? user = s'.contexts.contexts.get? user) (turn : Turn) :
    (take assistant user turn s).1 = (take assistant user turn s').1 ∧
      (take assistant user turn s).2.contexts.contexts.get? user =
        (take assistant user turn s').2.contexts.contexts.get? user := by
  have hk : s.contexts.known user = s'.contexts.known user := by
    rw [MemoryStore.known, hu, MemoryStore.known]
  cases turn with
  | question query reply =>
    obtain ⟨message, progress, g, t, he, h⟩ := take_question hc hm hs user query reply
    obtain ⟨message', progress', g', t', he', h'⟩ := take_question hc hm hs' user query reply
    rw [← hk] at he'
    obtain ⟨rfl, rfl⟩ := he.alike hl ht ht' he'
    rw [h, h', MemoryStore.get?_put, MemoryStore.get?_put, Function.update_self,
      Function.update_self]
    exact ⟨rfl, rfl⟩
  | read =>
    rw [take_read hc hs, take_read hc hs', (hs.get user).2.2, (hs'.get user).2.2,
      Function.update_self, Function.update_self, hk]
    exact ⟨rfl, rfl⟩
  | put data =>
    rw [take_put hc, take_put hc]
    rcases Context.ofData data with f | context
    · exact ⟨rfl, hu⟩
    · rw [MemoryStore.get?_put, MemoryStore.get?_put, Function.update_self, Function.update_self]
      exact ⟨rfl, rfl⟩
  | clear =>
    rw [take_clear hc, take_clear hc, MemoryStore.get?_clear, MemoryStore.get?_clear,
      Function.update_self, Function.update_self]
    exact ⟨rfl, rfl⟩

/-- Turns of several users answer a user, and leave what is kept for the user, as the turns of the
user alone do, from any state with the same kept for the user. -/
theorem run_alike (user : String) (turns : List (String × Turn))
    {s s' : DialogueState Unit τ (MemoryStore θ)} (hs : s.contexts.Lasting)
    (hs' : s'.contexts.Lasting) (ht : Fit s.lookup) (ht' : Fit s'.lookup)
    (hu : s.contexts.contexts.get? user = s'.contexts.contexts.get? user) :
    responsesTo user turns (run assistant turns s).1 =
        (run assistant (turns.filter (·.1 = user)) s').1 ∧
      (run assistant turns s).2.contexts.contexts.get? user =
        (run assistant (turns.filter (·.1 = user)) s').2.contexts.contexts.get? user := by
  induction turns generalizing s s' with
  | nil => exact ⟨rfl, hu⟩
  | cons e rest ih =>
    obtain ⟨other, turn⟩ := e
    have hs₁ := take_lasting hc hm hs other turn
    have ht₁ := take_fit hc hm hl hs ht other turn
    by_cases ho : other = user
    · subst ho
      obtain ⟨hr, hu₁⟩ := take_alike hc hm hl hs hs' ht ht' hu turn
      obtain ⟨ihr, ihu⟩ := ih hs₁ (take_lasting hc hm hs' other turn) ht₁
        (take_fit hc hm hl hs' ht' other turn) hu₁
      rw [List.filter_cons_of_pos (by simp)]
      refine ⟨?_, ihu⟩
      rw [run, responsesTo, List.zip_cons_cons, List.filter_cons_of_pos (by simp), List.map_cons,
        ← responsesTo, ihr, hr]
      rfl
    · have hu₁ := take_other hc hm hs (Ne.symm ho) turn
      rw [hu] at hu₁
      obtain ⟨ihr, ihu⟩ := ih hs₁ hs' ht₁ ht' hu₁
      rw [List.filter_cons_of_neg (by simpa using ho)]
      refine ⟨?_, ihu⟩
      rw [run, responsesTo, List.zip_cons_cons, List.filter_cons_of_neg (by simpa using ho),
        ← responsesTo, ihr]

end Memory

/-- With a playbook in memory, a steady service and contexts that live on, users do not influence
each other: however their turns come together, each gets the responses, and ends with the context,
that their own turns come to alone. -/
theorem users_apart {θ : Type} [Add θ] [LE θ] [DecidableLE θ] (graph : LocalGraph)
    {assistant : Assistant Unit τ (MemoryStore θ)} (hgraph : assistant.graph = graph.source)
    (hcontexts : assistant.contexts = MemoryStore.source)
    {answer : Option String → String → Except Fault Value} {Fit : τ → Prop}
    (hlookup : assistant.lookup.Steady answer Fit)
    {start : DialogueState Unit τ (MemoryStore θ)} (hlasting : start.contexts.Lasting)
    (hfit : Fit start.lookup) {sequences : String → List Turn} {turns : List (String × Turn)}
    (hturns : Interleaves sequences turns) (user : String) :
    let together := run assistant turns start
    let alone := run assistant ((sequences user).map (user, ·)) start
    responsesTo user turns together.1 = alone.1 ∧
      together.2.contexts.contexts.get? user = alone.2.contexts.contexts.get? user := by
  have hm : assistant.graph.MissesOnly := hgraph ▸ graph.source_missesOnly
  have hown : (sequences user).map (user, ·) = turns.filter (·.1 = user) := by
    rw [← hturns user, List.map_map]
    refine (List.map_congr_left fun e he => ?_).trans (List.map_id _)
    obtain rfl : e.1 = user := by simpa using (List.mem_filter.1 he).2
    rfl
  rw [hown]
  exact run_alike hcontexts hm hlookup user turns hlasting hlasting hfit hfit rfl

/-- Two users of the refunds, whose shop is reached by its address, with the turns of one between
those of the other. -/
theorem users_apart_refunds :
    let systems : SqlSystems := .ofRegistered (.ofEntries [("shop", .address "sqlite://shop")])
      none false (.ofEntries [("sqlite://shop", .ofEntries
        [("SELECT amount FROM orders WHERE id = 7", .row (some [.int 50]))])])
    let assistant : Assistant Unit SqlConnections (MemoryStore Nat) :=
      ⟨LocalGraph.refunds.source, systems.source, MemoryStore.source, .standard, 5,
        defaultThreshold⟩
    let start : DialogueState Unit SqlConnections (MemoryStore Nat) :=
      ⟨(), .fresh, .fresh none 0, .ofReplies []⟩
    let reply : ChatReply :=
      .content (some "\x7b\"intent\": \"refund\", \"confidence\": 0.9\x7d")
    let ann : List Turn := [.put (.ofEntries [("id", .int 7)]), .question "where is it?" reply]
    let bob : List Turn := [.question "and mine?" reply, .clear]
    let sequences (user : String) : List Turn :=
      if user = "ann" then ann else if user = "bob" then bob else []
    let turns : List (String × Turn) :=
      (bob.take 1).map ("bob", ·) ++ ann.map ("ann", ·) ++ (bob.drop 1).map ("bob", ·)
    assistant.graph = LocalGraph.refunds.source ∧ assistant.contexts = MemoryStore.source ∧
    (∃ answer, assistant.lookup.Steady answer systems.Linked) ∧ start.contexts.Lasting ∧
    systems.Linked start.lookup ∧ Interleaves sequences turns ∧
    let together := run assistant turns start
    let alone := run assistant ((sequences "ann").map ("ann", ·)) start
    responsesTo "ann" turns together.1 = alone.1 ∧
      together.2.contexts.contexts.get? "ann" = alone.2.contexts.contexts.get? "ann" := by
  intro systems assistant start reply ann bob sequences turns
  have hl : start.contexts.Lasting := MemoryStore.lasting_fresh 0
  have ht : Interleaves sequences turns := by
    intro user
    by_cases ha : user = "ann"
    · subst ha
      rfl
    by_cases hb : user = "bob"
    · subst hb
      rfl
    · simp [sequences, turns, ann, bob, ha, hb, Ne.symm ha, Ne.symm hb]
  exact ⟨rfl, rfl, ⟨_, systems.steady⟩, hl, systems.linked_fresh, ht,
    users_apart LocalGraph.refunds rfl rfl systems.steady hl systems.linked_fresh ht "ann"⟩

end Dialogue

end Playbook
