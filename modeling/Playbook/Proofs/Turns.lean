import Mathlib.Data.List.Basic
import Mathlib.Data.List.Induction
import Mathlib.Tactic.Common
import Playbook.Dialogue
import Playbook.Proofs.Entities
import Playbook.Proofs.Overlay
import Playbook.Proofs.Shelf

/-!
# What a turn leaves

A question leaves a dialogue by one of four exits (`Dialogue.Exit`): the user is asked again, the
intent has no problem, the problem cannot be read, or a walk ends. With a store in memory that has
no lifetime, every exit answers and leaves the context of the user overlaid with the entities that
the reply tells (`ChatReply.Tells`) and with what was looked up (`Dialogue.take_question`). So a
turn loses nothing that was known or told, after whatever turns before
(`Dialogue.question_loses_nothing`).
-/

namespace Playbook

namespace OrderedMap

variable {κ α : Type} [DecidableEq κ]

variable (m other : OrderedMap κ α)

theorem get?_insertAll_entries (key : κ) :
    (m.insertAll other.entries).get? key = (other.get? key).or (m.get? key) := by
  have ho : empty.insertAll other.entries = other := ofEntries_entries other
  have hg := get?_insertAll empty other.entries key
  rw [ho, get?_empty, Option.or_none] at hg
  rw [get?_insertAll, hg]

theorem insertAll_insert (key : κ) (value : α) :
    m.insertAll (other.insert key value).entries =
      (m.insertAll other.entries).insert key value := by
  refine ext_get? ?_ fun k => ?_
  · have ho (x : OrderedMap κ α) : x.entries.map Prod.fst = x.keys := rfl
    simp only [keys_insert, keys_insertAll, ho, List.mem_eraseDups, List.mem_append]
    by_cases hko : key ∈ other.keys
    · simp [hko]
    · rw [if_neg hko, ← List.append_assoc, List.eraseDups_append]
      by_cases hkm : key ∈ m.keys
      · simp [hkm, List.removeAll]
      · simp [hko, hkm, List.removeAll, List.eraseDups_cons]
  · rw [get?_insertAll_entries, get?_insert, get?_insert, get?_insertAll_entries]
    split <;> rfl

/-- Writing the map that entries write is writing the entries. -/
theorem insertAll_ofEntries (entries : List (κ × α)) :
    m.insertAll (ofEntries entries).entries = m.insertAll entries := by
  induction entries using List.reverseRecOn with
  | nil => rfl
  | append_singleton entries e ih =>
    rw [ofEntries, insertAll_append, insertAll_cons, insertAll_nil, insertAll_insert,
      insertAll_append, ← ofEntries, ih]
    rfl

theorem mem_keys_insertAll {entries : List (κ × α)} {key : κ} (h : key ∈ m.keys) :
    key ∈ (m.insertAll entries).keys := by
  rw [keys_insertAll, List.mem_eraseDups]
  exact List.mem_append_left _ h

end OrderedMap

namespace MemoryStore

variable {θ : Type} [Add θ]

/-- A store in which nothing ends. -/
def Lasting (store : MemoryStore θ) : Prop := ∃ shelf, store.Holds none shelf

/-- What is known of a user. -/
def known (store : MemoryStore θ) (user : String) : Context :=
  (store.contexts.get? user).getD .empty

theorem lasting_fresh (now : θ) : (fresh none now).Lasting := ⟨_, holds_fresh none now⟩

namespace Lasting

variable {store : MemoryStore θ} (h : store.Lasting) (user : String)
include h

theorem put (context : Context) : (store.put user context).Lasting := by
  obtain ⟨_, h⟩ := h
  exact ⟨_, h.put user context⟩

theorem clear : (store.clear user).Lasting := by
  obtain ⟨_, h⟩ := h
  exact ⟨_, h.clear user⟩

variable [LE θ] [DecidableLE θ]

theorem get : (store.get user).1 = store.known user ∧ (store.get user).2.Lasting ∧
    (store.get user).2.contexts.get? =
      Function.update store.contexts.get? user (some (store.known user)) := by
  obtain ⟨shelf, h⟩ := h
  have hk : (shelf.found none store.now user).context = store.known user := by
    rw [Shelf.found_none, known, h.contexts]
  refine ⟨hk ▸ (h.get user).1, ⟨_, (h.get user).2⟩, funext fun other => ?_⟩
  rw [(h.get user).2.contexts, Function.update_apply, Function.update_apply, h.contexts]
  split
  · rw [Option.map_some, hk]
  · rfl

end Lasting

theorem get?_put (store : MemoryStore θ) (user : String) (context : Context) :
    (store.put user context).contexts.get? =
      Function.update store.contexts.get? user (some context) := by
  funext other
  rw [put, OrderedMap.get?_insert, Function.update_apply]

omit [Add θ] in
theorem get?_clear (store : MemoryStore θ) (user : String) :
    (store.clear user).contexts.get? = Function.update store.contexts.get? user none := by
  funext other
  rw [clear, OrderedMap.get?_erase, Function.update_apply]

end MemoryStore

/-- The reading of a problem fails only because there is none or because it cannot be read. -/
def GraphSource.MissesOnly {γ : Type} (graph : GraphSource γ) : Prop :=
  ∀ {type g f g'}, graph.problemFor type g = (.error f, g') →
    f.kind = .notFound ∨ f.kind = .storageFailed

theorem LocalGraph.source_missesOnly (graph : LocalGraph) : graph.source.MissesOnly := by
  intro type g f g' h
  have hf : graph.problemFor type = .error f := (Prod.mk.inj h).1
  unfold LocalGraph.problemFor at hf
  split at hf
  · cases hf
  · cases hf
    exact .inl rfl

/-- What a user does, with the reply of the language model to a question. -/
inductive Turn where
  | question (query : String) (reply : ChatReply)
  | read
  | put (data : OrderedMap String Datum)
  | clear

/-- A turn that takes nothing from what is known. -/
def Turn.Adds : Turn → Prop
  | question .. | read => True
  | put _ | clear => False

/-- What a turn is answered with. -/
inductive Response where
  | message (text : String)
  | context (context : Context)
  | done
  | failed (fault : Fault)

namespace Dialogue

variable {γ τ κ : Type}

/-- Takes a turn of a user. -/
def take (assistant : Assistant γ τ κ) (user : String) :
    Turn → DialogueState γ τ κ → Response × DialogueState γ τ κ
  | .question query reply, s =>
    match answer assistant user query { s with chat := ⟨[reply], s.chat.requests⟩ } with
    | (.ok text, s) => (.message text, s)
    | (.error f, s) => (.failed f, s)
  | .read, s =>
    match assistant.contexts.get user s.contexts with
    | (.ok context, contexts) => (.context context, { s with contexts := contexts })
    | (.error f, contexts) => (.failed f, { s with contexts := contexts })
  | .put data, s =>
    match assistant.contexts.putData user data s.contexts with
    | (.ok (), contexts) => (.done, { s with contexts := contexts })
    | (.error f, contexts) => (.failed f, { s with contexts := contexts })
  | .clear, s =>
    match clear assistant user s with
    | (.ok (), s) => (.done, s)
    | (.error f, s) => (.failed f, s)

/-- Takes turns of users one after the other. -/
def run (assistant : Assistant γ τ κ) :
    List (String × Turn) → DialogueState γ τ κ → List Response × DialogueState γ τ κ
  | [], s => ([], s)
  | (user, turn) :: rest, s =>
    let (response, s) := take assistant user turn s
    let (responses, s) := run assistant rest s
    (response :: responses, s)

/-- The ways in which an intent is answered in a context: the message, how far a walk came, and the
states of the playbook and the data systems. -/
inductive Exit (assistant : Assistant γ τ κ) (intent : Intent) (context : Context) (g : γ) (t : τ) :
    String → Progress → γ → τ → Prop
  | clarify (h : intent.needsClarification assistant.threshold = true) :
    Exit assistant intent context g t clarifyMessage (.initial context) g t
  | unsupported {f : Fault} {g' : γ} (h : intent.needsClarification assistant.threshold = false)
    (hp : assistant.graph.problemFor (some intent.name) g = (.error f, g'))
    (hf : f.kind = .notFound) :
    Exit assistant intent context g t (unsupportedMessage intent.name) (.initial context) g' t
  | storageFailed {f : Fault} {g' : γ} (h : intent.needsClarification assistant.threshold = false)
    (hp : assistant.graph.problemFor (some intent.name) g = (.error f, g'))
    (hf : f.kind = .storageFailed) :
    Exit assistant intent context g t Stop.systemErrorMessage (.initial context) g' t
  | walked {problem : String} {g' g'' : γ} {t' : τ} {ending : Ending} {progress : Progress}
    (h : intent.needsClarification assistant.threshold = false)
    (hp : assistant.graph.problemFor (some intent.name) g = (.ok problem, g'))
    (hw : Traversal.start ⟨assistant.graph, assistant.lookup⟩ assistant.limit (some problem)
      context (g', t) = (ending, progress, (g'', t'))) :
    Exit assistant intent context g t (Outcome.ended ending progress).message progress g'' t'

namespace Exit

variable {assistant : Assistant γ τ κ} {intent : Intent} {context : Context} {g g' : γ} {t t' : τ}
  {message : String} {progress : Progress}
  (h : Exit assistant intent context g t message progress g' t')
include h

/-- A walk alone looks something up. -/
theorem not_walked (hn : intent.needsClarification assistant.threshold = true ∨
      ∃ f, (assistant.graph.problemFor (some intent.name) g).1 = .error f) :
    progress.results = .empty ∧ t' = t := by
  cases h with
  | clarify | unsupported | storageFailed => exact ⟨rfl, rfl⟩
  | walked h hp =>
    rcases hn with hn | ⟨f, hn⟩
    · rw [h] at hn
      cases hn
    · rw [hp] at hn
      cases hn

theorem context_eq (hg : assistant.graph.Gives Step.NamesField) :
    progress.known.stored = context.insertAll progress.results.entries := by
  cases h with
  | clarify | unsupported | storageFailed =>
    exact Fields.stored_ofContext context
  | walked _ _ hw =>
    have hs : (Services.mk assistant.graph assistant.lookup).graph.Gives Step.NamesField := hg
    obtain ⟨trail, -, -, hcontext, hresults, hstored⟩ := Traversal.start_left hs _ _ _ _ hw
    rw [hstored, hcontext, hresults]
    exact (OrderedMap.insertAll_ofEntries context _).symm

end Exit

section Memory

variable {θ : Type} [Add θ] [LE θ] [DecidableLE θ] {assistant : Assistant γ τ (MemoryStore θ)}
  (hc : assistant.contexts = MemoryStore.source) (hm : assistant.graph.MissesOnly)
include hc

theorem keep_memory (user : String) (context : Context) (message : String)
    (s : DialogueState γ τ (MemoryStore θ)) : keep assistant user context message s =
      (.ok message, { s with contexts := s.contexts.put user context }) := by
  rw [keep, hc]
  rfl

theorem take_read {s : DialogueState γ τ (MemoryStore θ)} (hs : s.contexts.Lasting)
    (user : String) : take assistant user .read s =
      (.context (s.contexts.known user), { s with contexts := (s.contexts.get user).2 }) := by
  simp only [take, hc, MemoryStore.source, (hs.get user).1]

theorem take_put (user : String) (data : OrderedMap String Datum)
    (s : DialogueState γ τ (MemoryStore θ)) : take assistant user (.put data) s =
      match Context.ofData data with
      | .error f => (.failed f, s)
      | .ok context => (.done, { s with contexts := s.contexts.put user context }) := by
  simp only [take, hc, ContextSource.putData, MemoryStore.source]
  rcases Context.ofData data with f | context <;> rfl

theorem take_clear (user : String) (s : DialogueState γ τ (MemoryStore θ)) :
    take assistant user .clear s =
      (.done, { s with contexts := s.contexts.clear user }) := by
  simp only [take, Dialogue.clear, hc, MemoryStore.source]

include hm

/-- Every exit keeps the context that it comes with. -/
theorem respond_exit (user : String) (intent : Intent) (context : Context)
    (s : DialogueState γ τ (MemoryStore θ)) : ∃ message progress g t,
      Exit assistant intent context s.graph s.lookup message progress g t ∧
      respond assistant user intent context s =
        (.ok message, ⟨g, t, s.contexts.put user progress.known.stored, s.chat⟩) := by
  unfold respond
  have hkeep (message : String) (s : DialogueState γ τ (MemoryStore θ)) :
      keep assistant user context message s =
        (.ok message, { s with
          contexts := s.contexts.put user (Progress.initial context).known.stored }) := by
    rw [keep_memory hc, Progress.initial, Fields.stored_ofContext]
  by_cases hn : intent.needsClarification assistant.threshold = true
  · rw [if_pos hn]
    exact ⟨_, _, _, _, .clarify hn, hkeep ..⟩
  rw [if_neg hn]
  rw [Bool.not_eq_true] at hn
  rcases hp : assistant.graph.problemFor (some intent.name) s.graph with ⟨f | problem, g⟩
  · dsimp only
    rcases hm hp with hf | hf
    · rw [hf]
      exact ⟨_, _, _, _, .unsupported hn hp hf, hkeep ..⟩
    · rw [hf]
      exact ⟨_, _, _, _, .storageFailed hn hp hf, hkeep ..⟩
  · rcases hw : Traversal.start ⟨assistant.graph, assistant.lookup⟩ assistant.limit
      (some problem) context (g, s.lookup) with ⟨ending, progress, g', t'⟩
    refine ⟨_, _, _, _, .walked hn hp hw, ?_⟩
    simp only [walk, hw]
    exact keep_memory hc ..

/-- A question is answered, with one request to the language model. -/
theorem take_question {s : DialogueState γ τ (MemoryStore θ)} (hs : s.contexts.Lasting)
    (user query : String) (reply : ChatReply) :
    let intent := Recogniser.readReply reply
    let context := (s.contexts.known user).insertAll intent.entities.entries
    ∃ message progress g t,
      Exit assistant intent context s.graph s.lookup message progress g t ∧
      take assistant user (.question query reply) s =
        (.message message, ⟨g, t, (s.contexts.get user).2.put user progress.known.stored,
          ⟨[], s.chat.requests ++
            [assistant.recogniser.request (compositeQuery user query)]⟩⟩) := by
  intro intent context
  obtain ⟨message, progress, g, t, he, hr⟩ := respond_exit hc hm user intent context
    ⟨s.graph, s.lookup, (s.contexts.get user).2,
      ⟨[], s.chat.requests ++ [assistant.recogniser.request (compositeQuery user query)]⟩⟩
  refine ⟨message, progress, g, t, he, ?_⟩
  have ha : answer assistant user query { s with chat := ⟨[reply], s.chat.requests⟩ } =
      respond assistant user intent context ⟨s.graph, s.lookup, (s.contexts.get user).2,
        ⟨[], s.chat.requests ++
          [assistant.recogniser.request (compositeQuery user query)]⟩⟩ := by
    simp only [answer, hc, MemoryStore.source, (hs.get user).1]
    rfl
  rw [take, ha, hr]

theorem take_lasting {s : DialogueState γ τ (MemoryStore θ)} (hs : s.contexts.Lasting)
    (user : String) (turn : Turn) : (take assistant user turn s).2.contexts.Lasting := by
  cases turn with
  | question query reply =>
    obtain ⟨message, progress, g, t, -, h⟩ := take_question hc hm hs user query reply
    rw [h]
    exact (hs.get user).2.1.put user progress.known.stored
  | read =>
    rw [take_read hc hs]
    exact (hs.get user).2.1
  | put data =>
    rw [take_put hc]
    rcases Context.ofData data with f | context
    · exact hs
    · exact hs.put user context
  | clear =>
    rw [take_clear hc]
    exact hs.clear user

theorem run_lasting (turns : List (String × Turn)) {s : DialogueState γ τ (MemoryStore θ)}
    (hs : s.contexts.Lasting) : (run assistant turns s).2.contexts.Lasting := by
  induction turns generalizing s with
  | nil => exact hs
  | cons e rest ih => exact ih (take_lasting hc hm hs e.1 e.2)

theorem take_other {s : DialogueState γ τ (MemoryStore θ)} (hs : s.contexts.Lasting)
    {user other : String} (hne : other ≠ user) (turn : Turn) :
    (take assistant user turn s).2.contexts.contexts.get? other =
      s.contexts.contexts.get? other := by
  have hget : (s.contexts.get user).2.contexts.get? other = s.contexts.contexts.get? other := by
    rw [(hs.get user).2.2, Function.update_of_ne hne]
  cases turn with
  | question query reply =>
    obtain ⟨message, progress, g, t, -, h⟩ := take_question hc hm hs user query reply
    rw [h, MemoryStore.get?_put, Function.update_of_ne hne, hget]
  | read =>
    rw [take_read hc hs]
    exact hget
  | put data =>
    rw [take_put hc]
    rcases Context.ofData data with f | context
    · rfl
    · rw [MemoryStore.get?_put, Function.update_of_ne hne]
  | clear => rw [take_clear hc, MemoryStore.get?_clear, Function.update_of_ne hne]

section Keys

variable (hg : assistant.graph.Gives Step.NamesField)
include hg

theorem take_keys {s : DialogueState γ τ (MemoryStore θ)} (hs : s.contexts.Lasting)
    {user key : String} {turn : Turn} (ht : turn.Adds) (hk : key ∈ (s.contexts.known user).keys) :
    key ∈ ((take assistant user turn s).2.contexts.known user).keys := by
  cases turn with
  | question query reply =>
    obtain ⟨message, progress, g, t, he, h⟩ := take_question hc hm hs user query reply
    rw [h, MemoryStore.known, MemoryStore.get?_put, Function.update_self, Option.getD_some,
      he.context_eq hg]
    exact OrderedMap.mem_keys_insertAll _ (OrderedMap.mem_keys_insertAll _ hk)
  | read =>
    rw [take_read hc hs, MemoryStore.known, (hs.get user).2.2, Function.update_self]
    exact hk
  | put _ | clear => exact ht.elim

/-- What is known of a user under a key stays known under it, whatever others do, until the user
puts a context or is forgotten. -/
theorem run_keys {turns : List (String × Turn)} {s : DialogueState γ τ (MemoryStore θ)}
    (hs : s.contexts.Lasting) {user key : String}
    (ht : ∀ e ∈ turns, e.1 = user → e.2.Adds) (hk : key ∈ (s.contexts.known user).keys) :
    key ∈ ((run assistant turns s).2.contexts.known user).keys := by
  induction turns generalizing s with
  | nil => exact hk
  | cons e rest ih =>
    have hnext : key ∈ ((take assistant e.1 e.2 s).2.contexts.known user).keys := by
      by_cases hu : e.1 = user
      · subst hu
        exact take_keys hc hm hg hs (ht e List.mem_cons_self rfl) hk
      · rw [MemoryStore.known, take_other hc hm hs (Ne.symm hu)]
        exact hk
    exact ih (take_lasting hc hm hs e.1 e.2) (fun e he => ht e (List.mem_cons_of_mem _ he)) hnext

end Keys

/-- After every history of turns, a question is answered with one request to the language model and
leaves what was known of the user overlaid with the entities that the reply tells, and with what was
looked up if there was a walk. Without a walk no data system is asked. No name is lost then, nor by
any turns after it, until the user puts a context or is forgotten. -/
theorem question_loses_nothing (hg : assistant.graph.Gives Step.NamesField) (g : γ) (t : τ)
    (chat : Chat) (now : θ) (past : List (String × Turn)) (user query : String)
    (reply : ChatReply) :
    let before := (run assistant past ⟨g, t, .fresh none now, chat⟩).2
    let intent := Recogniser.readReply reply
    let context (entities : Context) :=
      (before.contexts.known user).insertAll entities.entries
    ∃ entities message progress after, reply.Tells entities ∧
      take assistant user (.question query reply) before = (.message message, after) ∧
      after.chat.requests =
        before.chat.requests ++ [assistant.recogniser.request (compositeQuery user query)] ∧
      Exit assistant intent (context entities) before.graph before.lookup message progress
        after.graph after.lookup ∧
      after.contexts.contexts.get? user =
        some ((context entities).insertAll progress.results.entries) ∧
      ((intent.needsClarification assistant.threshold = true ∨
          ∃ f, (assistant.graph.problemFor (some intent.name) before.graph).1 = .error f) →
        progress.results = .empty ∧ after.lookup = before.lookup) ∧
      ∀ key ∈ (before.contexts.known user).keys, ∀ later : List (String × Turn),
        (∀ e ∈ later, e.1 = user → e.2.Adds) →
          key ∈ ((run assistant later after).2.contexts.known user).keys := by
  intro before intent context
  have hs : before.contexts.Lasting := run_lasting hc hm past (MemoryStore.lasting_fresh now)
  obtain ⟨message, progress, g', t', he, ht⟩ := take_question hc hm hs user query reply
  have hl := take_lasting hc hm hs user (.question query reply)
  have hk {key : String} (h : key ∈ (before.contexts.known user).keys) :
      key ∈ ((take assistant user (.question query reply) before).2.contexts.known user).keys :=
    take_keys hc hm hg hs trivial h
  rw [ht] at hl hk
  refine ⟨intent.entities, message, progress, _, Recogniser.readReply_tells reply, ht, rfl, he, ?_,
    he.not_walked, fun key hkey later hlater => ?_⟩
  · rw [MemoryStore.get?_put, Function.update_self, he.context_eq hg]
  · exact run_keys hc hm hg hl hlater (hk hkey)

end Memory

/-- A question that walks the refunds, for a user whose order was put before and who states a
channel. -/
theorem question_loses_nothing_refunds :
    let systems : SqlSystems := .ofRegistered
      (.ofEntries [("shop", .engine (.ofEntries
        [("SELECT amount FROM orders WHERE id = 7", .row (some [.int 50]))]))])
      none true .empty
    let assistant : Assistant Unit SqlConnections (MemoryStore Nat) :=
      ⟨LocalGraph.refunds.source, systems.source, MemoryStore.source, .standard, 5,
        defaultThreshold⟩
    let past : List (String × Turn) :=
      [("ann", .put (.ofEntries [("id", .int 7)])), ("bob", .clear)]
    let reply : ChatReply :=
      .content (some ("\x7b\"intent\": \"refund\", \"confidence\": 0.9, " ++
        "\"entities\": \x7b\"channel\": \"web\", \"tags\": []\x7d\x7d"))
    assistant.contexts = MemoryStore.source ∧ assistant.graph.MissesOnly ∧
    assistant.graph.Gives Step.NamesField ∧
    let before := (run assistant past ⟨(), .fresh, .fresh none 0, .ofReplies []⟩).2
    let intent := Recogniser.readReply reply
    let context (entities : Context) :=
      (before.contexts.known "ann").insertAll entities.entries
    ∃ entities message progress after, reply.Tells entities ∧
      take assistant "ann" (.question "where is it?" reply) before = (.message message, after) ∧
      after.chat.requests =
        before.chat.requests ++
          [assistant.recogniser.request (compositeQuery "ann" "where is it?")] ∧
      Exit assistant intent (context entities) before.graph before.lookup message progress
        after.graph after.lookup ∧
      after.contexts.contexts.get? "ann" =
        some ((context entities).insertAll progress.results.entries) ∧
      ((intent.needsClarification assistant.threshold = true ∨
          ∃ f, (assistant.graph.problemFor (some intent.name) before.graph).1 = .error f) →
        progress.results = .empty ∧ after.lookup = before.lookup) ∧
      ∀ key ∈ (before.contexts.known "ann").keys, ∀ later : List (String × Turn),
        (∀ e ∈ later, e.1 = "ann" → e.2.Adds) →
          key ∈ ((run assistant later after).2.contexts.known "ann").keys := by
  intro systems assistant past reply
  have hm : assistant.graph.MissesOnly := LocalGraph.refunds.source_missesOnly
  have hg : assistant.graph.Gives Step.NamesField := by
    refine LocalGraph.source_gives ?_
    have hall : ∀ e ∈ LocalGraph.refunds.steps.entries, e.2.NamesField := by decide
    exact hall
  have hc : assistant.contexts = MemoryStore.source := rfl
  exact ⟨hc, hm, hg,
    question_loses_nothing hc hm hg () .fresh (.ofReplies []) 0 past "ann" "where is it?" reply⟩

end Dialogue

end Playbook
