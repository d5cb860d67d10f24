import Mathlib.Data.List.TakeWhile
import Mathlib.Data.String.Basic
import Playbook.ContextStore.Keyed
import Playbook.Dialogue.Session
import Playbook.Graph.Local

/-!
# Sessions are calls in order

A session does what the calls for its lines do when they are made one after the other, those that
fail included, up to the first line that stops it (`Session.run_calls`): the answers are the same,
and so are the states of the playbook, the data systems, the context store and the language model
after them. Each line is one step of it (`Session.run_cons`).
-/

namespace Playbook

/-- Makes calls one after the other, each in the state that the one before it leaves, failed or
not. -/
def Attempt.callAll {σ α : Type} : List (Attempt σ α) → σ → List (Except Fault α) × σ
  | [], s => ([], s)
  | call :: rest, s =>
    let (answer, s) := call s
    let (answers, s) := callAll rest s
    (answer :: answers, s)

namespace Text

theorem stripBy_eq_nil_iff {p : Char → Bool} {text : List Char} :
    stripBy p text = [] ↔ text.all p = true := by
  rw [stripBy, List.reverse_eq_nil_iff, List.dropWhile_eq_nil_iff, List.all_eq_true]
  constructor
  · intro h c hc
    rw [← List.takeWhile_append_dropWhile (p := p) (l := text)] at hc
    rcases List.mem_append.1 hc with hc | hc
    · exact List.mem_takeWhile_imp hc
    · exact h c (List.mem_reverse.2 hc)
  · exact fun h c hc => h c ((List.dropWhile_sublist p).subset (List.mem_reverse.1 hc))

theorem trimmed_eq_empty_iff {text : String} : trimmed text = "" ↔ isAllBlank text = true := by
  rw [trimmed, isAllBlank, trim, ← stripBy_eq_nil_iff, String.ofList_eq_empty_iff]

end Text

/-- The event that an answer makes. -/
def SessionEvent.ofAnswer : Except Fault SessionEvent → SessionEvent
  | .ok event => event
  | .error f => .failed f

namespace Session

variable {γ τ κ : Type} (assistant : Assistant γ τ κ) (user : String)

/-- What a line says: its text without blanks at the ends, in small letters. -/
def word (line : String) : String :=
  (Text.trimmed line).map Char.toLower

/-- Whether a line ends a session. -/
def stops (line : String) : Bool :=
  word line = "quit" || word line = "exit" || word line = "q"

/-- Reads the context of a user and lists it. -/
def readContext : Attempt (DialogueState γ τ κ) SessionEvent := fun s =>
  let (r, contexts) := assistant.contexts.get user s.contexts
  (r.bind fun context => context.listing.map .listing, { s with contexts := contexts })

/-- Clears the context of a user. -/
def clearContext : Attempt (DialogueState γ τ κ) SessionEvent := fun s =>
  let (r, s) := Dialogue.clear assistant user s
  (r.map fun _ => .forgotten, s)

/-- Answers a question of a user. -/
def ask (query : String) : Attempt (DialogueState γ τ κ) SessionEvent := fun s =>
  let (r, s) := Dialogue.answer assistant user query s
  (r.map .reply, s)

/-- What is called for a line. -/
def call (line : String) : Attempt (DialogueState γ τ κ) SessionEvent :=
  if Text.isAllBlank line then fun s => (.ok .nothing, s)
  else if word line = "/context" then readContext assistant user
  else if word line = "/reset" then clearContext assistant user
  else ask assistant user (Text.trimmed line)

/-- What a user is shown of an answer to a line. -/
def shown : Except Fault SessionEvent → String
  | .ok event => event.text
  | .error f => s!"❌ 오류가 발생했습니다: {f.message}\n\n"

theorem text_ofAnswer (answer : Except Fault SessionEvent) :
    (SessionEvent.ofAnswer answer).text = shown answer := by
  cases answer <;> rfl

theorem not_stops_of_blank {line : String} (h : Text.isAllBlank line = true) :
    stops line = false := by
  have hw : word line = "" := by
    rw [word, Text.trimmed_eq_empty_iff.2 h]
    simp
  rw [stops, hw]
  decide

theorem request?_eq (line : String) :
    request? line =
      if Text.isAllBlank line then some .nothing
      else if stops line then none
      else if word line = "/context" then some .showContext
      else if word line = "/reset" then some .forget
      else some (.question (Text.trimmed line)) := by
  have hs : stopWords.contains (word line) = stops line := by
    simp [stopWords, stops, Bool.or_assoc]
  by_cases hb : Text.isAllBlank line = true
  · rw [if_pos hb]
    exact if_pos (Text.trimmed_eq_empty_iff.2 hb)
  · rw [if_neg hb, ← hs]
    exact if_neg (mt Text.trimmed_eq_empty_iff.1 hb)

theorem request?_of_stops {line : String} (h : stops line = true) : request? line = none := by
  have hb : ¬Text.isAllBlank line = true := fun hb => by
    rw [not_stops_of_blank hb] at h
    cases h
  rw [request?_eq, if_neg hb, if_pos h]

section Requests

variable (s : DialogueState γ τ κ)

theorem perform_showContext : perform assistant user .showContext s =
    (.ofAnswer (readContext assistant user s).1, (readContext assistant user s).2) := by
  rcases hg : assistant.contexts.get user s.contexts with ⟨f | context, contexts⟩
  · simp only [perform, readContext, hg]
    rfl
  · rcases hl : context.listing with f | text <;>
      simp only [perform, readContext, hg, Except.bind, hl] <;> rfl

theorem perform_forget : perform assistant user .forget s =
    (.ofAnswer (clearContext assistant user s).1, (clearContext assistant user s).2) := by
  rcases hc : Dialogue.clear assistant user s with ⟨f | _, s'⟩ <;>
    simp only [perform, clearContext, hc] <;> rfl

theorem perform_question (query : String) : perform assistant user (.question query) s =
    (.ofAnswer (ask assistant user query s).1, (ask assistant user query s).2) := by
  rcases ha : Dialogue.answer assistant user query s with ⟨f | text, s'⟩ <;>
    simp only [perform, ask, ha] <;> rfl

/-- A line that does not stop a session comes to what its call answers. -/
theorem perform_request? {line : String} (h : stops line = false) :
    ∃ request, request? line = some request ∧
      perform assistant user request s =
        (.ofAnswer (call assistant user line s).1, (call assistant user line s).2) := by
  rw [request?_eq, h, call]
  -- a call is told by what the line says, a request by its constructor: one case for each
  by_cases hb : Text.isAllBlank line = true
  · rw [if_pos hb, if_pos hb]
    exact ⟨_, rfl, rfl⟩
  rw [if_neg hb, if_neg hb, if_neg (by decide)]
  by_cases hc : word line = "/context"
  · rw [if_pos hc, if_pos hc]
    exact ⟨_, rfl, perform_showContext assistant user s⟩
  rw [if_neg hc, if_neg hc]
  by_cases hr : word line = "/reset"
  · rw [if_pos hr, if_pos hr]
    exact ⟨_, rfl, perform_forget assistant user s⟩
  · rw [if_neg hr, if_neg hr]
    exact ⟨_, rfl, perform_question assistant user s (Text.trimmed line)⟩

end Requests

theorem run_of_stops {line : String} (h : stops line = true) (later : List String)
    (s : DialogueState γ τ κ) : run assistant user (line :: later) s = ([], true, s) := by
  rw [run, request?_of_stops h]

theorem run_cons {line : String} (h : stops line = false) (later : List String)
    (s : DialogueState γ τ κ) :
    run assistant user (line :: later) s =
      let called := call assistant user line s
      let rest := run assistant user later called.2
      (.ofAnswer called.1 :: rest.1, rest.2) := by
  obtain ⟨request, hr, hp⟩ := perform_request? assistant user s h
  rw [run, hr]
  simp only [hp]

/-- Lines of which none stops a session hand the state that they leave to the lines after them. -/
theorem run_append {before : List String} (h : ∀ line ∈ before, stops line = false)
    (later : List String) (s : DialogueState γ τ κ) :
    run assistant user (before ++ later) s =
      let first := run assistant user before s
      let rest := run assistant user later first.2.2
      (first.1 ++ rest.1, rest.2) := by
  induction before generalizing s with
  | nil => rfl
  | cons line rest ih =>
    have hline := h line List.mem_cons_self
    have hrest := ih fun line hl => h line (List.mem_cons_of_mem _ hl)
    rw [List.cons_append, run_cons assistant user hline, run_cons assistant user hline]
    dsimp only
    rw [hrest]
    rfl

theorem run_eq_calls (lines : List String) (s : DialogueState γ τ κ) :
    let calls := (lines.takeWhile fun line => !stops line).map (call assistant user)
    run assistant user lines s =
      ((Attempt.callAll calls s).1.map .ofAnswer, lines.any stops,
        (Attempt.callAll calls s).2) := by
  induction lines generalizing s with
  | nil => rfl
  | cons line rest ih =>
    cases h : stops line with
    | true =>
      rw [run_of_stops assistant user h, List.takeWhile_cons_of_neg (by simp [h]), List.any_cons, h]
      rfl
    | false =>
      rw [run_cons assistant user h, List.takeWhile_cons_of_pos (by simp [h]), List.any_cons, h]
      dsimp only
      rw [ih]
      rfl

/-- A session answers the lines before the first that stops it as their calls answer when they are
made in order, and leaves what these leave. It shows what they answer, and the error of each that
fails. The lines after one that fails are a session of their own, in the state that the failed call
leaves. -/
theorem run_calls (lines : List String) (s : DialogueState γ τ κ) :
    let calls := (lines.takeWhile fun line => !stops line).map (call assistant user)
    let answers := (Attempt.callAll calls s).1
    let session := run assistant user lines s
    session = (answers.map .ofAnswer, lines.any stops, (Attempt.callAll calls s).2) ∧
    transcript session.1 session.2.1 =
      String.join (answers.map fun answer => prompt ++ shown answer) ++ prompt ++
        farewell (lines.any stops) ∧
    ∀ (before : List String) (line : String) (later : List String) (f : Fault)
      (after : DialogueState γ τ κ),
      lines = before ++ line :: later → (∀ l ∈ before, stops l = false) → stops line = false →
      call assistant user line (run assistant user before s).2.2 = (.error f, after) →
        let rest := run assistant user later after
        session = ((run assistant user before s).1 ++ .failed f :: rest.1, rest.2) := by
  intro calls answers session
  have hrun : session =
      (answers.map .ofAnswer, lines.any stops, (Attempt.callAll calls s).2) :=
    run_eq_calls assistant user lines s
  refine ⟨hrun, ?_, ?_⟩
  · rw [hrun, transcript, List.map_map]
    simp only [Function.comp_def, text_ofAnswer]
  · rintro before line later f after rfl hb hl hf rest
    have hsession : session = _ := run_append assistant user hb (line :: later) s
    rw [hsession]
    dsimp only
    rw [run_cons assistant user hl, hf]
    rfl

/-- A session whose context cannot be read until it is cleared. -/
theorem run_calls_unreadable :
    let store : KeyedStore := ⟨KeyedStore.defaultKeyStart, .null⟩
    let systems : SqlSystems := .ofRegistered .empty none true .empty
    let assistant : Assistant Unit SqlConnections KeyValues :=
      ⟨LocalGraph.empty.source, systems.source, store.source, .standard, 5,
        Dialogue.defaultThreshold⟩
    let texts : OrderedMap String String := .ofEntries [(store.key "ann", "[7]")]
    let start : DialogueState Unit SqlConnections KeyValues :=
      ⟨(), .fresh, ⟨texts, []⟩, .ofReplies []⟩
    let after := { start with contexts := start.contexts.send (.get (store.key "ann")) }
    let f : Fault := .missingOperation "'list' object has no attribute 'items'"
    let before := ["  "]
    let later := ["/reset", "/context", " Quit ", "and mine?"]
    (∀ line ∈ before, stops line = false) ∧ stops "/Context" = false ∧
    call assistant "ann" "/Context" (run assistant "ann" before start).2.2 = (.error f, after) ∧
    let rest := run assistant "ann" later after
    run assistant "ann" (before ++ "/Context" :: later) start =
      ((run assistant "ann" before start).1 ++ .failed f :: rest.1, rest.2) := by
  intro store systems assistant texts start after f before later
  have hb : ∀ line ∈ before, stops line = false := by decide +kernel
  have hl : stops "/Context" = false := by decide +kernel
  have hget : assistant.contexts.get "ann" start.contexts = (.error f, after.contexts) := by
    have ht : texts.get? (store.key "ann") = some "[7]" := by decide +kernel
    have hr : (JsonText.read "[7]" >>= Context.ofDocument) = .error f := by decide +kernel
    change store.get "ann" start.contexts = _
    simp only [KeyedStore.get, start, ht, hr, after]
  have hcall : call assistant "ann" "/Context" = readContext assistant "ann" := by
    have hw : word "/Context" = "/context" := by decide +kernel
    have hn : ¬Text.isAllBlank "/Context" = true := by decide +kernel
    rw [call, if_neg hn, if_pos hw]
  have hf : call assistant "ann" "/Context" (run assistant "ann" before start).2.2 =
      (.error f, after) := by
    have hs : (run assistant "ann" before start).2.2 = start := rfl
    rw [hcall, hs, readContext]
    simp only [hget]
    rfl
  exact ⟨hb, hl, hf,
    (run_calls assistant "ann" _ start).2.2 before "/Context" later f after rfl hb hl hf⟩

end Session

end Playbook
