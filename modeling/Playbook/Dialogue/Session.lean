import Playbook.Dialogue
/-!
# Sessions

A session takes the lines of a user one after the other. A line is a command, in letters of any
case, or a question; a blank line does nothing. A fault is shown and the session goes on. It ends at
a line that stops it, or after the last line.
-/

namespace Playbook

/-- What a line asks for. -/
inductive SessionRequest where
  | nothing
  | showContext
  | forget
  | question (text : String)
deriving DecidableEq

/-- What comes of a line. -/
inductive SessionEvent where
  | nothing
  | listing (text : String)
  | forgotten
  | reply (text : String)
  | failed (fault : Fault)
deriving DecidableEq

namespace Session

def stopWords : List String := ["quit", "exit", "q"]

/-- What a line asks for, unless it stops the session. -/
def request? (line : String) : Option SessionRequest :=
  let text := Text.trimmed line
  let word := text.map Char.toLower
  if text = "" then some .nothing
  else if stopWords.contains word then none
  else if word = "/context" then some .showContext
  else if word = "/reset" then some .forget
  else some (.question text)

/-- The lines of a text; what follows the last line feed is a line unless it is empty. -/
def lines (text : String) : List String :=
  let pieces := Text.pieces '\n' text.toList
  let whole := if pieces.getLast? = some [] then pieces.dropLast else pieces
  whole.map String.ofList

variable {γ τ κ : Type}

/-- Does what a user asks for. A context that cannot be listed has been read all the same. -/
def perform (assistant : Assistant γ τ κ) (user : String) :
    SessionRequest → DialogueState γ τ κ → SessionEvent × DialogueState γ τ κ
  | .nothing, s => (.nothing, s)
  | .showContext, s =>
    match assistant.contexts.get user s.contexts with
    | (.ok context, contexts) =>
      let s := { s with contexts := contexts }
      match context.listing with
      | .ok text => (.listing text, s)
      | .error f => (.failed f, s)
    | (.error f, contexts) => (.failed f, { s with contexts := contexts })
  | .forget, s =>
    match Dialogue.clear assistant user s with
    | (.ok (), s) => (.forgotten, s)
    | (.error f, s) => (.failed f, s)
  | .question text, s =>
    match Dialogue.answer assistant user text s with
    | (.ok response, s) => (.reply response, s)
    | (.error f, s) => (.failed f, s)

/-- Takes lines until one stops the session. Answers with what comes of each line before that, and
whether a line stopped the session. -/
def run (assistant : Assistant γ τ κ) (user : String) :
    List String → DialogueState γ τ κ → List SessionEvent × Bool × DialogueState γ τ κ
  | [], s => ([], false, s)
  | line :: rest, s =>
    match request? line with
    | none => ([], true, s)
    | some request =>
      let (event, s) := perform assistant user request s
      let (events, stopped, s) := run assistant user rest s
      (event :: events, stopped, s)

end Session

/-- What a user is shown of an event. -/
def SessionEvent.text : SessionEvent → String
  | nothing => ""
  | listing text => s!"\n📊 Context: {text}\n\n"
  | forgotten => "🔄 context 가 초기화되었습니다.\n\n"
  | reply text => s!"🤖 Bot: {text}\n\n"
  | failed f => s!"❌ 오류가 발생했습니다: {f.message}\n\n"

namespace Session

def prompt : String := "👤 You: "

/-- The end of a session; one that no line stopped ends on a line of its own. -/
def farewell (stopped : Bool) : String :=
  if stopped then "👋 종료합니다.\n" else "\n👋 종료합니다.\n"

/-- What a user is shown of a session. The user is asked for a line before each event and before
the end. -/
def transcript (events : List SessionEvent) (stopped : Bool) : String :=
  String.join (events.map fun event => prompt ++ event.text) ++ prompt ++ farewell stopped

end Session

end Playbook
