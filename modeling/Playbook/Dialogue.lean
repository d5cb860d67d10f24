import Playbook.ContextStore
import Playbook.Intent.Recogniser
import Playbook.Traversal
/-!
# Turns of a dialogue

A turn recognises the intent of a question, adds its entities to the context of the user, walks the
playbook of the intent, and keeps the context. The context is kept however the walk ends.
-/

namespace Playbook

/-- What a dialogue is answered with. -/
structure Assistant (γ τ κ : Type) where
  graph : GraphSource γ
  lookup : LookupSource τ
  contexts : ContextSource κ
  recogniser : Recogniser
  /-- The most steps of a walk. -/
  limit : Nat
  /-- The confidence below which the user is asked again. -/
  threshold : Binary64

/-- The states of the playbook, the data systems, the context store and the language model. -/
structure DialogueState (γ τ κ : Type) where
  graph : γ
  lookup : τ
  contexts : κ
  chat : Chat

namespace Dialogue

variable {γ τ κ : Type}

def clarifyMessage : String :=
  "抱歉，我不确定您的具体问题。请问您是想查询账户余额，处理转账问题，还是激活银行卡？"

def unsupportedMessage (intent : String) : String :=
  s!"抱歉，我们目前无法处理 {intent} 类型的问题。"

def defaultThreshold : Binary64 := .ofDecimal false 6 (-1)

/-- What the recogniser is asked: the question with the user who has it. -/
def compositeQuery (user query : String) : String :=
  s!"客户号为:{user}的客户有问题为：{query}"

/-- Keeps the context of a user and answers with a message. -/
def keep (assistant : Assistant γ τ κ) (user : String) (context : Context) (message : String) :
    Attempt (DialogueState γ τ κ) String := fun s =>
  match assistant.contexts.put user context s.contexts with
  | (.ok (), contexts) => (.ok message, { s with contexts := contexts })
  | (.error f, contexts) => (.error f, { s with contexts := contexts })

/-- Walks a problem and keeps the context it ends with. -/
def walk (assistant : Assistant γ τ κ) (user problem : String) (context : Context) :
    Attempt (DialogueState γ τ κ) String := fun s =>
  let (ending, progress, (graph, lookup)) :=
    Traversal.start ⟨assistant.graph, assistant.lookup⟩ assistant.limit (some problem) context
      (s.graph, s.lookup)
  let s := { s with graph := graph, lookup := lookup }
  keep assistant user progress.known.stored (Outcome.ended ending progress).message s

/-- Answers an intent in a context. -/
def respond (assistant : Assistant γ τ κ) (user : String) (intent : Intent) (context : Context) :
    Attempt (DialogueState γ τ κ) String := fun s =>
  if intent.needsClarification assistant.threshold then
    keep assistant user context clarifyMessage s
  else
    match assistant.graph.problemFor (some intent.name) s.graph with
    | (.ok problem, graph) => walk assistant user problem context { s with graph := graph }
    | (.error f, graph) =>
      let s := { s with graph := graph }
      match f.kind with
      | .notFound => keep assistant user context (unsupportedMessage intent.name) s
      | .storageFailed => keep assistant user context Stop.systemErrorMessage s
      | _ => (.error f, s)

/-- Answers a question of a user. -/
def answer (assistant : Assistant γ τ κ) (user query : String) :
    Attempt (DialogueState γ τ κ) String := fun s =>
  match assistant.contexts.get user s.contexts with
  | (.error f, contexts) => (.error f, { s with contexts := contexts })
  | (.ok context, contexts) =>
    let (intent, chat) := assistant.recogniser.recognise (compositeQuery user query) s.chat
    let context := context.insertAll intent.entities.entries
    respond assistant user intent context { s with contexts := contexts, chat := chat }

/-- Forgets the context of a user. -/
def clear (assistant : Assistant γ τ κ) (user : String) :
    Attempt (DialogueState γ τ κ) Unit := fun s =>
  match assistant.contexts.clear user s.contexts with
  | (r, contexts) => (r, { s with contexts := contexts })

end Dialogue

end Playbook
