import Playbook.Intent
import Playbook.JsonText.Reader
/-!
# Recognising intents

A language model is asked for the intent of a question in one chat request. Whatever goes wrong
with the request or with its answer, the intent is unknown.
-/

namespace Playbook

/-- What a language model answers to a request. -/
inductive ChatReply where
  | content (text : Option String)
  | noChoices
  | timedOut
  | failed (text : String)
deriving DecidableEq

/-- A request to a language model: what the system and what the user states. -/
structure ChatRequest where
  model : String
  system : String
  user : String
  temperature : Value
  timeout : Value
deriving DecidableEq

/-- A language model that answers in turn, and the requests it got. -/
structure Chat where
  replies : List ChatReply
  requests : List ChatRequest
deriving DecidableEq

namespace Chat

def ofReplies (replies : List ChatReply) : Chat := ⟨replies, []⟩

/-- The answer to a request; without any left, the request fails. -/
def send (request : ChatRequest) (chat : Chat) : ChatReply × Chat :=
  match chat.replies with
  | [] => (.failed "no reply left", { chat with requests := chat.requests ++ [request] })
  | reply :: rest => (reply, ⟨rest, chat.requests ++ [request]⟩)

end Chat

/-- How intents are recognised: the model, and the intents and entities it is told about. -/
structure Recogniser where
  model : String
  timeout : Value
  temperature : Value
  intents : OrderedMap String String
  entities : OrderedMap String String

namespace Recogniser

def systemPrompt : String := "你是一个专业的意图识别系统，请严格按照要求的JSON格式输出。"

def defaultModel : String := "gpt-4o-mini"

def defaultTimeout : Binary64 := .ofInt 30

def defaultTemperature : Binary64 := .ofDecimal false 3 (-1)

def defaultIntents : OrderedMap String String := .ofEntries
  [("transfer_limit_issue", "转账限额问题"), ("card_activation_problem", "卡片激活问题"),
    ("balance_inquiry", "余额查询")]

def defaultEntities : OrderedMap String String := .ofEntries
  [("requested_amount", "转账金额"), ("card_id", "卡号"), ("customer_id", "客户ID"),
    ("channel", "渠道(如mobile, web, atm等)")]

def standard : Recogniser where
  model := defaultModel
  timeout := .float defaultTimeout
  temperature := .float defaultTemperature
  intents := defaultIntents
  entities := defaultEntities

/-- A map, or another one if it is empty. -/
def orDefault (m other : OrderedMap String String) : OrderedMap String String :=
  if m.isEmpty then other else m

/-- A numbered line for each intent. -/
def intentLines : Nat → List (String × String) → List String
  | _, [] => []
  | n, (name, description) :: rest =>
    s!"{n.repr}. {name} - {description}" :: intentLines (n + 1) rest

/-- What the model is asked about a question. -/
def prompt (r : Recogniser) (query : String) : String :=
  String.intercalate "\n"
    (["分析以下用户查询，提取意图和相关实体。", "目前支持的意图类型有:"] ++
      [String.intercalate "\n" (intentLines 1 r.intents.entries)] ++
      ["", "请提取所有相关实体，可能包括:"] ++
      [String.intercalate "\n" (r.entities.entries.map fun e => s!"- {e.1}: {e.2}")] ++
      ["其中，客户号customer_id是必须要从问题中提取到的。", "", "以JSON格式输出，格式为:", "\x7b",
        "    \"intent\": \"意图类型\",", "    \"entities\": \x7b", "        \"实体名\": \"实体值\"",
        "    \x7d,", "    \"confidence\": 置信度(0到1之间的浮点数)", "\x7d", "",
        s!"用户查询: {query}"])

def request (r : Recogniser) (query : String) : ChatRequest where
  model := r.model
  system := systemPrompt
  user := r.prompt query
  temperature := r.temperature
  timeout := r.timeout

/-- The intent that a text states. -/
def readContent (text : String) : Except Fault Intent := do
  match ← JsonText.read (Intent.cutObject text) with
  | .dict fields => Intent.ofFields (.ofEntries fields)
  | d => .error (.wrongType s!"mapping expected, not {d.typeName}")

/-- The intent that an answer states; unknown if it states none. -/
def readReply : ChatReply → Intent
  | .content (some text) =>
    if text = "" then .unknown
    else
      match readContent text with
      | .ok intent => intent
      | .error _ => .unknown
  | _ => .unknown

/-- Asks the model for the intent of a question. -/
def recognise (r : Recogniser) (query : String) (chat : Chat) : Intent × Chat :=
  let (reply, chat) := chat.send (r.request query)
  (readReply reply, chat)

end Recogniser

end Playbook
