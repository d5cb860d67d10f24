import Playbook.Context
import Playbook.Number.FloatText
import Playbook.Text.Search
/-!
# Intents

What a user wants: the name of an intent, the entities that the question mentions, and how certain
the recogniser is. An answer of the recogniser is read leniently: what is missing or of the wrong
kind counts as unknown, as no entity, or as no confidence.
-/

namespace Playbook

structure Intent where
  name : String
  entities : Context
  confidence : Binary64
deriving DecidableEq

namespace Intent

/-- The name of an intent that was not recognised. -/
def unknownName : String := "unknown"

/-- Nothing recognised. -/
def unknown : Intent := ⟨unknownName, .empty, .signedZero false⟩

def isUnknown (intent : Intent) : Bool :=
  intent.name = "" || intent.name = unknownName

/-- Whether the user has to be asked again: the intent is unknown or below a threshold. -/
def needsClarification (intent : Intent) (threshold : Binary64) : Bool :=
  intent.isUnknown || intent.confidence.lt threshold

/-- The number one. -/
def certain : Binary64 := .ofInt 1

/-- A confidence brought between zero and one. What has no order with these stays as it is. -/
def clamp (x : Binary64) : Binary64 :=
  let low := if x.lt (.signedZero false) then .signedZero false else x
  if certain.lt low then certain else low

/-- The entities that are context values; the others are left out. -/
def scalars : List (String × Datum) → List (String × Value)
  | [] => []
  | (name, d) :: rest =>
    match d.toValue with
    | .ok v => (name, v) :: scalars rest
    | .error _ => scalars rest

/-- The entities of an answer, which are a mapping if there are any. -/
def readEntities (d : Datum) : Except Fault Context :=
  if !d.isTruthy then .ok .empty
  else
    match d with
    | .dict fields => .ok (.ofEntries (scalars fields))
    | d => .error (.missingOperation s!"'{d.typeName}' object has no attribute 'items'")

/-- The confidence of an answer: a number, or a text that writes one; zero for anything else. -/
def readConfidence : Option Datum → Except Fault Binary64
  | none => .ok (.signedZero false)
  | some (.plain (.bool b)) => .ok (.ofInt (if b then 1 else 0))
  | some (.plain (.int i)) =>
    match Binary64.ofInt? i with
    | some x => .ok x
    | none => .error (.overflow "int too large to convert to float")
  | some (.plain (.float x)) => .ok x
  | some (.plain (.text s)) => .ok ((Text.readFloat? s).getD (.signedZero false))
  | some _ => .ok (.signedZero false)

/-- The intent that the fields of an answer state. -/
def ofFields (fields : Record) : Except Fault Intent := do
  let entities ← readEntities (fields.column "entities")
  let confidence ← readConfidence (fields.get? "confidence")
  let name := (fields.column "intent").orElse (.text unknownName)
  return ⟨name.asText, entities, clamp confidence⟩

/-- The part of a text from its first opening brace to its last closing one, if that comes later;
else the text. -/
def cutObject (text : String) : String :=
  let start := text.toList.dropWhile (· ≠ '{')
  let object := Text.throughLast (· = '}') start
  if object.isEmpty then text else String.ofList object

end Intent

end Playbook
