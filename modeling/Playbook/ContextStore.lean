import Playbook.Context
import Playbook.Graph.Source
/-!
# Where contexts are kept between turns

A store keeps a context for each user. Reading the context of a user who has none creates an empty
one.
-/

namespace Playbook

structure ContextSource (κ : Type) where
  get : String → Attempt κ Context
  put : String → Context → Attempt κ Unit
  clear : String → Attempt κ Unit

namespace ContextSource

variable {κ : Type}

/-- Keeps the context that data describe; data that make no context change nothing. -/
def putData (store : ContextSource κ) (user : String) (data : OrderedMap String Datum) :
    Attempt κ Unit := fun s =>
  match Context.ofData data with
  | .ok context => store.put user context s
  | .error f => (.error f, s)

end ContextSource

/-- The context that a document describes: a mapping of values, or nothing if it is falsy. -/
def Context.ofDocument (document : Datum) : Except Fault Context :=
  if !document.isTruthy then .ok .empty
  else
    match document with
    | .dict fields => Context.ofData (.ofEntries fields)
    | d => .error (.missingOperation s!"'{d.typeName}' object has no attribute 'items'")

end Playbook
