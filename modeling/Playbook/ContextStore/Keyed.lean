import Playbook.ContextStore
import Playbook.JsonText.Reader
import Playbook.JsonText.Writer
/-!
# Contexts in a key-value store

The context of a user is JSON text under a key of its own. With a lifetime in whole seconds every
write tells the store when to forget it.
-/

namespace Playbook

/-- What was asked of a key-value store. -/
inductive KeyCommand where
  | get (key : String)
  | set (key text : String)
  | setFor (key : String) (seconds : Value) (text : String)
  | delete (key : String)
deriving DecidableEq

/-- The texts in a key-value store, and what was asked of it. -/
structure KeyValues where
  texts : OrderedMap String String
  log : List KeyCommand

namespace KeyValues

def fresh : KeyValues := ⟨.empty, []⟩

/-- Carries a command out. -/
def send (values : KeyValues) (command : KeyCommand) : KeyValues :=
  let texts := match command with
    | .get _ => values.texts
    | .set key text | .setFor key _ text => values.texts.insert key text
    | .delete key => values.texts.erase key
  ⟨texts, values.log ++ [command]⟩

end KeyValues

structure KeyedStore where
  /-- What keys start with. -/
  keyStart : String
  /-- The lifetime in seconds; a falsy one is none. -/
  lifetime : Value
deriving DecidableEq

namespace KeyedStore

def defaultKeyStart : String := "kgflow:context:"

def key (store : KeyedStore) (user : String) : String :=
  store.keyStart ++ user

/-- The command that writes a text. -/
def writing (store : KeyedStore) (user text : String) : KeyCommand :=
  if store.lifetime.isTruthy then .setFor (store.key user) store.lifetime text
  else .set (store.key user) text

def put (store : KeyedStore) (user : String) (context : Context) : Attempt KeyValues Unit :=
  fun values =>
    match JsonText.writeLine context with
    | .error f => (.error f, values)
    | .ok text => (.ok (), values.send (store.writing user text))

def get (store : KeyedStore) (user : String) : Attempt KeyValues Context := fun values =>
  let found := values.texts.get? (store.key user)
  let values := values.send (.get (store.key user))
  match found with
  | none =>
    match store.put user .empty values with
    | (.ok (), values) => (.ok .empty, values)
    | (.error f, values) => (.error f, values)
  | some text => (JsonText.read text >>= Context.ofDocument, values)

def source (store : KeyedStore) : ContextSource KeyValues where
  get := store.get
  put := store.put
  clear user values := (.ok (), values.send (.delete (store.key user)))

end KeyedStore

end Playbook
