import Playbook.ContextStore.File
import Playbook.ContextStore.Keyed
import Playbook.ContextStore.Memory
/-!
# Choosing a context store

A configuration names where contexts are kept and for how long.
-/

namespace Playbook

/-- A number of seconds, if a value is one. -/
def Value.seconds? : Value → Option Binary64
  | .int i => some (.ofInt i)
  | .float x => some x
  | .bool b => some (.ofInt (if b then 1 else 0))
  | _ => none

/-- A chosen store. The lifetime is kept as it was configured. -/
inductive ContextStoreChoice where
  | memory (lifetime : Value)
  | file (folder : String) (lifetime : Value)
  | keyed (address : String) (store : KeyedStore)
deriving DecidableEq

namespace ContextStoreChoice

def defaultFolder : String := "./contexts"

/-- A lifetime in whole seconds, toward zero; none if it is falsy. -/
def wholeSeconds (lifetime : Value) : Except Fault Value :=
  if lifetime.isTruthy then lifetime.whole.map .int else .ok .null

/-- The store that a configuration names. A file store needs no folder to be named; a key-value
store needs an address. -/
def make (backend : String) (lifetime : Value) (folder address : Option String) :
    Except Fault ContextStoreChoice :=
  if backend = "memory" then .ok (.memory lifetime)
  else if backend = "file" then
    let named := folder.getD ""
    .ok (.file (if named = "" then defaultFolder else named) lifetime)
  else if backend = "redis" then
    match address.getD "" with
    | "" => .error .remoteStoreWithoutAddress
    | address => do
      let seconds ← wholeSeconds lifetime
      return .keyed address ⟨KeyedStore.defaultKeyStart, seconds⟩
  else .error (.unknownBackend backend)

/-- The lifetime in effect. -/
def lifetime : ContextStoreChoice → Value
  | memory lifetime | file _ lifetime => lifetime
  | keyed _ store => store.lifetime

/-- What the keys of a key-value store start with. -/
def keyStart? : ContextStoreChoice → Option String
  | keyed _ store => some store.keyStart
  | _ => none

end ContextStoreChoice

/-- The states of the stores of each kind; only that of the chosen one is in use. -/
structure ContextState where
  memory : MemoryStore Binary64
  disk : Disk Binary64
  values : KeyValues

namespace ContextSource

/-- A store whose state is a part of a larger one. -/
def within {κ σ : Type} (source : ContextSource κ) (part : σ → κ) (put : κ → σ → σ) :
    ContextSource σ where
  get user s := (source.get user (part s)).map id (put · s)
  put user context s := (source.put user context (part s)).map id (put · s)
  clear user s := (source.clear user (part s)).map id (put · s)

end ContextSource

namespace ContextStoreChoice

/-- The state in which a chosen store starts: memory is empty, and the folder of files is there. -/
def start (choice : ContextStoreChoice) (s : ContextState) : ContextState :=
  match choice with
  | memory lifetime => { s with memory := .fresh lifetime.seconds? s.memory.now }
  | file folder _ => { s with disk := s.disk.makeFolder folder }
  | keyed .. => s

/-- A chosen store. -/
def source : ContextStoreChoice → ContextSource ContextState
  | memory _ => MemoryStore.source.within ContextState.memory fun m s => { s with memory := m }
  | file folder lifetime =>
    (FileStore.source ⟨folder, lifetime.seconds?⟩).within ContextState.disk fun d s =>
      { s with disk := d }
  | keyed _ store => store.source.within ContextState.values fun v s => { s with values := v }

end ContextStoreChoice

end Playbook
