import Playbook.ContextStore
/-!
# Contexts in memory

A context lives for a lifetime after it was put or created; reading it does not prolong its life.
Without a lifetime it lives on. Times may be of any type with addition and order.
-/

namespace Playbook

structure MemoryStore (θ : Type) where
  lifetime : Option θ
  contexts : OrderedMap String Context
  /-- When the context of a user ends, if it does. -/
  deadlines : OrderedMap String θ
  now : θ

namespace MemoryStore

variable {θ : Type}

def fresh (lifetime : Option θ) (now : θ) : MemoryStore θ := ⟨lifetime, .empty, .empty, now⟩

section

variable [LE θ] [DecidableLE θ]

/-- Whether the deadline of a user has come. -/
def isExpired (store : MemoryStore θ) (user : String) : Bool :=
  match store.deadlines.get? user with
  | some deadline => decide (deadline ≤ store.now)
  | none => false

end

/-- Forgets a user. -/
def clear (store : MemoryStore θ) (user : String) : MemoryStore θ :=
  { store with
    contexts := store.contexts.erase user
    deadlines := store.deadlines.erase user }

section

variable [Add θ]

/-- Keeps a context from now on. -/
def put (store : MemoryStore θ) (user : String) (context : Context) : MemoryStore θ :=
  { store with
    contexts := store.contexts.insert user context
    deadlines :=
      match store.lifetime with
      | some lifetime => store.deadlines.insert user (store.now + lifetime)
      | none => store.deadlines }

variable [LE θ] [DecidableLE θ]

/-- The context of a user. A context that has ended is forgotten, and one that is not there is
created empty. -/
def get (store : MemoryStore θ) (user : String) : Context × MemoryStore θ :=
  let store := if store.isExpired user then store.clear user else store
  match store.contexts.get? user with
  | some context => (context, store)
  | none => (.empty, store.put user .empty)

end

section

variable [LE θ] [DecidableLE θ]

/-- Forgets the contexts that have ended, and counts them. -/
def purge (store : MemoryStore θ) : Nat × MemoryStore θ :=
  let ended := store.contexts.keys.filter store.isExpired
  (ended.length, ended.foldl clear store)

/-- The users whose contexts have not ended. -/
def users (store : MemoryStore θ) : List String :=
  store.contexts.keys.filter fun user => !store.isExpired user

end

def source [Add θ] [LE θ] [DecidableLE θ] : ContextSource (MemoryStore θ) where
  get user s :=
    let (context, s) := s.get user
    (.ok context, s)
  put user context s := (.ok (), s.put user context)
  clear user s := (.ok (), s.clear user)

end MemoryStore

end Playbook
