import Playbook.ContextStore
import Playbook.Disk
import Playbook.JsonText.Reader
import Playbook.JsonText.Writer
/-!
# Contexts in files

A file for each user holds the context as JSON text. A context lives for a lifetime after its file
was last changed. A write empties the file first, so that a context which cannot be written leaves
an empty file.
-/

namespace Playbook

structure FileStore (θ : Type) where
  folder : String
  lifetime : Option θ

namespace FileStore

variable {θ : Type}

/-- The path of the file of a user. -/
def path (store : FileStore θ) (user : String) : String :=
  Disk.join store.folder (user ++ ".json")

/-- Empties the file of a user and writes a context into it. -/
def put (store : FileStore θ) (user : String) (context : Context) : Attempt (Disk θ) Unit :=
  fun disk =>
    match disk.write (store.path user) "" with
    | .error f => (.error f, disk)
    | .ok emptied =>
      match JsonText.writeLines context with
      | .error f => (.error f, emptied)
      | .ok text =>
        match disk.write (store.path user) text with
        | .error f => (.error f, emptied)
        | .ok disk => (.ok (), disk)

def clear (store : FileStore θ) (user : String) (disk : Disk θ) : Disk θ :=
  disk.remove (store.path user)

section

variable [Sub θ] [LE θ] [DecidableLE θ]

/-- Whether a file has outlived the lifetime. -/
def isExpired (store : FileStore θ) (disk : Disk θ) (file : StoredFile θ) : Bool :=
  match store.lifetime with
  | some lifetime => decide (lifetime ≤ disk.now - file.modified)
  | none => false

/-- The context of a user. A file that has outlived the lifetime is removed, and one that is not
there is created with an empty context. -/
def get (store : FileStore θ) (user : String) : Attempt (Disk θ) Context := fun disk =>
  let path := store.path user
  let disk := if (disk.file? path).any (store.isExpired disk) then disk.remove path else disk
  match disk.file? path with
  | none =>
    match store.put user .empty disk with
    | (.ok (), disk) => (.ok .empty, disk)
    | (.error f, disk) => (.error f, disk)
  | some file => (JsonText.read file.text >>= Context.ofDocument, disk)

def source (store : FileStore θ) : ContextSource (Disk θ) where
  get := store.get
  put := store.put
  clear user disk := (.ok (), store.clear user disk)

end

/-- The users with a file, in the order of the names of the files. -/
def users (store : FileStore θ) (disk : Disk θ) : List String :=
  let ending := ".json".toList
  (disk.names store.folder).filterMap fun name =>
    if ending.isSuffixOf name.toList then
      some (String.ofList (name.toList.take (name.length - ending.length)))
    else none

end FileStore

end Playbook
