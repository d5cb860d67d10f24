import Playbook.Construction.Seed
import Playbook.ContextStore.Choice
import Playbook.Database
import Playbook.Graph.Remote
import Playbook.Settings
/-!
# What a service meets

Everything outside of a service as one state: the environment, the graph database, the data systems,
the context stores with the disk they may use, the language model, and the relational databases that
are files. The clock of the disk is the clock of all of them.
-/

namespace Playbook

structure World where
  environment : Environment
  database : Database
  lookup : SqlConnections
  contexts : ContextState
  chat : Chat
  /-- Whether the language model lists its models when it is asked to. -/
  listsModels : Bool
  /-- The data systems that can be reached, by address. -/
  reachable : OrderedMap String SqlTable
  /-- The relational databases that are files, by place. -/
  tables : OrderedMap Location SeedTables
  /-- How often the graph database was let go. -/
  closings : Nat

namespace World

def disk (world : World) : Disk Binary64 := world.contexts.disk

def withDisk (world : World) (disk : Disk Binary64) : World :=
  { world with contexts := { world.contexts with disk := disk } }

/-- A disk with files in its working folder. -/
def diskOf (home : String) (files : List (String × String)) : Disk Binary64 :=
  files.foldl (fun disk file => disk.place file.1 file.2) (.blank home (.ofInt 0))

/-- A world in which nothing can be reached, with text files and relational databases in a working
folder. -/
def offline (home : String) (environment : Environment) (files : OrderedMap String String)
    (databases : OrderedMap String SeedTables) : World :=
  let disk := diskOf home (files.entries ++ databases.keys.map fun name => (name, ""))
  { environment := environment
    database := .ofBackend (.script []) false
    lookup := .fresh
    contexts := ⟨.fresh none disk.now, disk, .fresh⟩
    chat := .ofReplies []
    listsModels := false
    reachable := .empty
    tables := .ofEntries (databases.entries.map fun e => (disk.locate e.1, e.2))
    closings := 0 }

/-- The state in which a reading of the graph starts: nothing is kept of earlier answers. -/
def graph (world : World) : RemoteState Binary64 (Database × Binary64) :=
  ⟨(world.database, world.disk.now), .empty⟩

/-- The state in which a dialogue starts. -/
def dialogue (world : World) :
    DialogueState (RemoteState Binary64 (Database × Binary64)) SqlConnections ContextState :=
  ⟨world.graph, world.lookup, world.contexts, world.chat⟩

/-- The world after a dialogue. -/
def after (world : World)
    (s : DialogueState (RemoteState Binary64 (Database × Binary64)) SqlConnections ContextState) :
    World :=
  { world with
    database := s.graph.outside.1
    lookup := s.lookup
    contexts := s.contexts
    chat := s.chat }

end World

end Playbook
