import Playbook.Graph.Source
import Playbook.OrderedMap
import Playbook.Text.Search
/-!
# Files and folders

A disk holds folders and text files with the time of their last change. Paths are texts; those that
do not start at the root, or start with the name of the working folder, lie in the working folder.
-/

namespace Playbook

structure StoredFile (θ : Type) where
  text : String
  modified : θ

/-- The names of the folders on the way to a file or folder, and its own. -/
abbrev Location := List String

structure Disk (θ : Type) where
  /-- The name of the working folder. -/
  home : String
  folders : List Location
  files : OrderedMap Location (StoredFile θ)
  now : θ

namespace Disk

variable {θ : Type}

/-- Follows the parts of a path from a folder. -/
def follow (start : Location) (parts : List String) : Location :=
  parts.foldl (fun location part =>
    if part = "" || part = "." then location
    else if part = ".." then location.dropLast
    else location ++ [part]) start

def parts (path : String) : List String :=
  (Text.pieces '/' path.toList).map String.ofList

/-- The folders in which the working folder lies, and its name. -/
def homeLocation (disk : Disk θ) : Location :=
  follow [] (parts disk.home)

/-- Where a path leads. -/
def locate (disk : Disk θ) (path : String) : Location :=
  if path.startsWith "/" || (parts path).head? = some disk.home then follow [] (parts path)
  else follow disk.homeLocation (parts path)

/-- The path of a name in a folder. -/
def join (folder name : String) : String :=
  if name.startsWith "/" || folder = "" then name
  else if folder.endsWith "/" then folder ++ name
  else s!"{folder}/{name}"

/-- Creates the folder at a place and those on the way to it. -/
def makeFolderAt (disk : Disk θ) (location : Location) : Disk θ :=
  let wanted := (List.range (location.length + 1)).map fun n => location.take n
  { disk with folders := disk.folders ++ wanted.filter fun l => !disk.folders.contains l }

/-- Creates a folder and those on the way to it. -/
def makeFolder (disk : Disk θ) (path : String) : Disk θ :=
  disk.makeFolderAt (disk.locate path)

def file? (disk : Disk θ) (path : String) : Option (StoredFile θ) :=
  disk.files.get? (disk.locate path)

def isFolder (disk : Disk θ) (path : String) : Bool :=
  disk.folders.contains (disk.locate path)

/-- Whether there is a file or folder at a path. -/
def isThere (disk : Disk θ) (path : String) : Bool :=
  (disk.file? path).isSome || disk.isFolder path

/-- The text of a file. -/
def read (disk : Disk θ) (path : String) : Except Fault String :=
  match disk.file? path with
  | some file => .ok file.text
  | none => .error (.missingFile path)

/-- Replaces the text of a file, or creates it if its folder is there. -/
def write (disk : Disk θ) (path text : String) : Except Fault (Disk θ) :=
  let location := disk.locate path
  if disk.folders.contains location.dropLast then
    .ok { disk with files := disk.files.insert location ⟨text, disk.now⟩ }
  else .error (.missingFile path)

/-- Puts a file at a path, with the folders on the way to it. -/
def place (disk : Disk θ) (path text : String) : Disk θ :=
  let location := disk.locate path
  let disk := disk.makeFolderAt location.dropLast
  { disk with files := disk.files.insert location ⟨text, disk.now⟩ }

def remove (disk : Disk θ) (path : String) : Disk θ :=
  { disk with files := disk.files.erase (disk.locate path) }

/-- Sets the time of the last change of a file. -/
def setTime (disk : Disk θ) (path : String) (time : θ) : Except Fault (Disk θ) :=
  match disk.file? path with
  | some file =>
    .ok { disk with files := disk.files.insert (disk.locate path) { file with modified := time } }
  | none => .error (.missingFile path)

/-- The names of those of some places that are in a folder, in order. -/
def namesIn (disk : Disk θ) (folder : String) (places : List Location) : List String :=
  let location := disk.locate folder
  let inner := places.filter fun l => l.dropLast = location && l.length = location.length + 1
  (inner.filterMap List.getLast?).mergeSort

/-- The names of the files in a folder, in order. -/
def names (disk : Disk θ) (folder : String) : List String :=
  disk.namesIn folder disk.files.keys

/-- The names of the files and folders in a folder, in order. -/
def inside (disk : Disk θ) (folder : String) : List String :=
  disk.namesIn folder (disk.folders ++ disk.files.keys)

/-- A disk with nothing but its working folder. -/
def blank (home : String) (now : θ) : Disk θ :=
  makeFolder ⟨home, [[]], .empty, now⟩ home

end Disk

end Playbook
