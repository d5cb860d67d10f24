import Playbook.Text.Search
/-!
# References

A reference is resolved against the name of the document it stands in: an absolute one is a name
already, any other replaces the end of the name of the document.
-/

namespace Playbook.Turtle

/-- Whether a reference names a scheme: a colon stands before its first slash. -/
def isAbsolute (reference : List Char) : Bool :=
  (reference.takeWhile (· ≠ '/')).contains ':'

/-- A reference without its fragment, and the fragment with its last number sign. -/
def splitFragment (reference : List Char) : List Char × List Char :=
  if reference.contains '#' then
    let fragment := '#' :: Text.afterLast '#' reference
    (reference.take (reference.length - fragment.length), fragment)
  else (reference, [])

/-- The folder that a folder lies in; the root lies in itself. -/
def parentFolder (folder : List Char) : List Char :=
  let outer := Text.throughLast (· = '/') folder.dropLast
  if outer.isEmpty then folder else outer

/-- Follows a path from a folder: steps up at its start are taken, and a step in place before or
between them is left out. -/
def followPath (folder : List Char) : List Char → List Char
  | '.' :: '/' :: '.' :: '.' :: '/' :: rest => followPath (parentFolder folder) rest
  | '.' :: '.' :: '/' :: rest => followPath (parentFolder folder) rest
  | '.' :: '/' :: rest =>
    if rest = ['.'] then folder
    else if rest = ['.', '.'] then parentFolder folder
    else folder ++ rest
  | path =>
    if path = ['.'] then folder
    else if path = ['.', '.'] then parentFolder folder
    else folder ++ path

/-- A name cut into its scheme with the authority, and its path, which starts with a slash. -/
def splitName (name : List Char) : Option (List Char × List Char × List Char) :=
  let scheme := name.takeWhile (· ≠ ':')
  match name.drop scheme.length with
  | ':' :: '/' :: '/' :: rest =>
    let authority := rest.takeWhile (· ≠ '/')
    let path := rest.drop authority.length
    some (scheme ++ [':'], '/' :: '/' :: authority, if path.isEmpty then ['/'] else path)
  | ':' :: '/' :: rest => some (scheme ++ [':'], [], '/' :: rest)
  | _ => none

/-- The name that a reference stands for in a document. A document whose name has a fragment
resolves none, and one whose name has no path only those that keep the name. -/
def resolve (document reference : List Char) : Option (List Char) :=
  if document.contains '#' then none
  else if isAbsolute reference then some reference
  else if !document.contains ':' then none
  else
    let (path, fragment) := splitFragment reference
    if path.isEmpty then some (document ++ fragment)
    else
      match splitName document with
      | none => none
      | some (scheme, authority, folder) =>
        if ['/', '/'].isPrefixOf reference then some (scheme ++ reference)
        else if ['/'].isPrefixOf reference then some (scheme ++ authority ++ reference)
        else
          let folder := Text.throughLast (· = '/') folder
          some (scheme ++ authority ++ followPath folder path ++ fragment)

end Playbook.Turtle
