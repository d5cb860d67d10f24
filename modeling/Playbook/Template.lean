import Playbook.Context
/-!
# Templates

A template is text with variables between braces. A variable starts at the first brace that has a
closing one after at least one other character; any other brace is text. Rendering puts the text of
each value in the place of its variable and never looks into what it has put there.
-/

namespace Playbook

/-- A character of the text, or a variable. -/
inductive Piece where
  | char (c : Char)
  | variable (name : List Char)
deriving DecidableEq

namespace Template

/-- The name that stands at the start of a text before a closing brace, if it is not empty. -/
def nameBefore (text : List Char) : Option (List Char) :=
  let name := text.takeWhile (· ≠ '}')
  if name.isEmpty || name.length = text.length then none else some name

/-- The pieces of a template, after dropping the first `skip` characters, which belong to the
variable just found. -/
def scan : Nat → List Char → List Piece
  | _, [] => []
  | skip + 1, _ :: rest => scan skip rest
  | 0, c :: rest =>
    if c = '{' then
      match nameBefore rest with
      | some name => .variable name :: scan (name.length + 1) rest
      | none => .char c :: scan 0 rest
    else .char c :: scan 0 rest

/-- The pieces of a template, from the left. -/
def pieces (template : String) : List Piece :=
  scan 0 template.toList

/-- The names of the variables of a template, in order. -/
def names (template : String) : List String :=
  (pieces template).filterMap fun
    | .char _ => none
    | .variable name => some (String.ofList name)

/-- The text of a piece. A variable needs a value other than null. -/
def renderPiece (context : Context) : Piece → Except Fault (List Char)
  | .char c => .ok [c]
  | .variable name =>
    match context.valueOf (String.ofList name) with
    | .null => .error (.missingVariable (String.ofList name))
    | v => v.format.map String.toList

/-- The text of pieces, one after the other. -/
def renderPieces (context : Context) : List Piece → Except Fault (List Char)
  | [] => .ok []
  | piece :: rest => do
    let first ← renderPiece context piece
    let others ← renderPieces context rest
    return first ++ others

/-- The text of a template in a context. -/
def render (template : String) (context : Context) : Except Fault String :=
  (renderPieces context (pieces template)).map String.ofList

/-- The text of a template that may be unset; an unset one renders to nothing. -/
def render? (template : Option String) (context : Context) : Except Fault String :=
  match template with
  | some t => render t context
  | none => .ok ""

end Template

end Playbook
