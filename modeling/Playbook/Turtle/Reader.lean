import Playbook.OrderedMap
import Playbook.Turtle.Lexeme
import Playbook.Turtle.Triples
/-!
# Documents

A document makes statements about subjects: after a subject come predicates, each with its objects,
and a full stop. Directives give names to what long names start with, and to the document itself. A
document that breaks these rules anywhere states nothing.
-/

namespace Playbook.Turtle

/-- Where a reader is: the rest of the text, the name of the document, the beginnings of names, and
what was stated so far. -/
structure Cursor where
  rest : List Char
  document : List Char
  beginnings : OrderedMap String String
  triples : Triples

abbrev Reading := StateT Cursor Option

/-- What a reading finds, or nothing, in which case it stays where it is. -/
def attempt {α : Type} (reading : Reading α) : Reading (Option α) := fun cursor =>
  match reading cursor with
  | some (a, cursor) => some (some a, cursor)
  | none => some (none, cursor)

/-- Reads a word after blanks. -/
def word {α : Type} (read : List Char → Option (α × List Char)) : Reading α := fun cursor =>
  (read (skipBlanks false cursor.rest)).map fun (a, rest) => (a, { cursor with rest := rest })

/-- The next character after blanks; none at the end. -/
def next : Reading (Option Char) := fun cursor =>
  let rest := skipBlanks false cursor.rest
  some (rest.head?, { cursor with rest := rest })

/-- A mark that has to come next. -/
def mark (c : Char) : Reading Unit :=
  word fun
    | c' :: rest => if c' = c then some ((), rest) else none
    | [] => none

/-- A keyword in these letters. -/
def keyword (p : Char → Bool) (text : String) : Reading Unit :=
  word fun rest => (afterKeyword? p text.toList rest).map fun rest => ((), rest)

/-- A keyword in letters of any case. -/
def anyCaseKeyword (text : String) : Reading Unit :=
  word fun rest =>
    let letters := (rest.take text.length).map Char.toLower
    let after := rest.drop text.length
    if letters = text.toList && after.head?.any (!isNameChar ·) then some ((), after) else none

/-- States something of a subject. -/
def state (subject predicate object : Term) : Reading Unit := fun cursor =>
  some ((), { cursor with triples := cursor.triples.add ⟨subject, predicate, object⟩ })

/-- A name or a reference. A name starts with a beginning that has been given a meaning, or is the
label of a blank term. -/
def readResource : Reading Term := fun cursor =>
  let text := skipBlanks false cursor.rest
  match readName text with
  | some ((first, second), rest) =>
    match cursor.beginnings.get? first with
    | some start => some (.resource (start ++ second), { cursor with rest := rest })
    | none =>
      if first = "_" then some (.blank ("_:" ++ second), { cursor with rest := rest }) else none
  | none =>
    (readReference cursor.document text).map fun (name, rest) =>
      (.resource name, { cursor with rest := rest })

/-- Quoted text, directly followed by its language or its type if it has one. -/
def readLiteral : Reading Term := do
  let text ← word readQuoted
  let language ← fun cursor =>
    match cursor.rest with
    | '@' :: rest =>
      (readLanguage rest).map fun (tag, rest) => (some tag, { cursor with rest := rest })
    | _ => some (none, cursor)
  let typed ← fun cursor =>
    match cursor.rest with
    | '^' :: '^' :: rest => some (true, { cursor with rest := rest })
    | _ => some (false, cursor)
  if typed then return .typed text (← readResource).text
  else return .literal text none language

/-- A truth value. -/
def readTruth : Reading Term := do
  let b ← (keyword endsKeyword "true" *> pure "true") <|>
    (keyword endsKeyword "false" *> pure "false")
  return .typed b (dataType "boolean")

/-- A term without parts. -/
def readSimple : Reading Term :=
  readTruth <|> readResource <|> word readNumber <|> readLiteral

/-- A blank term for the place of the reader, which no other place has. -/
def blankHere : Reading Term := fun cursor =>
  some (.blank s!"{cursor.rest.length.repr}", cursor)

/-- States a list, from a label for its cells, and answers with its first cell. -/
def stateItems (label : String) : List Term → Reading Term
  | [] => return syntaxTerm "nil"
  | item :: rest => do
    let cell := Term.blank s!"{label}.{rest.length.repr}"
    state cell (syntaxTerm "first") item
    let others ← stateItems label rest
    state cell (syntaxTerm "rest") others
    return cell

mutual

/-- A term; one in square brackets is what its properties are stated of, one in round brackets a
list. -/
def readTerm : Nat → Reading Term
  | 0 => failure
  | fuel + 1 => do
    match ← next with
    | some '[' =>
      let subject ← blankHere
      mark '['
      readProperties fuel subject
      mark ']'
      return subject
    | some '(' =>
      let list ← blankHere
      mark '('
      stateItems list.text (← readItems fuel)
    | _ => readSimple

/-- The items of a list up to its closing bracket. -/
def readItems : Nat → Reading (List Term)
  | 0 => failure
  | fuel + 1 => do
    match ← next with
    | some ')' =>
      mark ')'
      return []
    | _ =>
      let item ← readTerm fuel
      return item :: (← readItems fuel)

/-- Predicates with their objects, separated by semicolons, which may be repeated and stand at the
end. -/
def readProperties : Nat → Term → Reading Unit
  | 0, _ => failure
  | fuel + 1, subject => do
    match ← next with
    | none => failure
    | some ';' =>
      mark ';'
      readProperties fuel subject
    | some _ =>
      match ← attempt ((keyword endsKeyword "a" *> pure typeTerm) <|> readTerm fuel) with
      | none => return ()
      | some predicate =>
        let objects ← readObjects fuel
        objects.forM (state subject predicate)
        match ← next with
        | none => failure
        | some ';' =>
          mark ';'
          readProperties fuel subject
        | some _ => return ()

/-- Objects separated by commas. -/
def readObjects : Nat → Reading (List Term)
  | 0 => failure
  | fuel + 1 => do
    let object ← readTerm fuel
    match ← next with
    | none => failure
    | some ',' =>
      mark ','
      return object :: (← readObjects fuel)
    | some _ => return [object]

end

/-- The name that a resource stands for in the document. -/
def resolved (resource : Term) : Reading (List Char) := fun cursor =>
  (resolve cursor.document resource.text.toList).map fun name => (name, cursor)

/-- The beginning of names, and what it means. -/
def readBeginning : Reading Unit := do
  let (first, _) ← word readName
  let name ← resolved (← readResource)
  modify fun cursor =>
    { cursor with beginnings := cursor.beginnings.insert first (String.ofList name) }

/-- The name of the document. -/
def readDocumentName : Reading Unit := do
  let name ← resolved (← readResource)
  modify fun cursor => { cursor with document := name }

/-- A directive with its sign, which ends with a full stop. -/
def readSigned : Reading Unit := do
  mark '@'
  let text := (← get).rest
  (match afterKeyword? (fun c => endsKeyword c || c = ':') "prefix".toList text,
      afterKeyword? endsKeyword "base".toList text with
    | some rest, _ => do
      modify fun cursor => { cursor with rest := rest }
      readBeginning
    | none, some rest => do
      modify fun cursor => { cursor with rest := rest }
      readDocumentName
    | none, none => failure)
  mark '.'

/-- A subject with what is stated of it. -/
def readStatement : Reading Unit := do
  let fuel := 4 * (← get).rest.length + 4
  let subject ← readTerm fuel
  readProperties fuel subject
  mark '.'

/-- A directive or a statement. -/
def readOne : Reading Unit := do
  if (← attempt (anyCaseKeyword "prefix")).isSome then readBeginning
  else if (← attempt (anyCaseKeyword "base")).isSome then readDocumentName
  else if (← next) = some '@' then readSigned
  else readStatement

/-- Directives and statements up to the end of the text. -/
def readAll : Nat → Reading Unit
  | 0 => failure
  | fuel + 1 => do
    match ← next with
    | none => return ()
    | some _ =>
      readOne
      readAll fuel

/-- What a document of a name states. -/
def read (document text : String) : Except Fault Triples :=
  let chars := text.toList
  let chars := if chars.head? = some '\uFEFF' then chars.drop 1 else chars
  match (readAll (chars.length + 1)).run ⟨chars, document.toList, .empty, []⟩ with
  | some (_, cursor) => .ok cursor.triples
  | none => .error .malformedTurtle

end Playbook.Turtle
