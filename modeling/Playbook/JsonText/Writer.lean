import Playbook.Value
/-!
# Contexts as JSON text

A context is written as an object, on one line or with an entry a line. Only the quote, the
backslash and control characters are escaped; floating-point numbers include the words for
infinities and not-a-number.
-/

namespace Playbook.JsonText

/-- A character between double quotes. -/
def writeChar (c : Char) : List Char :=
  let n := c.toNat
  if c = '\x22' then ['\\', '\x22']
  else if c = '\\' then ['\\', '\\']
  else if c = '\n' then ['\\', 'n']
  else if c = '\r' then ['\\', 'r']
  else if c = '\t' then ['\\', 't']
  else if n = 8 then ['\\', 'b']
  else if n = 12 then ['\\', 'f']
  else if n < 0x20 then '\\' :: 'u' :: Text.hex 4 n
  else [c]

def writeText (s : String) : List Char :=
  '\x22' :: s.toList.flatMap writeChar ++ ['\x22']

def writeFloat : Binary64 → List Char
  | .nan => "NaN".toList
  | .infinite negative => (if negative then "-Infinity" else "Infinity").toList
  | x => x.text.toList

/-- A value; an integer of too many digits has no text. -/
def writeValue : Value → Except Fault (List Char)
  | .null => .ok "null".toList
  | .bool b => .ok (if b then "true" else "false").toList
  | .int i =>
    match Text.printInteger? i with
    | some s => .ok s.toList
    | none => .error .integerTooLong
  | .float x => .ok (writeFloat x)
  | .text s => .ok (writeText s)

/-- Entries with a separator between them. -/
def writeEntries (separator : List Char) : List (String × Value) → Except Fault (List Char)
  | [] => .ok []
  | (name, v) :: rest => do
    let written ← writeValue v
    let entry := writeText name ++ ':' :: ' ' :: written
    if rest.isEmpty then return entry
    else
      let others ← writeEntries separator rest
      return entry ++ separator ++ others

/-- A context on one line. -/
def writeLine (context : Context) : Except Fault String := do
  let entries ← writeEntries [',', ' '] context.entries
  return String.ofList ('{' :: entries ++ ['}'])

/-- A context with an entry a line, indented by two. -/
def writeLines (context : Context) : Except Fault String := do
  let entries ← writeEntries [',', '\n', ' ', ' '] context.entries
  if context.entries.isEmpty then return "\x7b\x7d"
  else return String.ofList ('{' :: '\n' :: ' ' :: ' ' :: entries ++ ['\n', '}'])

end Playbook.JsonText
