import Playbook.Datum
/-!
# Data from JSON text

Objects keep the order of their members, and a repeated name keeps its first place and has its last
value. A number with a point or an exponent is a floating-point number, any other is an integer;
the words for infinities and not-a-number are read. What is wrong with a text is reported with the
place where it is.
-/

namespace Playbook.JsonText

/-- What is wrong with a text, and the rest of the text from there. -/
inductive Problem where
  | expected (what : String) (rest : List Char)
  | integerTooLong (digits : Nat)

/-- What was read, and the rest. -/
abbrev Reading (α : Type) := Except Problem (α × List Char)

def isBlank (c : Char) : Bool :=
  c = ' ' || c = '\t' || c = '\n' || c = '\r'

def skipBlanks (text : List Char) : List Char :=
  text.dropWhile isBlank

/-- The text after a word that it starts with. -/
def afterWord? (word text : List Char) : Option (List Char) :=
  if word.isPrefixOf text then some (text.drop word.length) else none

/-- The character that a backslash and a letter stand for. -/
def escaped? : Char → Option Nat
  | '\x22' => some 34
  | '\\' => some 92
  | '/' => some 47
  | 'b' => some 8
  | 'f' => some 12
  | 'n' => some 10
  | 'r' => some 13
  | 't' => some 9
  | _ => none

/-- The number that four hexadecimal digits write. -/
def hexUnit? (a b c d : Char) : Option Nat := do
  let digits ← [a, b, c, d].mapM Text.hexDigit?
  return Text.ofDigits 16 digits

/-- The code units of a text up to its closing quote. `start` is the text from the opening one. -/
def readUnits (start : List Char) : List Char → Reading (List Nat)
  | [] => .error (.expected "Unterminated string starting at" start)
  | c :: rest =>
    if c = '\x22' then .ok ([], rest)
    else if c = '\\' then
      match rest with
      | [] => .error (.expected "Unterminated string starting at" start)
      | 'u' :: x :: y :: z :: w :: next :: rest =>
        match hexUnit? x y z w with
        | some n => (readUnits start (next :: rest)).map fun (units, rest) => (n :: units, rest)
        | none =>
          .error (.expected "Invalid \\uXXXX escape" ('u' :: x :: y :: z :: w :: next :: rest))
      | e :: rest =>
        match escaped? e with
        | some n => (readUnits start rest).map fun (units, rest) => (n :: units, rest)
        | none =>
          if e = 'u' then .error (.expected "Invalid \\uXXXX escape" (e :: rest))
          else .error (.expected "Invalid \\escape" (c :: e :: rest))
    else if c.toNat < 0x20 then .error (.expected "Invalid control character at" (c :: rest))
    else (readUnits start rest).map fun (units, rest) => (c.toNat :: units, rest)

/-- The text of code units; two halves of a character are joined, and a half alone is replaced.
Texts have whole characters only here. Where halves alone are kept, names that differ in these alone
stay apart, and a text with one cannot be written to a file. -/
def joinUnits : List Nat → List Char
  | [] => []
  | high :: rest =>
    if 0xD800 ≤ high && high < 0xDC00 then
      match rest with
      | low :: rest =>
        if 0xDC00 ≤ low && low < 0xE000 then
          Char.ofNat (0x10000 + (high - 0xD800) * 0x400 + (low - 0xDC00)) :: joinUnits rest
        else Text.replacement :: joinUnits (low :: rest)
      | [] => [Text.replacement]
    else if 0xDC00 ≤ high && high < 0xE000 then Text.replacement :: joinUnits rest
    else Char.ofNat high :: joinUnits rest

/-- A text after its opening quote. -/
def readText (start text : List Char) : Reading String :=
  (readUnits start text).map fun (units, rest) => (String.ofList (joinUnits units), rest)

/-- A point and the digits after it, if the text starts with them. -/
def readFraction : List Char → Option (List Nat) × List Char
  | '.' :: rest =>
    match Text.asciiDigitRun rest with
    | ([], _) => (none, '.' :: rest)
    | (digits, after) => (some digits, after)
  | text => (none, text)

/-- Whether the text starts with an exponent. -/
def hasExponent : List Char → Bool
  | c :: rest =>
    (c = 'e' || c = 'E') && !(Text.asciiDigitRun (Text.signed rest).2).1.isEmpty
  | [] => false

/-- A number without its sign; `start` is the text from the sign on. -/
def readMagnitude (negative : Bool) (start text : List Char) : Reading Datum :=
  let (digits, rest) :=
    match text with
    | '0' :: rest => ([0], rest)
    | text => Text.asciiDigitRun text
  if digits.isEmpty then .error (.expected "Expecting value" start)
  else
    let (fraction, rest) := readFraction rest
    if fraction.isNone && !hasExponent rest then
      if digits.length ≤ Text.digitLimit then
        let n : Int := Text.ofDigits 10 digits
        .ok (.int (if negative then -n else n), rest)
      else .error (.integerTooLong digits.length)
    else
      let (exponent, rest) := Text.exponentRun Text.asciiDigitRun rest
      .ok (.plain (.float (Text.decimalNumber negative digits (fraction.getD []) exponent)), rest)

/-- The words that are values, in the order in which they are tried. -/
def words : List (List Char × Value) :=
  [("null".toList, .null), ("true".toList, .bool true), ("false".toList, .bool false),
    ("NaN".toList, .float .nan), ("Infinity".toList, .float (.infinite false)),
    ("-Infinity".toList, .float (.infinite true))]

/-- A word or a number. -/
def readScalar (text : List Char) : Reading Datum :=
  match words.findSome? fun (word, v) => (afterWord? word text).map fun rest => (v, rest) with
  | some (v, rest) => .ok (.plain v, rest)
  | none =>
    match text with
    | '-' :: rest => readMagnitude true text rest
    | text => readMagnitude false text text

mutual

/-- A value at the start of a text, nested at most so deep. -/
def readValue : Nat → List Char → Reading Datum
  | _, [] => .error (.expected "Expecting value" [])
  | 0, text => .error (.expected "Expecting value" text)
  | fuel + 1, c :: rest =>
    if c = '\x22' then (readText (c :: rest) rest).map fun (s, rest) => (.text s, rest)
    else if c = '{' then
      match skipBlanks rest with
      | '}' :: rest => .ok (.dict [], rest)
      | rest => (readMembers fuel [] rest).map fun (fields, rest) => (.dict fields, rest)
    else if c = '[' then
      match skipBlanks rest with
      | ']' :: rest => .ok (.list [], rest)
      | rest => (readItems fuel rest).map fun (items, rest) => (.list items, rest)
    else readScalar (c :: rest)

/-- The members of an object up to its closing brace, after those already read. -/
def readMembers : Nat → List (String × Datum) → List Char → Reading (List (String × Datum))
  | 0, _, text => .error (.expected "Expecting value" text)
  | fuel + 1, done, text =>
    match text with
    | '\x22' :: rest =>
      match readText text rest with
      | .error e => .error e
      | .ok (name, rest) =>
        match skipBlanks rest with
        | ':' :: rest =>
          match readValue fuel (skipBlanks rest) with
          | .error e => .error e
          | .ok (d, rest) =>
            let done := OrderedMap.put name d done
            match skipBlanks rest with
            | '}' :: rest => .ok (done, rest)
            | ',' :: rest => readMembers fuel done (skipBlanks rest)
            | rest => .error (.expected "Expecting ',' delimiter" rest)
        | rest => .error (.expected "Expecting ':' delimiter" rest)
    | text => .error (.expected "Expecting property name enclosed in double quotes" text)

/-- The items of a list up to its closing bracket. -/
def readItems : Nat → List Char → Reading (List Datum)
  | 0, text => .error (.expected "Expecting value" text)
  | fuel + 1, text =>
    match readValue fuel text with
    | .error e => .error e
    | .ok (d, rest) =>
      match skipBlanks rest with
      | ']' :: rest => .ok ([d], rest)
      | ',' :: rest =>
        (readItems fuel (skipBlanks rest)).map fun (items, rest) => (d :: items, rest)
      | rest => .error (.expected "Expecting ',' delimiter" rest)

end

/-- A value that is a whole text, with blanks around it. -/
def readAll (text : List Char) : Except Problem Datum :=
  match text with
  | '\uFEFF' :: _ => .error (.expected "Unexpected UTF-8 BOM (decode using utf-8-sig)" text)
  | text =>
    match readValue (2 * text.length + 2) (skipBlanks text) with
    | .error e => .error e
    | .ok (d, rest) =>
      match skipBlanks rest with
      | [] => .ok d
      | rest => .error (.expected "Extra data" rest)

/-- A place in a text: line, column and number of characters before it. -/
def placeText (text rest : List Char) : String :=
  let before := text.take (text.length - rest.length)
  let line := before.count '\n' + 1
  let column := (before.reverse.takeWhile (· ≠ '\n')).length + 1
  s!"line {line.repr} column {column.repr} (char {before.length.repr})"

def Problem.fault (text : List Char) : Problem → Fault
  | expected what rest => .malformedJson s!"{what}: {placeText text rest}"
  | integerTooLong digits =>
    .unreadable (Fault.digitLimitMessage s!": value has {digits.repr} digits")

/-- The datum that a JSON text writes. -/
def read (text : String) : Except Fault Datum :=
  (readAll text.toList).mapError (Problem.fault text.toList)

end Playbook.JsonText
