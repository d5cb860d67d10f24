import Playbook.Turtle.Reference
import Playbook.Turtle.Term
/-!
# Words of a document

Blanks and comments, names, references, quoted text and numbers, each read at the start of a text
and answered with the rest.
-/

namespace Playbook.Turtle

/-- The text without the blanks and comments at its start. A comment ends with its line; a carriage
return is blank only before a line feed. -/
def skipBlanks (comment : Bool) : List Char → List Char
  | [] => []
  | c :: rest =>
    if c = '\n' then skipBlanks false rest
    else if comment || c = '#' then skipBlanks true rest
    else if c = ' ' || c = '\t' || (c = '\r' && rest.head? = some '\n') then skipBlanks false rest
    else c :: rest

section Names

/-- The characters that end every name. -/
def delimiters : List Char :=
  "\t\r\n !\x22#$&\x27()*,+/;<=>?@[\\]^`".toList ++ ['{', '|', '}', '~']

/-- What the second part of a name may hold. -/
def isNameChar (c : Char) : Bool :=
  !delimiters.contains c

/-- What the first part of a name may hold, and the label of a blank term. -/
def isLabelChar (c : Char) : Bool :=
  isNameChar c && c ≠ ':'

/-- The characters that a backslash brings into a name. -/
def escapable : List Char :=
  "(_~.-!$&\x27()*+,;=/?#@%)".toList

/-- Whether a text starts with two hexadecimal digits. -/
def startsWithOctet : List Char → Bool
  | a :: b :: _ => (Text.hexDigit? a).isSome && (Text.hexDigit? b).isSome
  | _ => false

/-- The second part of a name, whose characters satisfy `p` or are escaped, up to where it ends. -/
def localChars (p : Char → Bool) : List Char → Option (List Char × List Char)
  | [] => some ([], [])
  | '\\' :: c :: rest =>
    if escapable.contains c then (localChars p rest).map fun (name, rest) => (c :: name, rest)
    else none
  | c :: rest =>
    if p c then
      if c = '%' && !startsWithOctet rest then none
      else (localChars p rest).map fun (name, rest) => (c :: name, rest)
    else if c = '\\' then none
    else some ([], c :: rest)

/-- The second part of a name. A full stop at its end is not part of it. -/
def localPart (p : Char → Bool) (text : List Char) : Option (List Char × List Char) :=
  (localChars p text).map fun (name, rest) =>
    if name.getLast? = some '.' then (name.dropLast, '.' :: rest) else (name, rest)

/-- The two parts of a name with a colon between them. -/
def readName (text : List Char) : Option ((String × String) × List Char) :=
  let first := text.takeWhile isLabelChar
  let startsNumber := first.head?.any fun c => c.isDigit || c = '-' || c = '.'
  match text.drop first.length with
  | ':' :: rest =>
    if startsNumber || first.getLast? = some '.' then none
    else
      (localPart (if first = ['_'] then isLabelChar else isNameChar) rest).map fun (name, rest) =>
        ((String.ofList first, String.ofList name), rest)
  | _ => none

/-- The text after a keyword, which has to be followed by a character that satisfies `p`. -/
def afterKeyword? (p : Char → Bool) (keyword text : List Char) : Option (List Char) :=
  let rest := text.drop keyword.length
  if keyword.isPrefixOf text && rest.head?.any p then some rest else none

/-- What may follow a keyword. -/
def endsKeyword (c : Char) : Bool :=
  !isNameChar c || c = '.'

end Names

section Quotes

/-- The character with a code, if there is one. -/
def character? (code : Nat) : Option Char :=
  if code.isValidChar then some (Char.ofNat code) else none

/-- What an escape of hexadecimal digits stands for; with other characters in their place, for
itself. A code without a character is refused. -/
def expandCode (mark : Char) (digits : List Char) : Option (List Char) :=
  match digits.mapM Text.hexDigit? with
  | some values => (character? (Text.ofDigits 16 values)).map fun c => [c]
  | none => some ('\\' :: mark :: digits)

/-- The number of digits in the escape that a letter starts. -/
def codeLength? (mark : Char) : Option Nat :=
  if mark = 'u' then some 4 else if mark = 'U' then some 8 else none

/-- The characters that single letters stand for after a backslash. -/
def escapedChars : List (Char × Char) :=
  [('a', '\x07'), ('b', '\x08'), ('f', '\x0c'), ('r', '\r'), ('t', '\t'), ('v', '\x0b'),
    ('n', '\n'), ('\\', '\\'), ('\x22', '\x22'), ('\x27', '\x27')]

/-- What the text after a backslash stands for, and how much of it that takes. -/
def expandEscape : List Char → Option (List Char × Nat)
  | [] => none
  | mark :: rest =>
    match escapedChars.lookup mark, codeLength? mark with
    | some c, _ => some ([c], 1)
    | none, some n =>
      if rest.length < n then none
      else (expandCode mark (rest.take n)).map fun expansion => (expansion, n + 1)
    | none, none => none

/-- Quoted text up to its closing quotes, one or three, after leaving out the first `skip`
characters, which are what is left of the escape just read. More than three quotes at the end of
long text belong to it, up to two; only long text may hold a line end. -/
def quotedChars (quote : Char) (long : Bool) : Nat → List Char → Option (List Char × List Char)
  | _, [] => none
  | skip + 1, _ :: rest => quotedChars quote long skip rest
  | 0, c :: rest =>
    if c = quote then
      if !long then some ([], rest)
      else if (List.replicate 4 quote).isPrefixOf rest then some ([quote, quote], rest.drop 4)
      else if (List.replicate 3 quote).isPrefixOf rest then some ([quote], rest.drop 3)
      else if (List.replicate 2 quote).isPrefixOf rest then some ([], rest.drop 2)
      else (quotedChars quote long 0 rest).map fun (chars, rest) => (quote :: chars, rest)
    else if c = '\\' then
      match expandEscape rest with
      | some (expansion, skip) =>
        (quotedChars quote long skip rest).map fun (chars, rest) => (expansion ++ chars, rest)
      | none => none
    else if !long && (c = '\n' || c = '\r') then none
    else (quotedChars quote long 0 rest).map fun (chars, rest) => (c :: chars, rest)

/-- Quoted text with its quotes. -/
def readQuoted : List Char → Option (String × List Char)
  | [] => none
  | quote :: rest =>
    if quote = '\x22' || quote = '\x27' then
      let long := [quote, quote].isPrefixOf rest
      (quotedChars quote long 0 (if long then rest.drop 2 else rest)).map fun (chars, rest) =>
        (String.ofList chars, rest)
    else none

/-- A reference with its escapes expanded, after leaving out the first `skip` characters. -/
def expandReference : Nat → List Char → Option (List Char)
  | _, [] => some []
  | skip + 1, _ :: rest => expandReference skip rest
  | 0, c :: rest =>
    match (if c = '\\' then rest.head?.bind codeLength? else none) with
    | some n =>
      let digits := (rest.drop 1).take n
      if digits.length = n && (digits.mapM Text.hexDigit?).isSome then do
        let expansion ← expandCode 'u' digits
        let expanded ← expandReference (n + 1) rest
        return expansion ++ expanded
      else (expandReference 0 rest).map (c :: ·)
    | none => (expandReference 0 rest).map (c :: ·)

/-- A reference between angle brackets as the name it stands for in a document. -/
def readReference (document : List Char) : List Char → Option (String × List Char)
  | '<' :: rest =>
    let reference := rest.takeWhile (· ≠ '>')
    match rest.drop reference.length with
    | '>' :: rest => do
      let name ← resolve document (← expandReference 0 reference)
      return (String.ofList name, rest)
    | _ => none
  | _ => none

/-- The groups of letters and digits after the first part of a language tag, with their hyphens. -/
def languageGroups : List Char → List Char
  | [] => []
  | c :: rest =>
    if c.isAlphanum || (c = '-' && rest.head?.any Char.isAlphanum) then c :: languageGroups rest
    else []

/-- A language tag after its sign: letters, then groups of letters and digits after hyphens. -/
def readLanguage (text : List Char) : Option (String × List Char) :=
  let first := text.takeWhile Char.isAlpha
  let rest := text.drop first.length
  if first.isEmpty then none
  else
    let groups := if rest.head? = some '-' then languageGroups rest else []
    some (String.ofList (first ++ groups), rest.drop groups.length)

end Quotes

section Numbers

/-- A number as a literal: a double with an exponent, a decimal with a point, else an integer. -/
def readNumber (text : List Char) : Option (Term × List Char) :=
  let (negative, magnitude) := Text.signed text
  let (whole, rest) := Text.asciiDigitRun magnitude
  let (fraction, afterFraction) :=
    match rest with
    | '.' :: after => Text.asciiDigitRun after
    | _ => ([], rest)
  let (exponent, afterExponent) := Text.exponentRun Text.asciiDigitRun afterFraction
  if (whole.isEmpty && fraction.isEmpty) then none
  else if afterExponent.length < afterFraction.length then
    let x := Text.decimalNumber negative whole fraction exponent
    some (.typed x.text (dataType "double"), afterExponent)
  else if !fraction.isEmpty then
    let d : Decimal := .finite negative (Text.ofDigits 10 (whole ++ fraction)) (-fraction.length)
    some (.typed d.text (dataType "decimal"), afterFraction)
  else if whole.length ≤ Text.digitLimit then
    let n := Decimal.withSign negative (Text.ofDigits 10 whole)
    some (.typed (Text.integerText n) (dataType "integer"), rest)
  else none

end Numbers

end Playbook.Turtle
