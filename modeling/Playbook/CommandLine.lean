import Playbook.Datum
import Playbook.Text.Search
/-!
# Reading command lines

A command has switches, which may stand anywhere, and operands, which are known by their place. A
switch may be shortened as long as no other switch starts that way, and may have its word after an
equals sign. Two dashes make words of all that follows. What is left over refuses the whole line.
-/

namespace Playbook

/-- What a switch does. -/
inductive SwitchKind where
  /-- Shows how the command is used, instead of carrying it out. -/
  | help
  /-- Sets a field to true. -/
  | flag (field : String)
  /-- Sets a field to one of some words. The field is the first of them without the switch. -/
  | choice (field : String) (words : List String)
deriving DecidableEq

/-- A switch; only one that asks for help has a name of a single letter. -/
structure Switch where
  name : String
  kind : SwitchKind
deriving DecidableEq

structure Operand where
  field : String
  optional : Bool
deriving DecidableEq

/-- A command with the switches and operands that it knows. -/
structure CommandGrammar where
  name : String
  switches : List Switch
  operands : List Operand

/-- Why a command line is not carried out. -/
inductive Halt where
  | helped
  | refused
deriving DecidableEq

/-- What a text on a command line is. -/
inductive Argument where
  | word (text : String)
  | dashes
  | switch (switch : Switch) (value : Option String)
  /-- A switch of one letter, with what follows the letter. -/
  | letters (switch : Switch) (rest : List Char)
  | unknown

namespace Argument

section Classes

/-- Whether a text that starts with a dash is a number. -/
def isNumber (text : List Char) : Bool :=
  let body := text.drop 1
  let body := if body.getLast? = some '\n' then body.dropLast else body
  let isDigit (c : Char) : Bool := (Text.digit? c).isSome
  match body.dropWhile isDigit with
  | [] => !body.isEmpty
  | '.' :: fraction => !fraction.isEmpty && fraction.all isDigit
  | _ => false

/-- The switches that a text may stand for. A text with two dashes is the start of a name; one with
a single dash is a name of one letter with more letters. -/
def meanings (switches : List Switch) (text name : String) (value : Option String) :
    List Argument :=
  if text.startsWith "--" then
    (switches.filter fun s => s.name.startsWith name).map (.switch · value)
  else
    let short := String.ofList (text.toList.take 2)
    (switches.filter fun s => s.name = short).map (.letters · (text.toList.drop 2))

/-- A text that no switch has for its whole name. -/
def classifyPart (switches : List Switch) (text name : String) (value : Option String) :
    Except Halt Argument :=
  match meanings switches text name value with
  | [argument] => .ok argument
  | [] =>
    if isNumber text.toList || text.toList.contains ' ' then .ok (.word text) else .ok .unknown
  | _ => .error .refused

/-- What a text is that comes before two dashes. -/
def classify (switches : List Switch) (text : String) : Except Halt Argument :=
  let named (name : String) : Option Switch := switches.find? fun s => s.name = name
  if !text.startsWith "-" || text = "-" then .ok (.word text)
  else
    match named text, Text.splitFirst ['='] text.toList with
    | some s, _ => .ok (.switch s none)
    | none, none => classifyPart switches text text none
    | none, some (name, value) =>
      let name := String.ofList name
      let value := some (String.ofList value)
      match named name with
      | some s => .ok (.switch s value)
      | none => classifyPart switches text name value

/-- What the texts of a command line are. -/
def classifyAll (switches : List Switch) : List String → Except Halt (List Argument)
  | [] => .ok []
  | text :: rest =>
    if text = "--" then .ok (.dashes :: rest.map .word)
    else do
      let argument ← classify switches text
      let others ← classifyAll switches rest
      return argument :: others

end Classes

def isDashes : Argument → Bool
  | dashes => true
  | _ => false

/-- The text of a word or of dashes. -/
def text? : Argument → Option String
  | word text => some text
  | dashes => some "--"
  | _ => none

end Argument

/-- How far a command has been read: its fields, the operands that are still missing, and whether
anything was left over. -/
structure CommandReading where
  fields : Record
  missing : List Operand
  leftover : Bool

namespace CommandReading

section Operands

/-- The value of an operand that is made of words and dashes. The first dashes do not count. -/
def operandValue (operand : Operand) (parts : List Argument) : Datum :=
  match (parts.filterMap Argument.text?).erase "--" with
  | [text] => .text text
  | [] => if operand.optional then .null else .list []
  | texts => .list (texts.map .text)

/-- Gives words to operands in turn, and answers with what is missing and what is left over. Dashes
go to the operand before them, or else to the one after them. -/
def assign : List Operand → List Argument → Record → CommandReading
  | [], words, fields => ⟨fields, [], !words.isEmpty⟩
  | operand :: rest, words, fields =>
    let before := words.takeWhile Argument.isDashes
    match words.dropWhile Argument.isDashes with
    | word :: words =>
      let parts := before ++ word :: words.takeWhile Argument.isDashes
      assign rest (words.dropWhile Argument.isDashes)
        (fields.insert operand.field (operandValue operand parts))
    | [] =>
      if operand.optional then
        assign rest [] (fields.insert operand.field (operandValue operand before))
      else ⟨fields, operand :: rest, !words.isEmpty⟩

/-- Takes in the words up to a switch or to the end. -/
def take (r : CommandReading) (words : List Argument) : CommandReading :=
  let after := assign r.missing words r.fields
  { after with leftover := r.leftover || after.leftover }

/-- Takes in the words up to a switch, if there are any. -/
def takeSome (r : CommandReading) (words : List Argument) : CommandReading :=
  if words.isEmpty then r else r.take words

end Operands

def set (r : CommandReading) (field : String) (d : Datum) : CommandReading :=
  { r with fields := r.fields.insert field d }

/-- A field set to a word, which has to be one of some words. -/
def choose (r : CommandReading) (field : String) (words : List String) (word : String) :
    Except Halt CommandReading :=
  if words.contains word then .ok (r.set field (.text word)) else .error .refused

/-- What comes of a switch that asks for help, which takes no word. -/
def helpHalt : Option String → Halt
  | none => .helped
  | some _ => .refused

/-- What comes of a letter that asks for help with more letters. The letter may be repeated; letters
that are no switches come too late, but dashes and words are refused. -/
def lettersHalt (s : Switch) (rest : List Char) : Halt :=
  match rest.dropWhile fun c => s.name = String.ofList ['-', c] with
  | '-' :: _ | '=' :: _ => .refused
  | _ => .helped

/-- Takes in arguments; `words` are those since the last switch. -/
def takeAll : List Argument → List Argument → CommandReading → Except Halt CommandReading
  | [], words, r => .ok (r.take words)
  | .switch ⟨_, .choice field choices⟩ none :: .word word :: rest, words, r => do
    let r ← (r.takeSome words).choose field choices word
    takeAll rest [] r
  | .switch s value :: rest, words, r =>
    match s.kind, value with
    | .help, _ => .error (helpHalt value)
    | .flag field, none => takeAll rest [] ((r.takeSome words).set field (.bool true))
    | .choice field choices, some word => do
      let r ← (r.takeSome words).choose field choices word
      takeAll rest [] r
    | .flag _, some _ | .choice .., none => .error .refused
  | .letters s letters :: _, _, _ => .error (lettersHalt s letters)
  | .unknown :: rest, words, r => takeAll rest [] { r.takeSome words with leftover := true }
  | argument :: rest, words, r => takeAll rest (words ++ [argument]) r

end CommandReading

/-- The switches that every command has. -/
def helpSwitches : List Switch := [⟨"-h", .help⟩, ⟨"--help", .help⟩]

namespace CommandGrammar

/-- The fields of a command without any switch. -/
def defaults (grammar : CommandGrammar) : Record :=
  .ofEntries (grammar.switches.filterMap fun s =>
    match s.kind with
    | .help => none
    | .flag field => some (field, .bool false)
    | .choice field words => some (field, .ofText? words.head?))

/-- The fields of a command with its texts, and whether anything is left over. No operand may be
missing. -/
def read (grammar : CommandGrammar) (texts : List String) : Except Halt (Record × Bool) := do
  let arguments ← Argument.classifyAll (helpSwitches ++ grammar.switches) texts
  let r ← CommandReading.takeAll arguments [] ⟨grammar.defaults, grammar.operands, false⟩
  if r.missing.isEmpty then return (r.fields, r.leftover) else throw .refused

end CommandGrammar

/-- The command that a command line names, with its fields; none if it names none. -/
def readCommandLine (grammars : List CommandGrammar) :
    List String → Bool → Except Halt (Option (String × Record))
  | [], leftover => if leftover then .error .refused else .ok none
  | text :: rest, leftover =>
    if text = "--" then .error .refused
    else do
      match ← Argument.classify helpSwitches text with
      | .switch _ value => throw (CommandReading.helpHalt value)
      | .letters s letters => throw (CommandReading.lettersHalt s letters)
      | .unknown => readCommandLine grammars rest true
      | .dashes => throw .refused
      | .word name =>
        match grammars.find? fun g => g.name = name with
        | none => throw .refused
        | some grammar =>
          let (fields, more) ← grammar.read rest
          if leftover || more then throw .refused else return some (name, fields)

end Playbook
