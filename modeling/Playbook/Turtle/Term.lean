import Playbook.Datum
import Playbook.Number.FloatText
import Playbook.Turtle.Name
/-!
# Terms

What statements are made of: resources with a name, resources without one, and literals. A literal
of a known type is kept in the normal text of its value, so that two literals are equal if they
have the same type and value; text that writes no value of its type stays as it is.
-/

namespace Playbook.Turtle

inductive Term where
  | resource (name : String)
  | blank (label : String)
  | literal (text : String) (type : Option String) (language : Option String)
deriving DecidableEq, Inhabited

/-- What the names of the standard vocabularies start with. -/
def standards : String := "http://www.w3.org/"

/-- The name of a data type. -/
def dataType (name : String) : String :=
  standards ++ "2001/XMLSchema#" ++ name

/-- A term of the vocabulary of statements. -/
def syntaxTerm (name : String) : Term :=
  .resource (standards ++ "1999/02/22-rdf-syntax-ns#" ++ name)

/-- What relates a resource to its class. -/
def typeTerm : Term := syntaxTerm "type"

/-- A term of this ontology. -/
def ontologyTerm (name : String) : Term :=
  .resource (ontology ++ name)

/-- The names of the data types of integers. -/
def integerTypes : List String :=
  ["integer", "int", "long", "short", "byte", "nonNegativeInteger", "positiveInteger",
    "nonPositiveInteger", "negativeInteger", "unsignedLong", "unsignedInt", "unsignedShort",
    "unsignedByte"].map dataType

def floatTypes : List String :=
  ["double", "float"].map dataType

/-- The value that a text of a data type writes; none if the type is unknown or the text writes no
value of it. -/
def typedValue? (text type : String) : Option Datum :=
  if integerTypes.contains type then (Text.readInteger? text).map .int
  else if floatTypes.contains type then (Text.readFloat? text).map fun x => .plain (.float x)
  else if type = dataType "decimal" then (Decimal.read? text).map .decimal
  else if type = dataType "boolean" then
    some (.bool (text = "1" || text.map Char.toLower = "true"))
  else if type = dataType "date" then (Date.read? text).map .date
  else if type = dataType "dateTime" && text.contains 'T' then
    (DateTime.read? text).map .dateTime
  else none

/-- The normal text of a value of a data type. -/
def normalText : Datum → String
  | .plain (.bool b) => if b then "true" else "false"
  | .decimal d => d.plainText
  | .dateTime t => t.text
  | d => d.asText

namespace Term

/-- A literal of a data type. -/
def typed (text type : String) : Term :=
  .literal (((typedValue? text type).map normalText).getD text) (some type) none

/-- What a term stands for as a datum. -/
def value : Term → Datum
  | resource name => .text name
  | blank label => .text label
  | literal text none _ => .text text
  | literal text (some type) _ => (typedValue? text type).getD (.text text)

/-- The text of a term. -/
def text : Term → String
  | resource name => name
  | blank label => label
  | literal text _ _ => text

end Term

end Playbook.Turtle
