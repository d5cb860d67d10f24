import Playbook.Fault
import Playbook.Text.Search
/-!
# Problem ids

The id of a problem is its type, a hyphen, and a number of at least three digits.
-/

namespace Playbook.ProblemId

/-- A number in at least three characters, zeros before its digits and its sign before these. -/
def numberText (number : Int) : String :=
  if number < 0 then "-" ++ Text.padded 2 number.natAbs else Text.padded 3 number.natAbs

/-- The id of a problem of a type; a number of too many digits has no text. -/
def write (type : String) (number : Int) : Except Fault String :=
  if (Text.printInteger? number).isSome then .ok s!"{type}-{numberText number}"
  else .error .integerTooLong

/-- The number that an id ends with, after its last hyphen. -/
def number? (id : String) : Option Int :=
  if id = "" then none
  else Text.readInteger? (String.ofList (Text.afterLast '-' id.toList))

end Playbook.ProblemId
