import Playbook.Context
import Playbook.Number.FloatText
import Playbook.Text.Search
/-!
# Conditions

A condition is a comparison of two texts. First the values of the context take the place of their
names, wherever these stand and in the order of the context; then the comparison is read off the
text. A condition that cannot be evaluated does not hold.
-/

namespace Playbook

/-- The comparisons of a condition. -/
inductive Comparison where
  | equal
  | different
  | greater
  | less
deriving DecidableEq

namespace Comparison

/-- In the order in which they are looked for in a condition. -/
def all : List Comparison := [equal, different, greater, less]

def symbol : Comparison → String
  | equal => "=="
  | different => "!="
  | greater => ">"
  | less => "<"

/-- Whether two operands compare: texts for equality, numbers for order. -/
def holds (c : Comparison) (left right : String) : Bool :=
  match c with
  | equal => left = right
  | different => left ≠ right
  | greater =>
    match Text.readFloat? left, Text.readFloat? right with
    | some x, some y => y.lt x
    | _, _ => false
  | less =>
    match Text.readFloat? left, Text.readFloat? right with
    | some x, some y => x.lt y
    | _, _ => false

end Comparison

namespace Condition

/-- Puts the literals of named values in the place of their names, one entry after the other. An
empty name is left out. -/
def substituteEntries : List (String × Value) → String → Except Fault String
  | [], condition => .ok condition
  | (name, v) :: rest, condition =>
    if name = "" then substituteEntries rest condition
    else do
      let literal ← v.literal
      substituteEntries rest (Text.replace name literal condition)

/-- Null tests as comparisons, and no keyword in front. -/
def normalise (condition : String) : String :=
  Text.replace "where" ""
    (Text.replace "IS NOT NULL" "!= null" (Text.replace "IS NULL" "== null" condition))

/-- The condition with the values of a context in the place of their names. -/
def substitute (condition : String) (context : Context) : Except Fault String :=
  (substituteEntries context.entries condition).map normalise

/-- Whether a condition without names holds: the first comparison that stands anywhere in it splits
it where it stands first. -/
def holds (condition : String) : Bool :=
  match Comparison.all.find? fun c => Text.has c.symbol condition with
  | none => false
  | some c =>
    match Text.splitFirst c.symbol.toList condition.toList with
    | none => false
    | some (left, right) =>
      c.holds (String.ofList (Text.trim left)) (String.ofList (Text.trim right))

/-- Whether a condition holds in a context. -/
def evaluate (condition : String) (context : Context) : Bool :=
  match substitute condition context with
  | .ok s => holds s
  | .error _ => false

/-- Whether a condition that may be unset holds; an unset or empty one does not. -/
def evaluate? (condition : Option String) (context : Context) : Bool :=
  match condition with
  | some c => c ≠ "" && evaluate c context
  | none => false

end Condition

end Playbook
