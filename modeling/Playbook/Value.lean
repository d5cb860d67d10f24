import Playbook.Fault
import Playbook.Number.Shortest
import Playbook.OrderedMap
/-!
# Context values

A context gives values to names: texts, numbers, truth values or null. `Value.format` is the text
of a value in templates and conditions.
-/

namespace Playbook

/-- What a context holds under a name. -/
inductive Value where
  | null
  | bool (b : Bool)
  | int (i : Int)
  | float (x : Binary64)
  | text (s : String)
deriving DecidableEq, Inhabited

/-- Names with their values, in the order in which the names were first set. -/
abbrev Context := OrderedMap String Value

namespace Value

/-- A text for null if it is unset. -/
def ofText? : Option String → Value
  | some s => .text s
  | none => .null

/-- A number for null if it is unset. -/
def ofInt? : Option Int → Value
  | some i => .int i
  | none => .null

/-- The text of a value; an integer of too many digits has none. -/
def format : Value → Except Fault String
  | null => .ok "null"
  | bool b => .ok (if b then "true" else "false")
  | int i =>
    match Text.printInteger? i with
    | some s => .ok s
    | none => .error .integerTooLong
  | float x => .ok x.text
  | text s => .ok s

/-- Null, false, zero and the empty text are falsy; everything else is truthy. -/
def isTruthy : Value → Bool
  | null => false
  | bool b => b
  | int i => i ≠ 0
  | float x => !x.isZero
  | text s => s ≠ ""

/-- The integer that a truth value or an integer counts as. -/
def integral? : Value → Option Int
  | bool b => some (if b then 1 else 0)
  | int i => some i
  | _ => none

/-- Whether a floating-point number is equal to an integer. -/
def floatIs (x : Binary64) (i : Int) : Bool :=
  match x with
  | .finite negative m e _ => Binary64.units negative m e = i * Nat.pow 2 1074
  | _ => false

/-- Equality of values by what they count as: truth values are the numbers 0 and 1, and a number is
equal to the same number of another type. -/
def same (v w : Value) : Bool :=
  match v, w with
  | float x, float y => x.eq y
  | float x, w => w.integral?.any (floatIs x)
  | v, float y => v.integral?.any (floatIs y)
  | v, w =>
    match v.integral?, w.integral? with
    | some i, some j => i = j
    | none, none => v = w
    | _, _ => false

/-- The integer that a value is cut down to, toward zero. -/
def whole : Value → Except Fault Int
  | null => .error (.wrongType "no number: null")
  | bool b => .ok (if b then 1 else 0)
  | int i => .ok i
  | float x =>
    match x.truncate? with
    | some i => .ok i
    | none =>
      if x = .nan then .error (.unreadable "cannot convert float NaN to integer")
      else .error (.overflow "cannot convert float infinity to integer")
  | text s =>
    match Text.readInteger? s with
    | some i => .ok i
    | none => .error (.unreadable s!"no integer: {Text.quoted s}")

/-- A value used as a name. -/
def asName : Value → Except Fault String
  | null => .ok "None"
  | bool b => .ok (if b then "True" else "False")
  | v => v.format

/-- A value as it is shown in a listing: truth values capitalised, texts in quotes. -/
def shown : Value → String
  | null => "None"
  | bool b => if b then "True" else "False"
  | int i => Text.integerText i
  | float x => x.text
  | text s => Text.quoted s

end Value

/-- A value as it stands in a condition: a text between single quotes, any other value as its
text. -/
def Value.literal : Value → Except Fault String
  | .text s => .ok s!"'{s}'"
  | v => v.format

/-- A context as it is shown in a listing, all of its integers written out. -/
def Context.shown (context : Context) : String :=
  let entries := context.entries.map fun (name, value) => s!"{Text.quoted name}: {value.shown}"
  "\x7b" ++ String.intercalate ", " entries ++ "\x7d"

/-- The listing of a context; one with an integer of too many digits has none. -/
def Context.listing (context : Context) : Except Fault String := do
  let _ ← context.values.mapM Value.format
  return context.shown

end Playbook
