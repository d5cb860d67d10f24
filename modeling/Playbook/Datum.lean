import Playbook.Calendar
import Playbook.Number.Decimal
import Playbook.Text.Utf8
import Playbook.Value
/-!
# Data from outside

What documents, tables and services deliver. Scalars become context values (`Datum.toValue`):
decimals turn into numbers, dates into text, bytes into the text they encode. Lists, mappings and
other objects are no values.
-/

namespace Playbook

/-- A datum; a mapping keeps the order of its fields. -/
inductive Datum where
  | plain (v : Value)
  | decimal (d : Decimal)
  | date (d : Date)
  | dateTime (t : DateTime)
  | bytes (octets : List Nat)
  | list (items : List Datum)
  | tuple (items : List Datum)
  | dict (fields : List (String × Datum))
  /-- Anything else, known by the name of its type. -/
  | other (typeName : String)

/-- A row of an answer: columns with their data. -/
abbrev Record := OrderedMap String Datum

namespace Datum

instance : Inhabited Datum := ⟨plain .null⟩

def null : Datum := plain .null

def text (s : String) : Datum := plain (.text s)

def int (i : Int) : Datum := plain (.int i)

def bool (b : Bool) : Datum := plain (.bool b)

def ofText? (s : Option String) : Datum := plain (Value.ofText? s)

def ofInt? (i : Option Int) : Datum := plain (Value.ofInt? i)

def isNull : Datum → Bool
  | plain .null => true
  | _ => false

def typeName : Datum → String
  | plain .null => "NoneType"
  | plain (.bool _) => "bool"
  | plain (.int _) => "int"
  | plain (.float _) => "float"
  | plain (.text _) => "str"
  | decimal _ => "Decimal"
  | date _ => "date"
  | dateTime _ => "datetime"
  | bytes _ => "bytes"
  | list _ => "list"
  | tuple _ => "tuple"
  | dict _ => "dict"
  | other typeName => typeName

/-- The context value of a decimal: an integer if it is one, else the nearest floating-point
number. -/
def ofDecimal : Decimal → Except Fault Value
  | .finite negative coefficient exponent =>
    match Decimal.toInt? negative coefficient exponent with
    | some i => .ok (.int i)
    | none => .ok (.float (.ofDecimal negative coefficient exponent))
  | .infinite _ => .error (.overflow "cannot convert Infinity to integer")
  | .nan _ => .ok (.float .nan)
  | .signalling _ => .error .invalidOperation

/-- The context value of a datum. -/
def toValue : Datum → Except Fault Value
  | plain v => .ok v
  | decimal d => ofDecimal d
  | date d => .ok (.text d.text)
  | dateTime t => .ok (.text t.text)
  | bytes octets => .ok (.text (Text.decodeUtf8 octets))
  | d => .error (.unsupportedValue d.typeName)

/-- Null, false, zero and everything empty are falsy; everything else is truthy. -/
def isTruthy : Datum → Bool
  | plain v => v.isTruthy
  | decimal (.finite _ coefficient _) => coefficient ≠ 0
  | bytes octets => !octets.isEmpty
  | list items | tuple items => !items.isEmpty
  | dict fields => !fields.isEmpty
  | _ => true

/-- The integer that a datum is cut down to, toward zero. -/
def whole : Datum → Except Fault Int
  | plain v => v.whole
  | decimal (.finite negative coefficient exponent) =>
    let n := coefficient * Nat.pow 10 exponent.toNat / Nat.pow 10 (-exponent).toNat
    .ok (Decimal.withSign negative n)
  | decimal (.infinite _) => .error (.overflow "cannot convert Infinity to integer")
  | decimal (.nan _) | decimal (.signalling _) =>
    .error (.unreadable "cannot convert NaN to integer")
  | bytes octets => (Value.text (Text.decodeUtf8 octets)).whole
  | d => .error (.wrongType s!"no number: {d.typeName}")

/-- A text or null. -/
def toText? : Datum → Except Fault (Option String)
  | plain (.text s) => .ok (some s)
  | plain .null => .ok none
  | d => .error (.wrongType s!"text expected, not {d.typeName}")

/-- An integer or null. -/
def toInt? : Datum → Except Fault (Option Int)
  | plain (.int i) => .ok (some i)
  | plain .null => .ok none
  | d => .error (.wrongType s!"integer expected, not {d.typeName}")

/-- The text of a datum that is one. -/
def textOf? : Datum → Option String
  | plain (.text s) => some s
  | _ => none

/-- The items that a datum is made of: those of a list, the names of a mapping, the characters of a
text. -/
def items : Datum → Except Fault (List Datum)
  | list items | tuple items => .ok items
  | dict fields => .ok (fields.map fun field => text field.1)
  | plain (.text s) => .ok (s.toList.map fun c => text (String.singleton c))
  | d => .error (.wrongType s!"'{d.typeName}' object is not iterable")

/-- Whether a datum can be a key, which lists, mappings and a signalling not-a-number cannot. -/
def isKey : Datum → Bool
  | list _ | dict _ | decimal (.signalling _) => false
  | _ => true

/-- The datum if it is truthy, else the other one. -/
def orElse (d other : Datum) : Datum :=
  if d.isTruthy then d else other

/-- A byte as it is shown between two `quote` characters. -/
def showByte (quote : Char) (b : Nat) : List Char :=
  if b < 0x80 then Text.showChar quote (Char.ofNat b) else '\\' :: 'x' :: Text.hex 2 b

/-- Bytes as they are shown in a listing. -/
def shownBytes (octets : List Nat) : String :=
  let quote := Text.quoteFor (octets.map Char.ofNat)
  String.ofList ('b' :: quote :: octets.flatMap (showByte quote) ++ [quote])

mutual

/-- A datum as it is shown in a listing. -/
def shown : Datum → String
  | plain v => v.shown
  | decimal d => s!"Decimal('{d.text}')"
  | date d => d.shown
  | dateTime t => t.shown
  | bytes octets => shownBytes octets
  | list items => "[" ++ String.intercalate ", " (shownItems items) ++ "]"
  | tuple [] => "()"
  | tuple [item] => s!"({item.shown},)"
  | tuple items => "(" ++ String.intercalate ", " (shownItems items) ++ ")"
  | dict fields => "\x7b" ++ String.intercalate ", " (shownFields fields) ++ "\x7d"
  | other typeName => s!"<{typeName}>"

def shownItems : List Datum → List String
  | [] => []
  | d :: rest => d.shown :: shownItems rest

def shownFields : List (String × Datum) → List String
  | [] => []
  | (name, d) :: rest => s!"{Text.quoted name}: {d.shown}" :: shownFields rest

end

mutual

/-- Whether a datum can be written: no integer in it has too many digits. -/
def isWritable : Datum → Bool
  | plain v => v.format.isOk
  | list items | tuple items => areWritable items
  | dict fields => fieldsAreWritable fields
  | _ => true

def areWritable : List Datum → Bool
  | [] => true
  | d :: rest => d.isWritable && areWritable rest

def fieldsAreWritable : List (String × Datum) → Bool
  | [] => true
  | (_, d) :: rest => d.isWritable && fieldsAreWritable rest

end

@[simp]
theorem isWritable_null : null.isWritable = true := rfl

@[simp]
theorem isWritable_text (s : String) : (text s).isWritable = true := rfl

theorem isWritable_int {i : Int} (h : (Text.printInteger? i).isSome = true) :
    (int i).isWritable = true := by
  have hp := Text.printInteger?_of_isSome h
  unfold int isWritable Value.format
  simp only [hp]
  rfl

@[simp]
theorem isWritable_ofText? (s : Option String) : (ofText? s).isWritable = true := by
  cases s <;> rfl

/-- The listing of a datum; one that cannot be written has none. -/
def listing (d : Datum) : Except Fault String :=
  if d.isWritable then .ok d.shown else .error .integerTooLong

/-- A datum as text: a text is itself, anything else is as it is shown. -/
def asText : Datum → String
  | plain (.text s) => s
  | date d => d.text
  | dateTime t => t.textWith " "
  | decimal d => d.text
  | d => d.shown

/-- The text of a datum; one that cannot be written has none. -/
def write (d : Datum) : Except Fault String :=
  if d.isWritable then .ok d.asText else .error .integerTooLong

/-- The value of a finite number as numerator and denominator. -/
def number? : Datum → Option (Int × Nat)
  | plain (.bool b) => some (if b then 1 else 0, 1)
  | plain (.int i) => some (i, 1)
  | plain (.float (.finite negative m e _)) => some (Binary64.units negative m e, Nat.pow 2 1074)
  | decimal (.finite negative coefficient exponent) =>
    some (Decimal.withSign negative (coefficient * Nat.pow 10 exponent.toNat),
      Nat.pow 10 (-exponent).toNat)
  | _ => none

/-- Equality of scalars by what they count as; numbers of different types may be equal. -/
def same (d d' : Datum) : Bool :=
  match d.number?, d'.number? with
  | some (n, m), some (n', m') => n * m' = n' * m
  | none, none =>
    match d, d' with
    | plain v, plain v' => v = v'
    | date a, date b => a = b
    | dateTime a, dateTime b => a = b
    | bytes a, bytes b => a = b
    | _, _ => false
  | _, _ => false

/-- Order of two scalars; none when they have no order. -/
def before? (d d' : Datum) : Option Bool :=
  match d.number?, d'.number? with
  | some (n, m), some (n', m') => some (n * m' < n' * m)
  | none, none =>
    match d, d' with
    | plain (.text a), plain (.text b) => some (a < b)
    | date a, date b => some (a.text < b.text)
    | dateTime a, dateTime b => some (a.text < b.text)
    | _, _ => none
  | _, _ => none

/-- The data in increasing order of a key; none when two keys have no order. -/
def sortBy? {α : Type} (key : α → Datum) (items : List α) : Option (List α) :=
  if items.all (fun a => items.all fun b =>
      (key a).same (key b) || ((key a).before? (key b)).isSome) then
    some (items.mergeSort fun a b => !((key b).before? (key a)).getD false)
  else none

end Datum

namespace Record

/-- The datum of a column; null when there is none. -/
def column (record : Record) (name : String) : Datum :=
  (record.get? name).getD .null

/-- The datum of the first of two columns that is not null. -/
def either (record : Record) (name other : String) : Datum :=
  let d := record.column name
  if d.isNull then record.column other else d

end Record

end Playbook
