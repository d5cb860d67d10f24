import Playbook.Text.Digit
import Playbook.Text.Integer
/-!
# Dates and times

Calendar dates and times of day with an optional offset, and their ISO 8601 texts.
-/

namespace Playbook

structure Date where
  year : Nat
  month : Nat
  day : Nat
deriving DecidableEq, Inhabited

structure DateTime where
  date : Date
  hour : Nat
  minute : Nat
  second : Nat
  microsecond : Nat
  /-- Seconds ahead of universal time. -/
  offset : Option Int
deriving DecidableEq, Inhabited

namespace Date

def isLeap (year : Nat) : Bool :=
  year % 4 = 0 && (year % 100 ≠ 0 || year % 400 = 0)

def daysInMonth (year month : Nat) : Nat :=
  if month = 2 then (if isLeap year then 29 else 28)
  else if [4, 6, 9, 11].contains month then 30
  else 31

def isValid (d : Date) : Bool :=
  1 ≤ d.year && d.year ≤ 9999 && 1 ≤ d.month && d.month ≤ 12 && 1 ≤ d.day &&
    d.day ≤ daysInMonth d.year d.month

/-- Year, month and day joined by hyphens. -/
def text (d : Date) : String :=
  s!"{Text.padded 4 d.year}-{Text.padded 2 d.month}-{Text.padded 2 d.day}"

end Date

namespace Calendar

/-- A number of exactly `count` ASCII digits at the start of a text, and the rest. -/
def fixedNumber : Nat → List Char → Option (Nat × List Char)
  | 0, rest => some (0, rest)
  | _ + 1, [] => none
  | count + 1, c :: rest => do
    let d ← Text.asciiDigit? c
    let (n, after) ← fixedNumber count rest
    return (d * Nat.pow 10 count + n, after)

/-- A two-digit number after a colon, if there is one. -/
def colonNumber : List Char → Option (Nat × List Char)
  | ':' :: rest => fixedNumber 2 rest
  | _ => none

/-- The hours, minutes and seconds at the start of a text; those not given are 0. -/
def clock (text : List Char) : Option ((Nat × Nat × Nat) × List Char) := do
  let (hour, rest) ← fixedNumber 2 text
  match colonNumber rest with
  | some (minute, rest) =>
    match colonNumber rest with
    | some (second, rest) => return ((hour, minute, second), rest)
    | none => return ((hour, minute, 0), rest)
  | none =>
    match fixedNumber 2 rest with
    | some (minute, rest) =>
      match fixedNumber 2 rest with
      | some (second, rest) => return ((hour, minute, second), rest)
      | none => return ((hour, minute, 0), rest)
    | none => return ((hour, 0, 0), rest)

/-- The fraction of a second at the start of a text in microseconds, further digits cut off. -/
def fraction : List Char → Nat × List Char
  | [] => (0, [])
  | c :: rest =>
    if c = '.' || c = ',' then
      match Text.asciiDigitRun rest with
      | ([], _) => (0, c :: rest)
      | (digits, after) =>
        (Text.ofDigits 10 ((digits ++ [0, 0, 0, 0, 0, 0]).take 6), after)
    else (0, c :: rest)

/-- An offset that is a whole text: none, `Z`, or a sign and a time. -/
def offset : List Char → Option (Option Int)
  | [] => some none
  | ['Z'] => some (some 0)
  | c :: rest =>
    if c = '+' || c = '-' then
      match clock rest with
      | some ((hour, minute, second), []) =>
        let n : Int := hour * 3600 + minute * 60 + second
        if n < 86400 && minute < 60 && second < 60 then some (some (if c = '-' then -n else n))
        else none
      | _ => none
    else none

/-- Year, month and day joined by hyphens at the start of a text, if they are a date. -/
def date (text : List Char) : Option (Date × List Char) := do
  let (year, rest) ← fixedNumber 4 text
  let '-' :: rest := rest | none
  let (month, rest) ← fixedNumber 2 rest
  let '-' :: rest := rest | none
  let (day, rest) ← fixedNumber 2 rest
  let d : Date := ⟨year, month, day⟩
  if d.isValid then return (d, rest) else none

/-- A time of day with its offset that is a whole text. -/
def timeOn (d : Date) (text : List Char) : Option DateTime := do
  let ((hour, minute, second), rest) ← clock text
  let (microsecond, rest) := fraction rest
  let shift ← offset rest
  if hour < 24 && minute < 60 && second < 60 then
    return ⟨d, hour, minute, second, microsecond, shift⟩
  else none

end Calendar

/-- The date that a text writes. -/
def Date.read? (text : String) : Option Date :=
  match Calendar.date text.toList with
  | some (d, []) => some d
  | _ => none

/-- The date and time that a text writes; a date alone is its midnight. -/
def DateTime.read? (text : String) : Option DateTime :=
  match Calendar.date text.toList with
  | some (d, []) => some ⟨d, 0, 0, 0, 0, none⟩
  | some (d, _ :: rest) => Calendar.timeOn d rest
  | none => none

/-- An offset as a sign, hours and minutes, and the seconds unless they are 0. -/
def DateTime.offsetText (offset : Int) : String :=
  let n := offset.natAbs
  let sign := if offset < 0 then "-" else "+"
  let seconds := if n % 60 = 0 then "" else s!":{Text.padded 2 (n % 60)}"
  s!"{sign}{Text.padded 2 (n / 3600)}:{Text.padded 2 (n / 60 % 60)}{seconds}"

/-- Date and time joined by a separator; microseconds only if there are any. -/
def DateTime.textWith (separator : String) (t : DateTime) : String :=
  let micros := if t.microsecond = 0 then "" else s!".{Text.padded 6 t.microsecond}"
  let shift := match t.offset with
    | none => ""
    | some offset => DateTime.offsetText offset
  let clock := s!"{Text.padded 2 t.hour}:{Text.padded 2 t.minute}:{Text.padded 2 t.second}"
  s!"{t.date.text}{separator}{clock}{micros}{shift}"

/-- Date and time joined by `T`. -/
def DateTime.text (t : DateTime) : String := t.textWith "T"

/-- A date as it is shown in a listing. -/
def Date.shown (d : Date) : String :=
  s!"datetime.date({d.year.repr}, {d.month.repr}, {d.day.repr})"

/-- An offset as it is shown in a listing: days, if it is negative, and seconds. -/
def DateTime.shownOffset (offset : Int) : String :=
  if offset = 0 then "datetime.timezone.utc"
  else
    let days := if offset < 0 then "days=-1, " else ""
    let seconds := (offset % 86400).natAbs.repr
    s!"datetime.timezone(datetime.timedelta({days}seconds={seconds}))"

/-- A date and time as it is shown in a listing; zeros at the end are left out. -/
def DateTime.shown (t : DateTime) : String :=
  let numbers := [t.date.year, t.date.month, t.date.day, t.hour, t.minute] ++
    (if t.second = 0 && t.microsecond = 0 then [] else [t.second]) ++
    (if t.microsecond = 0 then [] else [t.microsecond])
  let shift := match t.offset with
    | none => []
    | some offset => ["tzinfo=" ++ DateTime.shownOffset offset]
  "datetime.datetime(" ++ String.intercalate ", " (numbers.map Nat.repr ++ shift) ++ ")"

end Playbook
