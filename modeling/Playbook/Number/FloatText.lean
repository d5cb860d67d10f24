import Playbook.Number.Binary64
import Playbook.Text.Blank
import Playbook.Text.Digit
/-!
# Floating-point numbers from text

A sign, then one of the words for infinity or not-a-number in any case, or a decimal: digits with
an optional point and an optional exponent, where digits may be of any script and grouped by
underscores.
-/

namespace Playbook.Text

/-- The exponent mark and the exponent at the start of a text, 0 without one, and the rest. A mark
without digits is not an exponent. -/
def exponentRun (run : List Char → List Nat × List Char) : List Char → Int × List Char
  | [] => (0, [])
  | c :: rest =>
    if c = 'e' || c = 'E' then
      let (negative, after) := signed rest
      match run after with
      | ([], _) => (0, c :: rest)
      | (digits, left) =>
        let n : Int := ofDigits 10 digits
        (if negative then -n else n, left)
    else (0, c :: rest)

/-- The number that a sign, the digits before and after the point and an exponent write. -/
def decimalNumber (negative : Bool) (whole fraction : List Nat) (exponent : Int) : Binary64 :=
  .ofDecimal negative (ofDigits 10 (whole ++ fraction)) (exponent - fraction.length)

/-- A decimal that is a whole text. -/
def unsignedFloat? (negative : Bool) (text : List Char) : Option Binary64 :=
  let (whole, rest) := digitRun false text
  let (fraction, rest) :=
    match rest with
    | '.' :: after => digitRun false after
    | _ => ([], rest)
  if whole.isEmpty && fraction.isEmpty then none
  else
    let (exponent, rest) := exponentRun (digitRun false) rest
    if rest.isEmpty then some (decimalNumber negative whole fraction exponent) else none

/-- A floating-point text without its padding. -/
def bareFloat? (text : List Char) : Option Binary64 :=
  let (negative, magnitude) := signed text
  let word := magnitude.map Char.toLower
  if word = ['n', 'a', 'n'] then some .nan
  else if word = ['i', 'n', 'f'] || word = ['i', 'n', 'f', 'i', 'n', 'i', 't', 'y'] then
    some (.infinite negative)
  else unsignedFloat? negative magnitude

/-- The number that a text writes, with blanks around it left out. -/
def readFloat? (text : String) : Option Binary64 :=
  bareFloat? (stripBy isPadding text.toList)

end Playbook.Text
