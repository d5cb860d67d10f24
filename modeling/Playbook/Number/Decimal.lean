import Playbook.Number.Binary64
import Playbook.Number.FloatText
/-!
# Decimal numbers

An exact decimal keeps its digits: a coefficient and a power of ten, so that 12.50 and 12.5 are
different texts of one value.
-/

namespace Playbook

/-- The value of `finite` is the signed coefficient times `10 ^ exponent`. A signalling not-a-number
refuses to be calculated with. -/
inductive Decimal where
  | finite (negative : Bool) (coefficient : Nat) (exponent : Int)
  | infinite (negative : Bool)
  | nan (negative : Bool)
  | signalling (negative : Bool)
deriving DecidableEq, Inhabited

namespace Decimal

/-- A signed integer. -/
def withSign (negative : Bool) (n : Nat) : Int :=
  if negative then -n else n

/-- The integer equal to a finite decimal; none when it has a fractional part. -/
def toInt? (negative : Bool) (coefficient : Nat) (exponent : Int) : Option Int :=
  if 0 ≤ exponent then some (withSign negative (coefficient * Nat.pow 10 exponent.toNat))
  else
    let unit := Nat.pow 10 (-exponent).toNat
    if coefficient % unit = 0 then some (withSign negative (coefficient / unit)) else none

/-- The digits after `0.` or with a point after the first `place` of them; no point at the end. -/
def pointed (digits : List Char) (place : Int) : List Char :=
  if place ≤ 0 then '0' :: '.' :: List.replicate (-place).toNat '0' ++ digits
  else if digits.length ≤ place then
    digits ++ List.replicate (place.toNat - digits.length) '0'
  else digits.take place.toNat ++ '.' :: digits.drop place.toNat

/-- The text of a magnitude: positional unless the exponent is positive or the leading digit stands
below `10 ^ -6`, then scientific. -/
def magnitudeText (coefficient : Nat) (exponent : Int) : List Char :=
  let digits := Nat.toDigits 10 coefficient
  let leading : Int := exponent + digits.length
  if exponent ≤ 0 ∧ -6 < leading then pointed digits leading
  else
    let power := leading - 1
    pointed digits 1 ++ 'E' :: (if power < 0 then '-' else '+') :: Nat.toDigits 10 power.natAbs

/-- The text of a magnitude without an exponent. -/
def fixedText (coefficient : Nat) (exponent : Int) : List Char :=
  if 0 ≤ exponent then Nat.toDigits 10 (coefficient * Nat.pow 10 exponent.toNat)
  else
    let digits := Nat.toDigits 10 coefficient
    pointed digits (exponent + digits.length)

/-- A text with a minus sign in front of it if negative. -/
def writeSigned (negative : Bool) (magnitude : List Char) : String :=
  String.ofList (if negative then '-' :: magnitude else magnitude)

/-- The text of a decimal, which keeps its zeros. -/
def text : Decimal → String
  | .finite negative coefficient exponent =>
    writeSigned negative (magnitudeText coefficient exponent)
  | .infinite negative => if negative then "-Infinity" else "Infinity"
  | .nan negative => if negative then "-NaN" else "NaN"
  | .signalling negative => if negative then "-sNaN" else "sNaN"

/-- The text of a decimal without an exponent. -/
def plainText : Decimal → String
  | .finite negative coefficient exponent => writeSigned negative (fixedText coefficient exponent)
  | d => d.text

/-- Digits of any script, with an optional point and exponent, that are a whole text. -/
def ofMagnitude? (negative : Bool) (magnitude : List Char) : Option Decimal :=
  let (whole, rest) := Text.digitRun false magnitude
  let (fraction, rest) :=
    match rest with
    | '.' :: after => Text.digitRun false after
    | _ => ([], rest)
  if whole.isEmpty && fraction.isEmpty then none
  else
    let (exponent, rest) := Text.exponentRun (Text.digitRun false) rest
    if rest.isEmpty then
      some (.finite negative (Text.ofDigits 10 (whole ++ fraction)) (exponent - fraction.length))
    else none

/-- The decimal that a text writes; underscores and blanks around it do not count. -/
def read? (text : String) : Option Decimal :=
  let bare := (Text.trim text.toList).filter (· ≠ '_')
  let (negative, magnitude) := Text.signed bare
  let word := magnitude.map Char.toLower
  if word = "nan".toList then some (.nan negative)
  else if word = "snan".toList then some (.signalling negative)
  else if word = "inf".toList || word = "infinity".toList then some (.infinite negative)
  else ofMagnitude? negative magnitude

end Decimal

end Playbook
