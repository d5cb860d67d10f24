import Playbook.Number.Binary64
/-!
# The shortest decimal of a floating-point number

A decimal with the fewest digits that reads back as the number, and of those the nearest to it; of
two equally near the one with the even last digit. It is looked for on the grids of 1, 2, … 17
digits, where only the two neighbours of the number need to be tried. A number that none of them
hits is written exactly.
-/

namespace Playbook

/-- The decimal `digits * 10 ^ exponent`. -/
structure DecimalForm where
  digits : Nat
  exponent : Int
deriving DecidableEq, Inhabited

namespace Binary64

/-- The magnitude of a finite number as a quotient. -/
def ratio (mantissa : Nat) (exponent : Int) : Nat × Nat :=
  (mantissa * Nat.pow 2 exponent.toNat, Nat.pow 2 (-exponent).toNat)

/-- The power of ten of the leading digit of a positive quotient that is at least one or below one
and no power of ten. -/
def leadingPower (num den : Nat) : Int :=
  if den ≤ num then (Nat.toDigits 10 (num / den)).length - 1
  else -((Nat.toDigits 10 (den / num)).length : Int)

/-- Whether a decimal reads back as the number with this magnitude. -/
def readsBack (mantissa : Nat) (exponent : Int) (d : DecimalForm) : Bool :=
  match ofDecimal false d.digits d.exponent with
  | .finite _ m e _ => m = mantissa && e = exponent
  | _ => false

/-- The decimal for a magnitude on the grid of multiples of `10 ^ power`, if one reads back. -/
def onGrid (mantissa : Nat) (exponent power : Int) (num den : Nat) : Option DecimalForm :=
  let n := num * Nat.pow 10 (-power).toNat
  let d := den * Nat.pow 10 power.toNat
  let low := n / d
  let rest := n % d
  let below : DecimalForm := ⟨low, power⟩
  let above : DecimalForm := ⟨low + 1, power⟩
  let nearer :=
    if 2 * rest < d then [below, above]
    else if d < 2 * rest then [above, below]
    else if low % 2 = 0 then [below, above]
    else [above, below]
  nearer.find? (readsBack mantissa exponent)

/-- The decimal for a magnitude on the first of `grids` grids that has one, the first of them with
`count` digits. -/
def firstGrid (mantissa : Nat) (exponent leading : Int) (num den : Nat) :
    Nat → Nat → Option DecimalForm
  | 0, _ => none
  | grids + 1, count =>
    match onGrid mantissa exponent (leading - count + 1) num den with
    | some d => some d
    | none => firstGrid mantissa exponent leading num den grids (count + 1)

/-- A magnitude written exactly. -/
def exactForm (mantissa : Nat) (exponent : Int) : DecimalForm :=
  if 0 ≤ exponent then ⟨mantissa * Nat.pow 2 exponent.toNat, 0⟩
  else ⟨mantissa * Nat.pow 5 (-exponent).toNat, exponent⟩

/-- The shortest decimal of a positive magnitude. -/
def shortest (mantissa : Nat) (exponent : Int) : DecimalForm :=
  let (num, den) := ratio mantissa exponent
  (firstGrid mantissa exponent (leadingPower num den) num den 17 1).getD
    (exactForm mantissa exponent)

/-- Digits with a point after the first `place` of them, a zero on either side that is empty. -/
def positional (digits : List Char) (place : Int) : List Char :=
  if place ≤ 0 then
    '0' :: '.' :: List.replicate (-place).toNat '0' ++ digits
  else
    let whole := digits.take place.toNat ++ List.replicate (place.toNat - digits.length) '0'
    let fraction := digits.drop place.toNat
    whole ++ '.' :: (if fraction.isEmpty then ['0'] else fraction)

/-- Digits with a point after the first and a signed exponent of at least two digits. -/
def exponential (digits : List Char) (power : Int) : List Char :=
  let fraction := digits.drop 1
  let size := (Nat.toDigits 10 power.natAbs)
  digits.take 1 ++ (if fraction.isEmpty then [] else '.' :: fraction) ++
    'e' :: (if power < 0 then '-' else '+') ::
      (if size.length < 2 then '0' :: size else size)

/-- Decimals from `10 ^ -4` up to but without `10 ^ 16` are written positionally, others with an
exponent; zeros at the end of the digits are left out. -/
def writeForm (d : DecimalForm) : List Char :=
  let all := Nat.toDigits 10 d.digits
  let power : Int := d.exponent + all.length - 1
  let digits := (all.reverse.dropWhile (· = '0')).reverse
  if -4 ≤ power ∧ power < 16 then positional digits (power + 1) else exponential digits power

/-- The text of a number: its shortest decimal after the sign, or a word. -/
def text : Binary64 → String
  | .nan => "nan"
  | .infinite negative => if negative then "-inf" else "inf"
  | .finite negative m e _ =>
    let magnitude := if m = 0 then ['0', '.', '0'] else writeForm (shortest m e)
    String.ofList (if negative then '-' :: magnitude else magnitude)

end Binary64

end Playbook
