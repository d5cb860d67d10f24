/-!
# Binary floating-point numbers of 64 bits

A finite number is a signed mantissa times a power of two in its one canonical form, so equality of
representations is the identity of numbers, the two zeros apart. Arithmetic is exact arithmetic on
integers followed by one rounding to nearest, ties to even; nothing depends on machine floats.
-/

namespace Playbook

/-- The canonical form: 53 bits of mantissa, fewer only at the smallest exponent. -/
def Canonical (mantissa : Nat) (exponent : Int) : Prop :=
  mantissa < Nat.pow 2 53 ∧ -1074 ≤ exponent ∧ exponent ≤ 971 ∧
    (Nat.pow 2 52 ≤ mantissa ∨ exponent = -1074)

instance (mantissa : Nat) (exponent : Int) : Decidable (Canonical mantissa exponent) :=
  inferInstanceAs (Decidable (_ ∧ _))

/-- A floating-point number: the value of `finite` is the signed mantissa times `2 ^ exponent`. -/
inductive Binary64 where
  | nan
  | infinite (negative : Bool)
  | finite (negative : Bool) (mantissa : Nat) (exponent : Int)
      (canonical : Canonical mantissa exponent)
deriving DecidableEq

namespace Binary64

/-- Zero of either sign. -/
def signedZero (negative : Bool) : Binary64 :=
  .finite negative 0 (-1074) (by decide)

instance : Inhabited Binary64 := ⟨signedZero false⟩

/-- The nearest integer to a quotient, the even one of two. -/
def roundQuotient (num den : Nat) : Nat :=
  let q := num / den
  let r := num % den
  if 2 * r < den then q
  else if den < 2 * r then q + 1
  else q + q % 2

/-- A quotient scaled down by a power of two, as numerator and denominator. -/
def scaleDown (num den : Nat) (exponent : Int) : Nat × Nat :=
  (num * Nat.pow 2 (-exponent).toNat, den * Nat.pow 2 exponent.toNat)

/-- The exponent of the binade of a positive quotient: the largest `k` with `2 ^ k ≤ num / den`. -/
def binade (num den : Nat) : Int :=
  let k : Int := (num.log2 : Int) - den.log2
  let (n, d) := scaleDown num den k
  if n < d then k - 1 else k

/-- A mantissa of at most 53 bits, or the next power of two, at an exponent; past the largest
finite number it is infinite. -/
def ofParts (negative : Bool) (mantissa : Nat) (exponent : Int) : Binary64 :=
  if h : Canonical mantissa exponent then .finite negative mantissa exponent h
  else if h : mantissa = Nat.pow 2 53 ∧ Canonical (Nat.pow 2 52) (exponent + 1) then
    .finite negative (Nat.pow 2 52) (exponent + 1) h.2
  else .infinite negative

/-- The number nearest to a quotient, ties to even. -/
def ofRatio (negative : Bool) (num den : Nat) : Binary64 :=
  if num = 0 ∨ den = 0 then signedZero negative
  else
    let exponent := max (binade num den - 52) (-1074)
    let (n, d) := scaleDown num den exponent
    ofParts negative (roundQuotient n d) exponent

/-- The number nearest to `coefficient * 10 ^ exponent`. Outside of the range of finite numbers the
answer needs no arithmetic. -/
def ofDecimal (negative : Bool) (coefficient : Nat) (exponent : Int) : Binary64 :=
  if coefficient = 0 then signedZero negative
  else
    let digits : Int := (Nat.toDigits 10 coefficient).length
    if 310 < digits + exponent then .infinite negative
    else if digits + exponent < -326 then signedZero negative
    else ofRatio negative (coefficient * Nat.pow 10 exponent.toNat) (Nat.pow 10 (-exponent).toNat)

/-- The number nearest to an integer; none when that is past the largest finite number. -/
def ofInt? (i : Int) : Option Binary64 :=
  match ofRatio (i < 0) i.natAbs 1 with
  | .infinite _ => none
  | x => some x

/-- The number nearest to an integer. -/
def ofInt (i : Int) : Binary64 :=
  ofRatio (i < 0) i.natAbs 1

/-- The value of a finite number in units of the smallest positive one. -/
def units (negative : Bool) (mantissa : Nat) (exponent : Int) : Int :=
  let n : Int := mantissa * Nat.pow 2 (exponent + 1074).toNat
  if negative then -n else n

/-- Order of numbers; nothing is below or above `nan`, and the two zeros are equal. -/
def lt : Binary64 → Binary64 → Bool
  | .nan, _ | _, .nan => false
  | .infinite n, .infinite m => n && !m
  | .infinite n, .finite .. => n
  | .finite .., .infinite m => !m
  | .finite n a e _, .finite m b f _ => units n a e < units m b f

/-- Equality of numbers: `nan` differs from itself and the two zeros are equal. -/
def eq : Binary64 → Binary64 → Bool
  | .nan, _ | _, .nan => false
  | .infinite n, .infinite m => n == m
  | .finite n a e _, .finite m b f _ => units n a e == units m b f
  | _, _ => false

def le (x y : Binary64) : Bool :=
  lt x y || eq x y

def negate : Binary64 → Binary64
  | .nan => .nan
  | .infinite n => .infinite (!n)
  | .finite n m e h => .finite (!n) m e h

/-- The exact sum, rounded once. -/
def add : Binary64 → Binary64 → Binary64
  | .nan, _ | _, .nan => .nan
  | .infinite n, .infinite m => if n = m then .infinite n else .nan
  | .infinite n, .finite .. => .infinite n
  | .finite .., .infinite m => .infinite m
  | .finite n a e _, .finite m b f _ =>
    let sum := units n a e + units m b f
    if sum = 0 then signedZero (n && m)
    else ofRatio (sum < 0) sum.natAbs (Nat.pow 2 1074)

instance : Add Binary64 := ⟨add⟩
instance : Neg Binary64 := ⟨negate⟩
instance : Sub Binary64 := ⟨fun x y => add x (negate y)⟩
instance : LT Binary64 := ⟨fun x y => lt x y = true⟩
instance : LE Binary64 := ⟨fun x y => le x y = true⟩
instance : DecidableLT Binary64 := fun x y => inferInstanceAs (Decidable (lt x y = true))
instance : DecidableLE Binary64 := fun x y => inferInstanceAs (Decidable (le x y = true))

/-- The integer part, toward zero; none for `nan` and the infinities. -/
def truncate? : Binary64 → Option Int
  | .finite negative m e _ =>
    let n : Int := m * Nat.pow 2 e.toNat / Nat.pow 2 (-e).toNat
    some (if negative then -n else n)
  | _ => none

/-- Whether the number is zero of either sign. -/
def isZero : Binary64 → Bool
  | .finite _ m _ _ => m = 0
  | _ => false

end Binary64

end Playbook
