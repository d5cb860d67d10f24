import Playbook.Text.Blank
import Playbook.Text.Digit
/-!
# Integer text

Integers are written in decimal without leading zeros. A text of more than `digitLimit` digits is
neither written nor read.
-/

namespace Playbook.Text

/-- The most digits that an integer text may have. -/
def digitLimit : Nat := 4300

/-- The decimal digits of an integer after its sign. -/
def integerText (i : Int) : String :=
  match i with
  | .ofNat n => n.repr
  | .negSucc n => "-" ++ (n + 1).repr

/-- The decimal text of an integer; none when it has too many digits. -/
def printInteger? (i : Int) : Option String :=
  if i.natAbs < Nat.pow 10 digitLimit then some (integerText i) else none

/-- The least number of too many digits. -/
def leastUnprinted : Int := (Nat.pow 10 digitLimit : Nat)

theorem printInteger?_leastUnprinted : printInteger? leastUnprinted = none := by
  rw [printInteger?, leastUnprinted, Int.natAbs_natCast, if_neg (Nat.lt_irrefl _)]

theorem printInteger?_of_isSome {i : Int} (h : (printInteger? i).isSome = true) :
    printInteger? i = some (integerText i) := by
  unfold printInteger? at h ⊢
  split at h
  · rename_i hi
    exact if_pos hi
  · cases h

theorem lt_pow_digitLimit {n : Nat} (h : n ≤ digitLimit) : n < Nat.pow 10 digitLimit := by
  have hten : ∀ m, m < Nat.pow 10 m := fun m => Nat.lt_pow_self (by decide)
  exact Nat.lt_of_le_of_lt h (hten digitLimit)

theorem isSome_printInteger?_of_le {i : Int} (h : i.natAbs ≤ digitLimit) :
    (printInteger? i).isSome = true := by
  rw [printInteger?, if_pos (lt_pow_digitLimit h)]
  rfl

/-- An integer without its padding: a sign, then a run of digits. -/
def bareInteger? (text : List Char) : Option Int :=
  let (negative, digits) := signed text
  match digitRun false digits with
  | ([], _) => none
  | (_, _ :: _) => none
  | (digits, []) =>
    if digits.length ≤ digitLimit then
      let n : Int := ofDigits 10 digits
      some (if negative then -n else n)
    else none

/-- The integer that a text writes, with blanks around it left out. -/
def readInteger? (text : String) : Option Int :=
  bareInteger? (stripBy isPadding text.toList)

/-- A number in at least `width` digits, with leading zeros. -/
def padded (width n : Nat) : String :=
  let digits := n.repr
  String.ofList (List.replicate (width - digits.length) '0') ++ digits

end Playbook.Text
