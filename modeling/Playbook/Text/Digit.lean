/-!
# Decimal digits

A decimal digit of any script stands for its value. A run of digits may be grouped by single
underscores, each between two digits.
-/

namespace Playbook.Text

/-- The code points of the digit zero of each script; the nine other digits follow it. -/
def zeroDigits : List Nat :=
  [0x30, 0x660, 0x6f0, 0x7c0, 0x966, 0x9e6, 0xa66, 0xae6, 0xb66, 0xbe6, 0xc66, 0xce6, 0xd66, 0xde6,
    0xe50, 0xed0, 0xf20, 0x1040, 0x1090, 0x17e0, 0x1810, 0x1946, 0x19d0, 0x1a80, 0x1a90, 0x1b50,
    0x1bb0, 0x1c40, 0x1c50, 0xa620, 0xa8d0, 0xa900, 0xa9d0, 0xa9f0, 0xaa50, 0xabf0, 0xff10, 0x104a0,
    0x10d30, 0x11066, 0x110f0, 0x11136, 0x111d0, 0x112f0, 0x11450, 0x114d0, 0x11650, 0x116c0,
    0x11730, 0x118e0, 0x11950, 0x11c50, 0x11d50, 0x11da0, 0x16a60, 0x16ac0, 0x16b50, 0x1d7ce,
    0x1d7d8, 0x1d7e2, 0x1d7ec, 0x1d7f6, 0x1e140, 0x1e2f0, 0x1e950, 0x1fbf0]

/-- The value of a decimal digit of any script. -/
def digit? (c : Char) : Option Nat :=
  (zeroDigits.find? fun z => z ≤ c.toNat && c.toNat < z + 10).map (c.toNat - ·)

/-- The value of an ASCII digit. -/
def asciiDigit? (c : Char) : Option Nat :=
  if c.isDigit then some (c.toNat - 48) else none

/-- The value of a hexadecimal digit in either case. -/
def hexDigit? (c : Char) : Option Nat :=
  let n := c.toNat
  if 48 ≤ n && n ≤ 57 then some (n - 48)
  else if 97 ≤ n && n ≤ 102 then some (n - 87)
  else if 65 ≤ n && n ≤ 70 then some (n - 55)
  else none

/-- The number that a list of digits writes in a base, leading digit first. -/
def ofDigits (base : Nat) (digits : List Nat) : Nat :=
  digits.foldl (fun n d => base * n + d) 0

/-- The digits at the start of a text, grouping underscores left out, and the rest. `inside` says
that a digit stands just before the text, so that an underscore may follow. -/
def digitRun (inside : Bool) : List Char → List Nat × List Char
  | [] => ([], [])
  | c :: rest =>
    match digit? c with
    | some d =>
      let (digits, after) := digitRun true rest
      (d :: digits, after)
    | none =>
      if inside && c = '_' && (rest.head?.bind digit?).isSome then digitRun false rest
      else ([], c :: rest)

/-- The ASCII digits at the start of a text, and the rest. -/
def asciiDigitRun : List Char → List Nat × List Char
  | [] => ([], [])
  | c :: rest =>
    match asciiDigit? c with
    | some d =>
      let (digits, after) := asciiDigitRun rest
      (d :: digits, after)
    | none => ([], c :: rest)

/-- A leading sign, true for minus, and the rest. -/
def signed : List Char → Bool × List Char
  | '-' :: rest => (true, rest)
  | '+' :: rest => (false, rest)
  | text => (false, text)

end Playbook.Text
