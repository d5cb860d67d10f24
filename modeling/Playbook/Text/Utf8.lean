/-!
# Text from bytes

UTF-8 with every ill-formed part replaced by one U+FFFD. An ill-formed part is as long as the bytes
could still have begun a character.
-/

namespace Playbook.Text

/-- For the first byte of a character of several bytes: how many follow, the part of the code point
that it carries, and the range of the second byte. -/
def leadByte? (b : Nat) : Option (Nat × Nat × Nat × Nat) :=
  if 0xC2 ≤ b && b ≤ 0xDF then some (1, b - 0xC0, 0x80, 0xBF)
  else if b = 0xE0 then some (2, 0, 0xA0, 0xBF)
  else if b = 0xED then some (2, 13, 0x80, 0x9F)
  else if 0xE1 ≤ b && b ≤ 0xEF then some (2, b - 0xE0, 0x80, 0xBF)
  else if b = 0xF0 then some (3, 0, 0x90, 0xBF)
  else if b = 0xF4 then some (3, 4, 0x80, 0x8F)
  else if 0xF1 ≤ b && b ≤ 0xF3 then some (3, b - 0xF0, 0x80, 0xBF)
  else none

/-- What stands for an ill-formed part. -/
def replacement : Char := Char.ofNat 0xFFFD

/-- Decodes bytes inside a character: `owed` bytes are still to come, the next one from `low` to
`high`, and `code` is what the bytes so far carry. With none owed a new character starts. -/
def decodeFrom (owed code low high : Nat) : List Nat → List Char
  | [] => if owed = 0 then [] else [replacement]
  | b :: rest =>
    if owed ≠ 0 && low ≤ b && b ≤ high then
      let code' := code * 64 + (b - 0x80)
      if owed = 1 then Char.ofNat code' :: decodeFrom 0 0 0 0 rest
      else decodeFrom (owed - 1) code' 0x80 0xBF rest
    else
      let lost := if owed = 0 then [] else [replacement]
      if b < 0x80 then lost ++ Char.ofNat b :: decodeFrom 0 0 0 0 rest
      else
        match leadByte? b with
        | some (count, part, low', high') => lost ++ decodeFrom count part low' high' rest
        | none => lost ++ replacement :: decodeFrom 0 0 0 0 rest

/-- The text that bytes encode. -/
def decodeUtf8 (bytes : List Nat) : String :=
  String.ofList (decodeFrom 0 0 0 0 bytes)

end Playbook.Text
