import Playbook.Text.Search
import Playbook.Text.Visible
/-!
# Text in quotes

A text is shown between single quotes, or between double quotes when it holds a single quote and no
double one. The quote in use, the backslash and characters without a visible form are escaped.
-/

namespace Playbook.Text

/-- The hexadecimal digits of a number, at least `width` of them. -/
def hex (width n : Nat) : List Char :=
  let digits := Nat.toDigits 16 n
  List.replicate (width - digits.length) '0' ++ digits

/-- A character as it is shown between two `quote` characters. -/
def showChar (quote c : Char) : List Char :=
  let n := c.toNat
  if c = quote || c = '\\' then ['\\', c]
  else if c = '\n' then ['\\', 'n']
  else if c = '\r' then ['\\', 'r']
  else if c = '\t' then ['\\', 't']
  else if isVisible c then [c]
  else if n < 0x100 then '\\' :: 'x' :: hex 2 n
  else if n < 0x10000 then '\\' :: 'u' :: hex 4 n
  else '\\' :: 'U' :: hex 8 n

/-- The quotes for a text. -/
def quoteFor (chars : List Char) : Char :=
  let single := '\x27'
  let double := '\x22'
  if chars.contains single && !chars.contains double then double else single

/-- A text between quotes. -/
def quoted (text : String) : String :=
  let chars := text.toList
  let quote := quoteFor chars
  String.ofList (quote :: chars.flatMap (showChar quote) ++ [quote])

end Playbook.Text
