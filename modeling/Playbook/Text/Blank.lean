/-!
# Blank characters

Three sets of characters that count as blank: the ASCII blanks, those around which a number text
may be padded, and those that trimming removes.
-/

namespace Playbook.Text

/-- Tab, line feed, vertical tab, form feed, carriage return and space. -/
def isAsciiBlank (c : Char) : Bool :=
  c = ' ' || (9 ≤ c.toNat && c.toNat ≤ 13)

/-- The non-ASCII characters with the White_Space property. -/
def isWideBlank (c : Char) : Bool :=
  let n := c.toNat
  n = 0x85 || n = 0xA0 || n = 0x1680 || (0x2000 ≤ n && n ≤ 0x200A) || n = 0x2028 || n = 0x2029 ||
    n = 0x202F || n = 0x205F || n = 0x3000

/-- What may stand around a number. -/
def isPadding (c : Char) : Bool :=
  isAsciiBlank c || isWideBlank c

/-- What trimming removes: white space and the four information separators. -/
def isBlank (c : Char) : Bool :=
  isPadding c || (0x1C ≤ c.toNat && c.toNat ≤ 0x1F)

/-- The text without the characters of a class at its two ends. -/
def stripBy (p : Char → Bool) (text : List Char) : List Char :=
  ((text.dropWhile p).reverse.dropWhile p).reverse

/-- The text without blanks at its two ends. -/
def trim (text : List Char) : List Char :=
  stripBy isBlank text

/-- The text without blanks at its two ends. -/
def trimmed (text : String) : String :=
  String.ofList (trim text.toList)

/-- Whether a text holds nothing but blanks. -/
def isAllBlank (text : String) : Bool :=
  text.toList.all isBlank

end Playbook.Text
