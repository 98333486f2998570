/-! # Blanks

The characters that count as blank space around a text, and the text without them at its two ends. -/

namespace EsilLowering.Text

/-- Blank space in any script: the controls that move the cursor, the four information separators
and the spaces and line ends beyond ASCII. -/
def isBlank (c : Char) : Bool :=
  let n := c.toNat
  (0x09 ≤ n && n ≤ 0x0d) || (0x1c ≤ n && n ≤ 0x20) || n == 0x85 || n == 0xa0 || n == 0x1680 ||
    (0x2000 ≤ n && n ≤ 0x200a) || n == 0x2028 || n == 0x2029 || n == 0x202f || n == 0x205f || n == 0x3000

/-- One of the four information separators, which end a line or a record but are no space. -/
def isInformationSeparator (c : Char) : Bool :=
  let n := c.toNat
  0x1c ≤ n && n ≤ 0x1f

/-- Blank space that is no information separator. -/
def isSpace (c : Char) : Bool :=
  isBlank c && !isInformationSeparator c

/-- The characters between the first and the last one that fail the test. -/
def trimmed (test : Char → Bool) (chars : List Char) : List Char :=
  ((chars.dropWhile test).reverse.dropWhile test).reverse

/-- A text without the blanks at its two ends. -/
def trim (text : String) : String :=
  String.ofList (trimmed isBlank text.toList)

end EsilLowering.Text
