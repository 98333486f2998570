/-! # Line breaks

Two ideas of where a line ends. The common one knows a line feed, a carriage return and the pair of
both; the wide one adds the form feed, the vertical tab, three information separators, the next-line
control and the two Unicode separators. -/

namespace EsilLowering.Text

/-- Writes each carriage return, alone or before a line feed, as one line feed. -/
def unifyBreaks : List Char → List Char
  | [] => []
  | '\r' :: '\n' :: rest => '\n' :: unifyBreaks rest
  | c :: rest => (if c = '\r' then '\n' else c) :: unifyBreaks rest

/-- Writes each carriage return that stands before a line feed as nothing. -/
def collapseBreaks : List Char → List Char
  | [] => []
  | '\r' :: '\n' :: rest => '\n' :: collapseBreaks rest
  | c :: rest => c :: collapseBreaks rest

/-- The characters that end a line in the wide sense. -/
def isWideBreak (c : Char) : Bool :=
  let n := c.toNat
  (0x0a ≤ n && n ≤ 0x0d) || (0x1c ≤ n && n ≤ 0x1e) || n == 0x85 || n == 0x2028 || n == 0x2029

/-- The lines of a text that common breaks end. -/
def commonLines (text : String) : List String :=
  ((unifyBreaks text.toList).splitOn '\n').map String.ofList

/-- The lines of a text that wide breaks end. -/
def wideLines (text : String) : List String :=
  ((unifyBreaks text.toList).splitOnP isWideBreak).map String.ofList

end EsilLowering.Text
