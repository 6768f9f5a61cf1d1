/-! # Blanks, lines and ends of texts

A blank is a character with the Unicode property `White_Space`. Trimming takes the blanks off both
ends of a text, and the last line that trimming leaves something of is the summary of a long text.
-/

namespace Dataflow.Text

/-- The characters with the Unicode property `White_Space`. -/
def isBlank (c : Char) : Bool :=
  let n := c.toNat
  (0x09 ≤ n && n ≤ 0x0D) || n == 0x20 || n == 0x85 || n == 0xA0 || n == 0x1680 ||
    (0x2000 ≤ n && n ≤ 0x200A) || n == 0x2028 || n == 0x2029 || n == 0x202F || n == 0x205F ||
    n == 0x3000

/-- The characters that are left when the blanks at both ends are taken off. -/
def trimmed (cs : List Char) : List Char :=
  ((cs.dropWhile isBlank).reverse.dropWhile isBlank).reverse

/-- A text without the blanks at its ends. -/
def trim (s : String) : String :=
  String.ofList (trimmed s.toList)

/-- The pieces of a list between the separators, one more than there are separators. -/
def pieces (separator : Char) : List Char → List (List Char)
  | [] => [[]]
  | c :: cs =>
    if c = separator then [] :: pieces separator cs
    else
      match pieces separator cs with
      | [] => [[c]]
      | piece :: more => (c :: piece) :: more

/-- The last line that holds more than blanks, trimmed. A line ends at a line feed; a carriage
return before it is a blank like any other. -/
def lastLine? (s : String) : Option String :=
  ((pieces '\n' s.toList).map trimmed).reverse.find? (· ≠ []) |>.map String.ofList

end Dataflow.Text
