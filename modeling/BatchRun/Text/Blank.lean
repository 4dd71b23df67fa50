/-!
# White space

**Input.**
A sequence of characters.

**Results.**
`trim` removes white space at both ends; `segments` cuts at line feeds; `filledLines` gives the
trimmed lines that are not empty.  A carriage return before a line feed is white space at the
end of its line, so it needs no rule of its own.
-/

namespace BatchRun
namespace Text

/-- White space as Unicode defines it. -/
def isBlank (c : Char) : Bool :=
  let n := c.toNat
  (9 ≤ n && n ≤ 13) || n == 0x20 || n == 0x85 || n == 0xA0 || n == 0x1680
    || (0x2000 ≤ n && n ≤ 0x200A) || n == 0x2028 || n == 0x2029 || n == 0x202F
    || n == 0x205F || n == 0x3000

/-- White space among bytes: the blank, the tabulator, and the ends of lines and pages. -/
def isBlankByte (byte : UInt8) : Bool :=
  byte == 32 || byte == 9 || byte == 10 || byte == 12 || byte == 13

/-- A sequence without white space at its ends. -/
def trim (cs : List Char) : List Char :=
  ((cs.dropWhile isBlank).reverse.dropWhile isBlank).reverse

/-- A text without white space at its ends. -/
def trimText (text : String) : String := String.ofList (trim text.toList)

/-- Pieces between line feeds; there is one more of them than there are line feeds. -/
def segments : List Char → List (List Char)
  | [] => [[]]
  | c :: cs =>
    if c = '\n' then [] :: segments cs
    else
      match segments cs with
      | [] => [[c]]
      | line :: lines => (c :: line) :: lines

/-- Trimmed lines of a text, the empty ones left out. -/
def filledLines (text : String) : List (List Char) :=
  ((segments text.toList).map trim).filter (fun line => !line.isEmpty)

end Text
end BatchRun
