/-!
# Blank characters

The white space that is dropped around addresses, flag names and instants.  It is the set of
characters with the Unicode property `White_Space`, which has 25 members and is closed: no later
edition of the standard has added one.  `Text.trim` drops them from both ends of a text and
`Text.trimStart` from the front alone.  JSON has its own, smaller, notion of blank
(`Json.isBlank`); the two are never mixed.
-/

namespace TraceFold.Text

/-- A character with the Unicode property `White_Space`. -/
def isBlank (c : Char) : Bool :=
  let n := c.toNat
  (9 ≤ n && n ≤ 13) || n == 0x20 || n == 0x85 || n == 0xA0 || n == 0x1680
    || (0x2000 ≤ n && n ≤ 0x200A) || n == 0x2028 || n == 0x2029 || n == 0x202F
    || n == 0x205F || n == 0x3000

/-- A text without its leading blanks. -/
def trimStart (cs : List Char) : List Char :=
  cs.dropWhile isBlank

/-- A text without its trailing blanks. -/
def trimEnd (cs : List Char) : List Char :=
  (cs.reverse.dropWhile isBlank).reverse

/-- A text without the blanks at either end; blanks inside it stay. -/
def trim (cs : List Char) : List Char :=
  trimEnd (trimStart cs)

end TraceFold.Text
