/-!
# Blank characters

A host name or a token that a person typed may carry white space around it.
White space is the Unicode property `White_Space`, twenty-five characters in
ten runs, so a no-break space or an ideographic space is dropped just like a
plain one.

* `isBlank`: membership in the property.
* `trim`: a text without the blanks at its two ends.
* `isBlankText`: nothing but blanks.
-/

namespace ShardLoad.Text

/-- The characters with the Unicode property `White_Space`. -/
def isBlank (c : Char) : Bool :=
  let n := c.toNat
  (9 ≤ n && n ≤ 13) || n == 0x20 || n == 0x85 || n == 0xA0 || n == 0x1680
    || (0x2000 ≤ n && n ≤ 0x200A) || n == 0x2028 || n == 0x2029 || n == 0x202F
    || n == 0x205F || n == 0x3000

/-- The characters of a text without the blanks that lead it and end it. -/
def trimChars (cs : List Char) : List Char :=
  ((cs.dropWhile isBlank).reverse.dropWhile isBlank).reverse

/-- A text without the blanks that lead it and end it. -/
def trim (s : String) : String := String.ofList (trimChars s.toList)

/-- A text of blanks only, the empty one included. -/
def isBlankText (s : String) : Bool := s.toList.all isBlank

end ShardLoad.Text
