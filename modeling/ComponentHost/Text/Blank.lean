/-! # Blank characters

  The characters with the Unicode property `White_Space`, and trimming by it.
-/

namespace ComponentHost.Text

/-- The code points with the property `White_Space`. -/
def blanks : List Nat :=
  [0x9, 0xa, 0xb, 0xc, 0xd, 0x20, 0x85, 0xa0, 0x1680, 0x2000, 0x2001, 0x2002, 0x2003, 0x2004,
   0x2005, 0x2006, 0x2007, 0x2008, 0x2009, 0x200a, 0x2028, 0x2029, 0x202f, 0x205f, 0x3000]

def isBlank (c : Char) : Bool := blanks.contains c.toNat

/-- The text without the blanks at its start and end. -/
def trim (s : String) : String :=
  String.ofList (((s.toList.dropWhile isBlank).reverse.dropWhile isBlank).reverse)

/-- A word as settings compare it: trimmed, its letters A to Z lowered. No other letter lowers to
    a text of the words that settings know, none of which has a `k`. -/
def plainWord (s : String) : String := (trim s).map Char.toLower

end ComponentHost.Text
