/-!
# White space

The characters with the White_Space property, and text without them at its ends.
-/

namespace ClusterConfig.Text

/-- The character has the White_Space property. -/
def isBlank (c : Char) : Bool :=
  let n := c.toNat
  (9 ≤ n && n ≤ 13) || n == 0x20 || n == 0x85 || n == 0xA0 || n == 0x1680 || (0x2000 ≤ n && n ≤ 0x200A) ||
    n == 0x2028 || n == 0x2029 || n == 0x202F || n == 0x205F || n == 0x3000

/-- The text between white space at its ends. -/
def trim (s : String) : String :=
  String.ofList ((s.toList.dropWhile isBlank).reverse.dropWhile isBlank).reverse

/-- ASCII letters in lower case; other characters are kept. -/
def lowerAscii (s : String) : String := s.map Char.toLower

end ClusterConfig.Text
