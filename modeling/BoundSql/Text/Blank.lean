/-!
# Blank characters

Which characters count as blank, and the text that is left when the blanks around it are removed.

Blank is the `White_Space` property of Unicode: twenty-five characters, among them the no-break
space `U+00A0` and the ideographic space `U+3000`, but not the separators `U+001C`–`U+001F`, the
zero-width space `U+200B` or the byte-order mark `U+FEFF`.

    trim "  a b \t" = "a b"        isBlank "\u3000" = true
-/

namespace BoundSql.Text

/-- The `White_Space` property of Unicode. -/
def isBlankChar (c : Char) : Bool :=
  let n := c.toNat
  (0x09 ≤ n && n ≤ 0x0D) || n == 0x20 || n == 0x85 || n == 0xA0 || n == 0x1680 ||
    (0x2000 ≤ n && n ≤ 0x200A) || n == 0x2028 || n == 0x2029 || n == 0x202F || n == 0x205F ||
    n == 0x3000

/-- The characters without the blanks at either end. -/
def trimChars (cs : List Char) : List Char :=
  ((cs.dropWhile isBlankChar).reverse.dropWhile isBlankChar).reverse

def trim (s : String) : String := String.ofList (trimChars s.toList)

/-- Nothing but blanks, or nothing at all. -/
def isBlank (s : String) : Bool := s.toList.all isBlankChar

end BoundSql.Text
