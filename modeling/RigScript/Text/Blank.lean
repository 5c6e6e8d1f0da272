/-!
# Blank characters

Blank characters are those with the property White_Space. They matter at the end of a text that is
quoted in a message, where they are dropped.

## Main definitions

* `RigScript.Text.isBlank`: the property
* `RigScript.Text.trimEnd`: a text without the blanks at its end
-/

namespace RigScript.Text

/-- The property White_Space. -/
def isBlank (c : Char) : Bool :=
  let n := c.toNat
  (0x09 ≤ n && n ≤ 0x0d) || n == 0x20 || n == 0x85 || n == 0xa0 || n == 0x1680 ||
    (0x2000 ≤ n && n ≤ 0x200a) || n == 0x2028 || n == 0x2029 || n == 0x202f || n == 0x205f ||
    n == 0x3000

/-- Drops the blank characters at the end of a text. -/
def trimEnd (s : String) : String :=
  String.ofList (s.toList.reverse.dropWhile isBlank).reverse

end RigScript.Text
