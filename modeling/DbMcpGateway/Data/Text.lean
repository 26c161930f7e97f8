import Mathlib.Tactic.Common

/-!
# Text helpers of the Rust standard library

The few `str` and `char` operations the gateway's checks are built from. They
work on the list of characters, so that they evaluate on concrete texts.
-/

namespace DbMcpGateway.Text

/-- `char::is_whitespace`: the Unicode `White_Space` property. -/
def isWhitespace (c : Char) : Bool :=
  let n := c.toNat
  (9 ≤ n && n ≤ 13) || n == 0x20 || n == 0x85 || n == 0xA0 || n == 0x1680 ||
    (0x2000 ≤ n && n ≤ 0x200A) || n == 0x2028 || n == 0x2029 || n == 0x202F || n == 0x205F ||
    n == 0x3000

/-- `s.trim().is_empty()`. -/
def isBlank (s : String) : Bool := s.toList.all isWhitespace

/-- `str::trim`. -/
def trim (s : String) : String :=
  String.ofList ((s.toList.dropWhile isWhitespace).reverse.dropWhile isWhitespace).reverse

/-- The text contains U+0000. -/
def hasNul (s : String) : Bool := s.toList.any fun c => c == Char.ofNat 0

/-- `str::to_ascii_lowercase`, as a list of characters. -/
def asciiLowercase (s : String) : List Char := s.toList.map Char.toLower

/-- `a.eq_ignore_ascii_case(b)`. -/
def eqIgnoreAsciiCase (a b : String) : Bool := asciiLowercase a == asciiLowercase b

/-- `char::is_ascii_alphabetic`. -/
def isAsciiAlphabetic (c : Char) : Bool := c.isAlpha

/-- `char::is_ascii_alphanumeric`. -/
def isAsciiAlphanumeric (c : Char) : Bool := c.isAlphanum

/-- `char::is_ascii_lowercase`. -/
def isAsciiLowercase (c : Char) : Bool := c.isLower

/-- `char::is_ascii_digit`. -/
def isAsciiDigit (c : Char) : Bool := c.isDigit

end DbMcpGateway.Text
