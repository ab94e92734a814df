/-! # Blanks

The characters that leave a blank on the page: the ASCII controls that move the print position, the
space, and the spaces and separators of Unicode.
-/
namespace SpaceLink.Text

/-- Single code points, and the ranges from tab to carriage return and from en quad to hair space. -/
def isBlank (c : Char) : Bool :=
  let n := c.toNat
  (0x09 ≤ n && n ≤ 0x0D) || (0x2000 ≤ n && n ≤ 0x200A) ||
    [0x20, 0x85, 0xA0, 0x1680, 0x2028, 0x2029, 0x202F, 0x205F, 0x3000].contains n

def trimStart (text : List Char) : List Char := text.dropWhile isBlank

def trim (text : List Char) : List Char := (trimStart (trimStart text).reverse).reverse

end SpaceLink.Text
