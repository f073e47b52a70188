/-! Blank characters and the trimming of a text. The class is the Unicode property White_Space,
so line separators and the wide spaces are blank too. -/
namespace RouteForge.Text

/-- White_Space: tab to carriage return, space, next line, and the separators above Latin-1. -/
def isBlank (c : Char) : Bool :=
  let n := c.toNat
  (9 ≤ n && n ≤ 13) || n == 0x20 || n == 0x85 || n == 0xa0 || n == 0x1680 ||
    (0x2000 ≤ n && n ≤ 0x200a) || n == 0x2028 || n == 0x2029 || n == 0x202f || n == 0x205f ||
    n == 0x3000

def trimStart (cs : List Char) : List Char := cs.dropWhile isBlank

def trimEnd (cs : List Char) : List Char := (cs.reverse.dropWhile isBlank).reverse

/-- Drops the blank characters at both ends, and only there. -/
def trim (cs : List Char) : List Char := trimEnd (trimStart cs)

end RouteForge.Text
