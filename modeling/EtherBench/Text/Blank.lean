/-!
# Blanks

Operator text is trimmed and cut at the characters that Unicode calls white
space.
-/

namespace EtherBench.Text

def isBlank (c : Char) : Bool :=
  let n := c.toNat
  (0x9 ≤ n && n ≤ 0xD) || n == 0x20 || n == 0x85 || n == 0xA0 || n == 0x1680 ||
    (0x2000 ≤ n && n ≤ 0x200A) || n == 0x2028 || n == 0x2029 || n == 0x202F || n == 0x205F ||
    n == 0x3000

def trimEnd (s : String) : String :=
  String.ofList (s.toList.reverse.dropWhile isBlank).reverse

/-- The first run of characters that are not blank; empty where there is none. -/
def firstWord (s : String) : String :=
  String.ofList ((s.toList.dropWhile isBlank).takeWhile fun c => !isBlank c)

/-- `s` with the letters A to Z made small; all other characters stay. -/
def lowercase (s : String) : String := String.ofList (s.toList.map Char.toLower)

end EtherBench.Text
