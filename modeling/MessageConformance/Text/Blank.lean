/-!
# White space

`isBlank` is the Unicode property `White_Space`. Settings, schema references and
engine messages are trimmed by it; markup uses the four XML spaces instead.
-/

namespace MessageConformance.Text

/-- The characters with the Unicode property `White_Space`. -/
def isBlank (c : Char) : Bool :=
  (0x9 ≤ c.toNat && c.toNat ≤ 0xD) || c.toNat == 0x20 || c.toNat == 0x85 || c.toNat == 0xA0 ||
  c.toNat == 0x1680 || (0x2000 ≤ c.toNat && c.toNat ≤ 0x200A) || c.toNat == 0x2028 ||
  c.toNat == 0x2029 || c.toNat == 0x202F || c.toNat == 0x205F || c.toNat == 0x3000

/-- The characters without the white space they begin with. -/
def dropStart (cs : List Char) : List Char := cs.dropWhile isBlank

/-- The characters without the white space they end with. -/
def dropEnd (cs : List Char) : List Char := (cs.reverse.dropWhile isBlank).reverse

def trim (s : String) : String := String.ofList (dropEnd (dropStart s.toList))

def trimEnd (s : String) : String := String.ofList (dropEnd s.toList)

end MessageConformance.Text
