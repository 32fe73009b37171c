/-!
# Blank characters

Which characters count as blank when the ends of a text are trimmed. The set is the Unicode
property `White_Space`: twenty-five characters, among them the no-break space and the ideographic
space. The zero-width characters and the ASCII separators `U+001C` to `U+001F` are not in it.
-/

namespace ClusterRelay.Text

/-- A character with the Unicode property `White_Space`. -/
def isBlank (c : Char) : Bool :=
  let n := c.toNat
  (0x09 ≤ n && n ≤ 0x0D) || n == 0x20 || n == 0x85 || n == 0xA0 || n == 0x1680 ||
    (0x2000 ≤ n && n ≤ 0x200A) || n == 0x2028 || n == 0x2029 || n == 0x202F || n == 0x205F ||
    n == 0x3000

/-- The list without its blank head and its blank tail. -/
def trimmed (cs : List Char) : List Char :=
  ((cs.dropWhile isBlank).reverse.dropWhile isBlank).reverse

/-- A text that holds nothing but blank characters. -/
def allBlank (s : String) : Bool :=
  s.toList.all isBlank

/-- A decimal digit is not blank. -/
theorem isBlank_of_isDigit {c : Char} (h : c.isDigit = true) : isBlank c = false := by
  have hrange : 48 ≤ c.toNat ∧ c.toNat ≤ 57 := by
    simpa [Char.isDigit, UInt32.le_iff_toNat_le] using h
  simp [isBlank]
  omega

end ClusterRelay.Text
