/-!
# Blank characters

The characters with the Unicode property `White_Space`, and texts without such characters at
their ends.

## Main definitions

* `Text.isBlank` : the property `White_Space`.
* `Text.dropBlanks` : a text from its first character that is not blank.
* `Text.trim` : a text without the blank characters at its two ends.
-/

namespace PlaylistRules.Text

/-- The Unicode property `White_Space`: twenty-five characters. -/
def isBlank (c : Char) : Bool :=
  let n := c.toNat
  (9 ≤ n && n ≤ 13) || n == 0x20 || n == 0x85 || n == 0xA0 || n == 0x1680 ||
    (0x2000 ≤ n && n ≤ 0x200A) || n == 0x2028 || n == 0x2029 || n == 0x202F || n == 0x205F ||
    n == 0x3000

/-- A text from its first character that is not blank. -/
def dropBlanks (cs : List Char) : List Char :=
  cs.dropWhile isBlank

/-- A text without the blank characters at its two ends. -/
def trim (cs : List Char) : List Char :=
  (dropBlanks (dropBlanks cs).reverse).reverse

theorem dropBlanks_cons_of_not_isBlank {c : Char} {cs : List Char} (h : isBlank c = false) :
    dropBlanks (c :: cs) = c :: cs := by
  simp [dropBlanks, h]

end PlaylistRules.Text
