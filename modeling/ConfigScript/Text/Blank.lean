import ConfigScript.Text.CharRange

/-!
# Blanks

The 25 code points with the Unicode property `White_Space`, and trimming by them. Spacing inside
a script is another matter: there only space, tab and the line ends count.
-/

namespace ConfigScript.Text

def blankRanges : List CharRange :=
   [(0x9, 0xD), (0x20, 0x20), (0x85, 0x85), (0xA0, 0xA0), (0x1680, 0x1680), (0x2000, 0x200A),
    (0x2028, 0x2029), (0x202F, 0x202F), (0x205F, 0x205F), (0x3000, 0x3000)]

theorem coverage_blankRanges : coverage blankRanges = 25 := by decide

def isBlank (c : Char) : Bool :=
  inRanges blankRanges c

def trimStart (cs : List Char) : List Char :=
  cs.dropWhile isBlank

def trimEnd (cs : List Char) : List Char :=
  (cs.reverse.dropWhile isBlank).reverse

/-- The text without the blanks at its two ends. -/
def trim (cs : List Char) : List Char :=
  trimEnd (trimStart cs)

end ConfigScript.Text
