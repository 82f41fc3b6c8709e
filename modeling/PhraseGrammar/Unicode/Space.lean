import PhraseGrammar.Unicode.Ranges

/-!
# Whitespace

The separators and the control characters that count as space between words:
tabulation, line and page breaks, the four information separators U+001C to
U+001F, and every character whose category is a separator.
-/

namespace PhraseGrammar.Unicode

/-- The intervals of whitespace, 29 characters in all. -/
def spaceRanges : Ranges :=
  [(0x9, 0xD), (0x1C, 0x20), (0x85, 0x85), (0xA0, 0xA0), (0x1680, 0x1680), (0x2000, 0x200A),
    (0x2028, 0x2029), (0x202F, 0x202F), (0x205F, 0x205F), (0x3000, 0x3000)]

def isSpace (c : Char) : Bool :=
  spaceRanges.contains c

example : (spaceRanges.map fun range => range.2 + 1 - range.1).sum = 29 := rfl

/-- A text without the whitespace at its two ends. -/
def strip (text : String) : String :=
  String.ofList ((text.toList.dropWhile isSpace).reverse.dropWhile isSpace).reverse

end PhraseGrammar.Unicode
