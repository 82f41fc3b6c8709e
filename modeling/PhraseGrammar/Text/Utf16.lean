import PhraseGrammar.Text.Basic

/-!
# UTF-16

A code point above U+FFFF is written as two units, a high surrogate and a low
one; any other code point is its own unit. A surrogate without its partner is
read as itself.
-/

namespace PhraseGrammar.Text.Utf16

def isHigh (unit : Nat) : Bool :=
  0xD800 ≤ unit && unit < 0xDC00

def isLow (unit : Nat) : Bool :=
  0xDC00 ≤ unit && unit < 0xE000

/-- The number that a high surrogate and a low one write. -/
def pair (high low : Nat) : Nat :=
  0x10000 + (high - 0xD800) * 0x400 + (low - 0xDC00)

def units (code : CodePoint) : List Nat :=
  if code.toNat < 0x10000 then [code.toNat]
  else
    let offset := code.toNat - 0x10000
    [0xD800 + offset / 0x400, 0xDC00 + offset % 0x400]

/-- The numbers of the code points that units write. -/
def decode : List Nat → List Nat
  | [] => []
  | [unit] => [unit]
  | unit :: next :: rest =>
      if isHigh unit && isLow next then pair unit next :: decode rest
      else unit :: decode (next :: rest)

end PhraseGrammar.Text.Utf16
