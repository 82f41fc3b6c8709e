import PhraseGrammar.Numeral.Integer
import PhraseGrammar.Text.Utf16
import PhraseGrammar.Text.Utf8

/-!
# The bytes of a text

A text is sent in units of one, two or four bytes. Which of them it is shows in
a mark at its front. Without a mark it shows in the zeros among the first bytes,
since the text opens with ASCII characters. Surrogates without a partner are
read as they stand.
-/

namespace PhraseGrammar.Text

inductive ByteOrder where
  | big
  | little
  deriving DecidableEq, Repr

namespace ByteOrder

/-- The number that the bytes of one unit write. -/
def number : ByteOrder → List UInt8 → Nat
  | .big, bytes => Numeral.ofDigits 0x100 (bytes.map UInt8.toNat)
  | .little, bytes => Numeral.ofDigits 0x100 (bytes.reverse.map UInt8.toNat)

/-- Units of two bytes; there are none if a byte is left over. -/
def units16? (order : ByteOrder) : List UInt8 → Option (List Nat)
  | [] => some []
  | a :: b :: rest => (order.units16? rest).map (order.number [a, b] :: ·)
  | _ => none

/-- Units of four bytes; there are none if bytes are left over. -/
def units32? (order : ByteOrder) : List UInt8 → Option (List Nat)
  | [] => some []
  | a :: b :: c :: d :: rest => (order.units32? rest).map (order.number [a, b, c, d] :: ·)
  | _ => none

end ByteOrder

inductive Encoding where
  | utf8
  | utf16 (order : ByteOrder)
  | utf32 (order : ByteOrder)
  deriving DecidableEq, Repr

namespace Encoding

/-- The marks for an encoding, a longer one before those that it opens with. -/
def marks : List (List UInt8 × Encoding) :=
  [([0x00, 0x00, 0xFE, 0xFF], .utf32 .big), ([0xFF, 0xFE, 0x00, 0x00], .utf32 .little),
    ([0xFE, 0xFF], .utf16 .big), ([0xFF, 0xFE], .utf16 .little), ([0xEF, 0xBB, 0xBF], .utf8)]

/-- The encoding that the zeros among the first four bytes show, or among two if these are all. -/
def ofZeros (bytes : List UInt8) : Encoding :=
  match (bytes.take 4).map (· == 0) with
  | [true, true, _, _] => .utf32 .big
  | [true, false, _, _] => .utf16 .big
  | [false, true, true, true] => .utf32 .little
  | [false, true, _, _] => .utf16 .little
  | [true, _] => .utf16 .big
  | [false, true] => .utf16 .little
  | _ => .utf8

/-- The encoding of a text, and its bytes without the mark. -/
def ofFront (bytes : List UInt8) : Encoding × List UInt8 :=
  match marks.find? fun entry => entry.1.isPrefixOf bytes with
  | some (mark, encoding) => (encoding, bytes.drop mark.length)
  | none => (ofZeros bytes, bytes)

/-- The code points of numbers, if all of them are in range. -/
def ofNumbers? (numbers : List Nat) : Option Text :=
  (numbers.mapM CodePoint.ofNat?).map Text.mk

def decode? : Encoding → List UInt8 → Option Text
  | .utf8, bytes => (Utf8.decode? bytes 0).bind ofNumbers?
  | .utf16 order, bytes => ((order.units16? bytes).map Utf16.decode).bind ofNumbers?
  | .utf32 order, bytes => (order.units32? bytes).bind ofNumbers?

end Encoding

/-- The text that bytes write, whichever encoding they show. -/
def ofBytes? (bytes : List UInt8) : Option Text :=
  let (encoding, bytes) := Encoding.ofFront bytes
  encoding.decode? bytes

example : ofBytes? [0x31, 0x00] = some "1" := by decide +kernel

example : ofBytes? [0x00, 0x31] = some "1" := by decide +kernel

example : ofBytes? [0xED, 0xA0, 0x80] = some ⟨[⟨0xD800, by decide⟩]⟩ := by decide +kernel

example : ofBytes? [0x22, 0x00, 0x3D, 0xD8, 0x00, 0xDE, 0x22, 0x00] = some "\"😀\"" := by
  decide +kernel

example : ofBytes? [0x00, 0x00, 0x00, 0x31, 0x00] = none := by decide +kernel

end PhraseGrammar.Text
