/-!
# UTF-8

A code point takes one to four bytes, and no more than it needs. A surrogate is
written like any other code point.
-/

namespace PhraseGrammar.Text.Utf8

/-- How many bytes follow a first one, the number that it begins, and the least one of that length. -/
def lead? (byte : UInt8) : Option (Nat × Nat × Nat) :=
  if byte < 0x80 then some (0, byte.toNat, 0)
  else if byte < 0xC0 then none
  else if byte < 0xE0 then some (1, byte.toNat - 0xC0, 0x80)
  else if byte < 0xF0 then some (2, byte.toNat - 0xE0, 0x800)
  else if byte < 0xF8 then some (3, byte.toNat - 0xF0, 0x10000)
  else none

/-- The six bits of a byte that continues a code point. -/
def continuation? (byte : UInt8) : Option Nat :=
  if byte.toNat / 0x40 = 2 then some (byte.toNat % 0x40) else none

/-- The number of the code point that a first byte and the bytes after it begin with. -/
def front? (byte : UInt8) (rest : List UInt8) : Option (Nat × Nat) := do
  let (count, first, least) ← lead? byte
  let bits ← (rest.take count).mapM continuation?
  let number := bits.foldl (fun number bits => number * 0x40 + bits) first
  if bits.length = count ∧ least ≤ number then some (number, count) else none

/-- The numbers of the code points that bytes write, the first `skip` bytes being spoken for. -/
def decode? : List UInt8 → Nat → Option (List Nat)
  | [], _ => some []
  | _ :: rest, skip + 1 => decode? rest skip
  | byte :: rest, 0 => do
      let (number, count) ← front? byte rest
      let numbers ← decode? rest count
      return number :: numbers

end PhraseGrammar.Text.Utf8
