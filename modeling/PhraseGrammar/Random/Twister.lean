/-!
# Mersenne twister

The generator MT19937: a block of 624 words, renewed as a whole when all of its
words have been given out. Giving out a word only moves an index.
-/

namespace PhraseGrammar.Random

/-- A block of words and the number of those already given out. -/
structure Twister where
  words : Array UInt32
  used : Nat

namespace Twister

def size : Nat := 624

/-- The word at an index, which always lies within the block. -/
def word (words : Array UInt32) (i : Nat) : UInt32 :=
  words.getD i 0

def fold (w : UInt32) : UInt32 :=
  w ^^^ (w >>> 30)

/-- The block that one word starts. -/
def spread (seed : UInt32) : Array UInt32 :=
  (List.range (size - 1)).foldl (fun words i =>
    words.push (1812433253 * fold (word words i) + UInt32.ofNat (i + 1))) #[seed]

/-- The index after `i`; the walk leaves out the first word. -/
def follow (i : Nat) : Nat :=
  if i + 1 < size then i + 1 else 1

/-- At the end of a walk the last word is copied to the front. -/
def store (words : Array UInt32) (i : Nat) (value : UInt32) : Array UInt32 :=
  let words := words.setIfInBounds i value
  if i + 1 < size then words else words.setIfInBounds 0 value

/-- The block that a nonempty key of words starts. -/
def ofKey (key : Array UInt32) : Twister :=
  let mix (state : Array UInt32 × Nat) (step : Nat) : Array UInt32 × Nat :=
    let (words, i) := state
    let j := step % key.size
    let value := (word words i ^^^ (fold (word words (i - 1)) * 1664525)) +
      word key j + UInt32.ofNat j
    (store words i value, follow i)
  let settle (state : Array UInt32 × Nat) (_ : Nat) : Array UInt32 × Nat :=
    let (words, i) := state
    let value := (word words i ^^^ (fold (word words (i - 1)) * 1566083941)) - UInt32.ofNat i
    (store words i value, follow i)
  let mixed := (List.range (max size key.size)).foldl mix (spread 19650218, 1)
  let (words, _) := (List.range (size - 1)).foldl settle mixed
  ⟨words.setIfInBounds 0 0x80000000, size⟩

/-- One step of the recurrence, on the upper bit of one word and the lower bits of the next. -/
def twist (upper lower far : UInt32) : UInt32 :=
  let joined := (upper &&& 0x80000000) ||| (lower &&& 0x7FFFFFFF)
  far ^^^ (joined >>> 1) ^^^ (if joined &&& 1 = 1 then 0x9908B0DF else 0)

def renew (words : Array UInt32) : Array UInt32 :=
  (List.range size).foldl (fun words i =>
    words.setIfInBounds i
      (twist (word words i) (word words ((i + 1) % size)) (word words ((i + 397) % size)))) words

def temper (w : UInt32) : UInt32 :=
  let w := w ^^^ (w >>> 11)
  let w := w ^^^ ((w <<< 7) &&& 0x9D2C5680)
  let w := w ^^^ ((w <<< 15) &&& 0xEFC60000)
  w ^^^ (w >>> 18)

/-- The next word. -/
def next (state : Twister) : UInt32 × Twister :=
  if state.used < size then
    (temper (word state.words state.used), { state with used := state.used + 1 })
  else
    let words := renew state.words
    (temper (word words 0), ⟨words, 1⟩)

/-- A number of `whole` words and `last` bits, the least significant word first. -/
def number : Nat → Nat → Twister → Nat × Twister
  | 0, last, state =>
      let (w, state) := state.next
      (w.toNat >>> (32 - last), state)
  | whole + 1, last, state =>
      let (w, state) := state.next
      let (higher, state) := number whole last state
      (w.toNat + 0x100000000 * higher, state)

/-- A number of `count` bits, for a positive count. -/
def bits (count : Nat) (state : Twister) : Nat × Twister :=
  let whole := (count - 1) / 32
  number whole (count - 32 * whole) state

end Twister

end PhraseGrammar.Random
