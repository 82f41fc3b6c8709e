import PhraseGrammar.Digest.Sha512
import PhraseGrammar.Random.Twister
import PhraseGrammar.Text.Basic

/-!
# Random sources

A source answers draws below a bound and moves on with every draw. It is a
generator started from a seed, or a script that lists the draws to come.
-/

namespace PhraseGrammar.Random

inductive Source where
  | twister (state : Twister)
  /-- Each draw uses up one entry, reduced modulo the bound; an empty script draws zeros. -/
  | script (entries : List Nat)

namespace Source

/--
Numbers of `count` bits are tried until one is below the bound. More than half
of them are at a count of bits that fits, so that the allowance never runs out
in practice; the remainder keeps the answer below the bound all the same.
-/
def reject (bound count : Nat) : Nat → Twister → Nat × Twister
  | 0, state =>
      let (value, state) := state.bits count
      (value % bound, state)
  | allowance + 1, state =>
      let (value, state) := state.bits count
      if value < bound then (value, state) else reject bound count allowance state

/-- A number below a positive bound. -/
def draw (bound : Nat) : Source → Nat × Source
  | .twister state =>
      let (value, state) := reject bound (bound.log2 + 1) 1000 state
      (value, .twister state)
  | .script [] => (0, .script [])
  | .script (entry :: rest) => (entry % bound, .script rest)

theorem reject_lt {bound : Nat} (positive : 0 < bound) (count allowance : Nat)
    (state : Twister) : (reject bound count allowance state).1 < bound := by
  induction allowance generalizing state with
  | zero => exact Nat.mod_lt _ positive
  | succ allowance ih =>
      unfold reject
      dsimp only
      split
      · assumption
      · exact ih _

theorem draw_lt {bound : Nat} (positive : 0 < bound) (source : Source) :
    (source.draw bound).1 < bound := by
  cases source with
  | twister state =>
      show (reject bound (bound.log2 + 1) 1000 state).1 < bound
      exact reject_lt positive _ _ _
  | script entries =>
      cases entries with
      | nil => exact positive
      | cons entry rest => exact Nat.mod_lt _ positive

/-- Every number below the bound is the draw of some source. -/
theorem exists_draw {bound value : Nat} (below : value < bound) (rest : List Nat) :
    (Source.script (value :: rest)).draw bound = (value, .script rest) := by
  simp [draw, Nat.mod_eq_of_lt below]

end Source

/-- A further source for where none is given, and how the sources of a run are shown. -/
structure Entropy where
  source : Source
  shown : Nat → Text

/-- For where a source is given, which is shown as a text. -/
def Entropy.unused (shown : Text) : Entropy :=
  ⟨.script [], fun _ => shown⟩

/-- What a generator is started from. -/
inductive Seed where
  | integer (value : Int)
  | text (value : String)
  deriving DecidableEq, Repr

namespace Seed

/-- The 32-bit words of a number, the least significant one first; zero has one word. -/
def wordsOf (value : Nat) : List UInt32 :=
  (List.range (value.log2 / 32 + 1)).map fun i => UInt32.ofNat (value >>> (32 * i))

/--
The number behind a seed. An integer loses its sign; a text stands for its
bytes followed by their digest, read as one number.
-/
def magnitude : Seed → Nat
  | .integer value => value.natAbs
  | .text value =>
      let bytes := value.toUTF8.toList
      Digest.Sha512.bigEndian (bytes ++ Digest.Sha512.digest bytes)

def source (seed : Seed) : Source :=
  .twister (Twister.ofKey (wordsOf seed.magnitude).toArray)

end Seed

end PhraseGrammar.Random
