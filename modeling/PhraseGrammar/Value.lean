import PhraseGrammar.Binary64.Text
import PhraseGrammar.Text.Quoted

/-!
# Values

A variable is bound to a text, an integer or a double. An integer too long to
be written in decimal has no text.
-/

namespace PhraseGrammar

namespace Numeral

/-- The text of an integer that can be written. -/
def text? (value : Int) : Option Text :=
  (decimal? value).map Text.ofString

theorem isSome_text? (value : Int) : (text? value).isSome = (decimal? value).isSome :=
  Option.isSome_map

theorem text?_eq_toString {value : Int} (short : (decimal? value).isSome = true) :
    text? value = some (toString value) := by
  rw [text?, decimal?_eq_toString short]
  rfl

theorem eq_toString_of_text? {value : Int} {text : Text} (written : text? value = some text) :
    text = toString value := by
  obtain ⟨numeral, known, rfl⟩ := Option.map_eq_some_iff.mp written
  rw [eq_toString_of_decimal? known]

end Numeral

inductive Value where
  | text (value : Text)
  | integer (value : Int)
  | real (value : Binary64)
  deriving DecidableEq, Repr

namespace Value

/-- The text that a value emits. -/
def plain? : Value → Option Text
  | .text value => some value
  | .integer value => Numeral.text? value
  | .real value => some value.text

/-- How a value is shown; a text is quoted. -/
def shown? : Value → Option String
  | .text value => some (Text.quote value)
  | .integer value => Numeral.decimal? value
  | .real value => some value.text

end Value

end PhraseGrammar
