/-!
# Texts

What a grammar emits is a sequence of code points. It need not be a string: an
escape in a literal may stand for a surrogate, which is a code point and yet no
character.
-/

namespace PhraseGrammar

structure CodePoint where
  toNat : Nat
  below : toNat < 0x110000
  deriving DecidableEq, Repr

namespace CodePoint

theorem toNat_char_lt (c : Char) : c.toNat < 0x110000 := by
  have valid := c.valid
  simp only [UInt32.isValidChar, Nat.isValidChar] at valid
  have same : c.val.toNat = c.toNat := rfl
  omega

def ofChar (c : Char) : CodePoint := ⟨c.toNat, toNat_char_lt c⟩

instance : Coe Char CodePoint := ⟨ofChar⟩

/-- The code point with a number, if there is one. -/
def ofNat? (code : Nat) : Option CodePoint :=
  if below : code < 0x110000 then some ⟨code, below⟩ else none

/-- The character of a code point; a surrogate has none. -/
def char? (code : CodePoint) : Option Char :=
  if code.toNat.isValidChar then some (Char.ofNat code.toNat) else none

@[simp] theorem toNat_ofChar (c : Char) : (ofChar c).toNat = c.toNat := rfl

theorem ofNat?_eq_some_iff {number : Nat} {code : CodePoint} :
    ofNat? number = some code ↔ code.toNat = number := by
  constructor
  · intro found
    unfold ofNat? at found
    split at found
    · cases found
      rfl
    · cases found
  · rintro rfl
    exact dif_pos code.below

@[simp] theorem char?_ofChar (c : Char) : (ofChar c).char? = some c := by
  have valid : (ofChar c).toNat.isValidChar := c.valid
  rw [char?, if_pos valid, toNat_ofChar, Char.ofNat_toNat]

theorem ofChar_injective {c d : Char} (same : ofChar c = ofChar d) : c = d :=
  Option.some.inj (by rw [← char?_ofChar, same, char?_ofChar])

end CodePoint

structure Text where
  codes : List CodePoint
  deriving DecidableEq, Repr

namespace Text

/-- The text of a string. -/
def ofString (text : String) : Text := ⟨text.toList.map .ofChar⟩

instance : Coe String Text := ⟨ofString⟩

instance : Append Text := ⟨fun left right => ⟨left.codes ++ right.codes⟩⟩

/-- The string of a text that holds no surrogate. -/
def toString? (text : Text) : Option String :=
  (text.codes.mapM CodePoint.char?).map String.ofList

/-- Texts in a row with another one between each and the next. -/
def intercalate (between : Text) (texts : List Text) : Text :=
  ⟨between.codes.intercalate (texts.map codes)⟩

theorem codes_ofString (text : String) : (ofString text).codes = text.toList.map .ofChar := rfl

@[simp] theorem empty_append (text : Text) : ("" : Text) ++ text = text := rfl

@[simp] theorem append_empty (text : Text) : text ++ ("" : Text) = text :=
  congrArg mk (List.append_nil _)

theorem append_assoc (first second third : Text) :
    first ++ second ++ third = first ++ (second ++ third) :=
  congrArg mk (List.append_assoc _ _ _)

@[simp] theorem toString?_ofString (text : String) : (ofString text).toString? = some text := by
  have characters (chars : List Char) :
      (chars.map CodePoint.ofChar).mapM CodePoint.char? = some chars := by
    induction chars with
    | nil => rfl
    | cons c rest ih => rw [List.map_cons, List.mapM_cons, CodePoint.char?_ofChar, ih]; rfl
  rw [toString?, codes_ofString, characters, Option.map_some, String.ofList_toList]

theorem ofString_injective {left right : String} (same : ofString left = ofString right) :
    left = right :=
  String.toList_injective
    ((List.map_inj_right fun _ _ => CodePoint.ofChar_injective).mp (congrArg codes same))

end Text

end PhraseGrammar
