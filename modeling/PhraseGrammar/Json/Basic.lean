import PhraseGrammar.Binary64.Text
import PhraseGrammar.Text.Quoted

/-!
# JSON values

Integers and doubles are told apart: a number with a point or an exponent is a
double. The keys of an object are distinct and keep their order. A request has
strings in it and an answer texts, since what a grammar emits may hold
surrogates.
-/

namespace PhraseGrammar

inductive Json (τ : Type) where
  | null
  | bool (value : Bool)
  | integer (value : Int)
  | real (value : Binary64)
  | string (value : τ)
  | array (items : List (Json τ))
  | object (members : List (String × Json τ))
  deriving Inhabited, Repr

namespace Json

variable {τ : Type}

/-- The member of an object under a key. -/
def get? (json : Json τ) (key : String) : Option (Json τ) :=
  match json with
  | .object members => (members.find? fun entry => entry.1 = key).map Prod.snd
  | _ => none

/-- Null, false, zero and whatever is empty count as absent where a text is asked for. -/
def isFalsy : Json String → Bool
  | .null => true
  | .bool value => !value
  | .integer value => value = 0
  | .real value => value.isZero
  | .string value => value = ""
  | .array items => items.isEmpty
  | .object members => members.isEmpty

mutual

/--
A value as it is shown inside another one: texts are quoted. What holds an
integer too long to be written is not shown.
-/
def shown? : Json String → Option String
  | .null => some "None"
  | .bool value => some (if value then "True" else "False")
  | .integer value => Numeral.decimal? value
  | .real value => some value.text
  | .string value => some (Text.quote value)
  | .array items => (shownItems? items).map fun items => "[" ++ ", ".intercalate items ++ "]"
  | .object members =>
      (shownMembers? members).map fun members => "\x7b" ++ ", ".intercalate members ++ "\x7d"

def shownItems? : List (Json String) → Option (List String)
  | [] => some []
  | item :: rest => do return (← item.shown?) :: (← shownItems? rest)

def shownMembers? : List (String × Json String) → Option (List String)
  | [] => some []
  | (key, item) :: rest => do
      return (Text.quote key ++ ": " ++ (← item.shown?)) :: (← shownMembers? rest)

end

/-- A value as it stands in a message: a text of its own is not quoted. -/
def display? : Json String → Option String
  | .string value => some value
  | json => json.shown?

mutual

/-- All objects with their keys in the order of code points. -/
def sortKeys : Json τ → Json τ
  | .array items => .array (sortItems items)
  | .object members =>
      .object ((sortMembers members).mergeSort fun left right => decide (left.1 ≤ right.1))
  | json => json

def sortItems : List (Json τ) → List (Json τ)
  | [] => []
  | item :: rest => item.sortKeys :: sortItems rest

def sortMembers : List (String × Json τ) → List (String × Json τ)
  | [] => []
  | (key, item) :: rest => (key, item.sortKeys) :: sortMembers rest

end

end Json

end PhraseGrammar
