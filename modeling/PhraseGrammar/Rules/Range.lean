import PhraseGrammar.Rules.Registry

/-!
# The range built-in

A range takes a bound, or a lower and an upper one, in parentheses. Its leaf
shows the bounds in decimal and emits an integer drawn between them.
-/

namespace PhraseGrammar.Reader

/-- The value of an integer token. -/
def integer (token : Token) : Reader Int :=
  ofExcept ((Numeral.readInteger? token.text).elim (.error .numeral) .ok)

/-- One argument, its sign in front, and the mark behind it. -/
def rangeTurn (arguments : Array Int) (token : Token) : Reader (Turn (Array Int) (List Int)) := do
  let negative := token.text = "-"
  let numeral ← if negative then next else pure token
  if numeral.kind ≠ .int then reject (.expectedArgument numeral)
  else
    let size ← integer numeral
    let arguments := arguments.push (if negative then -size else size)
    let mark ← next
    if mark.text = ")" then return .done arguments.toList
    else if mark.text = "," then return .again arguments
    else reject (.expectedArgumentEnd mark)

/-- The arguments in parentheses. There may be none, or any number of them. -/
def rangeArguments : Reader (List Int) := do
  expect "("
  let token ← peek
  if token.text = ")" then
    let _ ← next
    return []
  else
    eachToken (fun _ => reject (.expectedArgument .eof)) rangeTurn #[]

/-- Integers in decimal, with commas between them. -/
def joinDecimals? (arguments : List Int) : Option String :=
  (arguments.mapM Numeral.decimal?).map (", ".intercalate ·)

/-- The leaf of a range; there have to be one or two arguments. -/
def range : Reader Leaf := do
  let arguments ← rangeArguments
  if arguments.length = 1 ∨ arguments.length = 2 then
    match joinDecimals? arguments with
    | none => fail .numeral
    | some shown => return ⟨"range", shown, .draw arguments⟩
  else reject (.rangeArity arguments.length)

end PhraseGrammar.Reader
