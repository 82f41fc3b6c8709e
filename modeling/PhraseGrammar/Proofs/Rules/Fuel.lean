import PhraseGrammar.Rules.Defaults
import PhraseGrammar.Rules.Definition
import PhraseGrammar.Token.Lexer

/-!
# Parsing on fuel

A grammar's text parsed straight from a lexer, which gives out the end of the
text as often as it is asked. Every call for a token costs a unit of fuel. The
loops do not know how many turns they take, and what they do with the end is
left to their turns: a loop is stopped as idle if a turn goes on without having
consumed a token other than the end, and everything is stopped if a token is
asked for when the fuel is spent.
-/

namespace PhraseGrammar

/-- Why a parse is stopped halfway. -/
inductive Stall where
  | spent
  | idle
  deriving DecidableEq, Repr

/-- What a parse works with: a lexer, and what was noted on the way. -/
structure Desk where
  lexer : Lexer
  log : List Event
  deriving DecidableEq, Repr

namespace Desk

def ofText (text : String) : Desk :=
  ⟨.ofText text, []⟩

/-- The lexemes behind the last consumed token. -/
def pending (desk : Desk) : List Lexeme :=
  (Lexeme.scan desk.lexer.rest 0 desk.lexer.place).1

end Desk

/-- A parser that is given fuel and tells how much it leaves. -/
structure Fueled (α : Type) where
  run : Desk → Nat → Except Stall (Except ParseFailure α × Desk × Nat)

namespace Fueled

open Reader (Turn ruleMark joinDecimals? codePoint contextName)

variable {α β σ : Type}

/-- One parser after the other; a failure ends both. -/
def andThen (first : Fueled α) (second : α → Fueled β) : Fueled β where
  run desk fuel :=
    match first.run desk fuel with
    | .error stall => .error stall
    | .ok (.error failure, desk, left) => .ok (.error failure, desk, left)
    | .ok (.ok value, desk, left) => (second value).run desk left

instance : Monad Fueled where
  pure value := ⟨fun desk fuel => .ok (.ok value, desk, fuel)⟩
  bind := andThen

theorem run_bind (first : Fueled α) (second : α → Fueled β) (desk : Desk) (fuel : Nat) :
    (first >>= second).run desk fuel =
      match first.run desk fuel with
      | .error stall => .error stall
      | .ok (.error failure, desk, left) => .ok (.error failure, desk, left)
      | .ok (.ok value, desk, left) => (second value).run desk left := rfl

@[simp] theorem run_pure (value : α) (desk : Desk) (fuel : Nat) :
    (pure value : Fueled α).run desk fuel = .ok (.ok value, desk, fuel) := rfl

/-- Consumes the next token. -/
def next : Fueled Token where
  run desk
    | 0 => .error .spent
    | left + 1 =>
        let (result, lexer) := desk.lexer.next
        .ok (result.mapError .grammar, { desk with lexer }, left)

def peek : Fueled Token where
  run desk fuel :=
    let (result, lexer) := desk.lexer.peek
    .ok (result.mapError .grammar, { desk with lexer }, fuel)

/-- The character immediately after the last consumed token. -/
def follow : Fueled (Option Char) where
  run desk fuel := .ok (.ok desk.lexer.peekChar, desk, fuel)

def ofExcept (result : Except ParseFailure α) : Fueled α where
  run desk fuel := .ok (result, desk, fuel)

/-- Fails at the place of the last consumed token. -/
def reject (cause : Cause) : Fueled α where
  run desk fuel := .ok (.error (.located cause desk.lexer.last), desk, fuel)

def note (event : Event) : Fueled Unit where
  run desk fuel := .ok (.ok (), { desk with log := desk.log ++ [event] }, fuel)

def expect (text : String) : Fueled Unit := do
  let token ← next
  if token = .punct text then return ()
  else reject (.expected text token)

/-- Failures that know no line get the place of the last consumed token. -/
def orAtPlace (parser : Fueled α) : Fueled α where
  run desk fuel :=
    match parser.run desk fuel with
    | .error stall => .error stall
    | .ok (.error failure, desk, left) => .ok (.error (failure.orAt desk.lexer.last), desk, left)
    | .ok (.ok value, desk, left) => .ok (.ok value, desk, left)

theorem run_orAtPlace (parser : Fueled α) (desk : Desk) (fuel : Nat) :
    parser.orAtPlace.run desk fuel =
      match parser.run desk fuel with
      | .error stall => .error stall
      | .ok (.error failure, desk, left) => .ok (.error (failure.orAt desk.lexer.last), desk, left)
      | .ok (.ok value, desk, left) => .ok (.ok value, desk, left) := rfl

@[simp] theorem run_peek (desk : Desk) (fuel : Nat) : peek.run desk fuel =
    .ok (desk.lexer.peek.1.mapError .grammar, { desk with lexer := desk.lexer.peek.2 }, fuel) := rfl

@[simp] theorem run_follow (desk : Desk) (fuel : Nat) :
    follow.run desk fuel = .ok (.ok desk.lexer.peekChar, desk, fuel) := rfl

@[simp] theorem run_reject (cause : Cause) (desk : Desk) (fuel : Nat) :
    (reject cause : Fueled α).run desk fuel =
      .ok (.error (.located cause desk.lexer.last), desk, fuel) := rfl

@[simp] theorem run_next_succ (desk : Desk) (left : Nat) : next.run desk (left + 1) =
    .ok (desk.lexer.next.1.mapError .grammar, { desk with lexer := desk.lexer.next.2 }, left) := rfl

/-- Turn after turn, until one is the last or goes on for nothing. -/
def loop (turn : σ → Fueled (Turn σ β)) (state : σ) (desk : Desk) (fuel : Nat) :
    Except Stall (Except ParseFailure β × Desk × Nat) :=
  match (turn state).run desk fuel with
  | .error stall => .error stall
  | .ok (.error failure, after, left) => .ok (.error failure, after, left)
  | .ok (.ok (.done result), after, left) => .ok (.ok result, after, left)
  | .ok (.ok (.again further), after, left) =>
      if after.pending.length < desk.pending.length then loop turn further after left
      else .error .idle
termination_by desk.pending.length

/-- A loop goes as its first turn says. -/
theorem loop_eq (turn : σ → Fueled (Turn σ β)) (state : σ) (desk : Desk) (fuel : Nat) :
    loop turn state desk fuel =
      match (turn state).run desk fuel with
      | .error stall => .error stall
      | .ok (.error failure, after, left) => .ok (.error failure, after, left)
      | .ok (.ok (.done result), after, left) => .ok (.ok result, after, left)
      | .ok (.ok (.again further), after, left) =>
          if after.pending.length < desk.pending.length then loop turn further after left
          else .error .idle := by
  rw [loop]

def repeated (turn : σ → Fueled (Turn σ β)) (state : σ) : Fueled β where
  run := loop turn state

@[simp] theorem run_repeated (turn : σ → Fueled (Turn σ β)) (state : σ) (desk : Desk) (fuel : Nat) :
    (repeated turn state).run desk fuel = loop turn state desk fuel := rfl

/-- Every turn asks for a token first. The end of the text is one as well. -/
def eachToken (turn : σ → Token → Fueled (Turn σ β)) (state : σ) : Fueled β :=
  repeated (fun state => next >>= turn state) state

def integer (token : Token) : Fueled Int :=
  ofExcept ((Numeral.readInteger? token.text).elim (.error .numeral) .ok)

def signedInteger (negative : Bool) (numeral : Token) : Fueled Int :=
  if numeral.kind ≠ .int then reject (.expectedArgument numeral)
  else do
    let size ← integer numeral
    return if negative then -size else size

def argument (token : Token) : Fueled Int :=
  if token.text = "-" then next >>= signedInteger true else signedInteger false token

def argumentEnd (arguments : Array Int) : Fueled (Turn (Array Int) (List Int)) := do
  let mark ← next
  if mark.text = ")" then return .done arguments.toList
  else if mark.text = "," then return .again arguments
  else reject (.expectedArgumentEnd mark)

def rangeArguments : Fueled (List Int) := do
  expect "("
  let token ← peek
  if token.text = ")" then
    let _ ← next
    return []
  else
    eachToken (fun arguments token =>
      argument token >>= fun size => argumentEnd (arguments.push size)) #[]

def range : Fueled Leaf := do
  let arguments ← rangeArguments
  if arguments.length = 1 ∨ arguments.length = 2 then
    match joinDecimals? arguments with
    | none => ofExcept (.error .numeral)
    | some shown => return ⟨"range", shown, .draw arguments⟩
  else reject (.rangeArity arguments.length)

/-- The built-ins of the default registry. -/
def builtins : Table (Fueled Leaf) :=
  .ofList [("range", range)]

def node (token : Token) : Fueled Node :=
  match Registry.default.literals.get? token.kind.name with
  | some construct => ofExcept ((construct token.text).map Node.leaf)
  | none =>
      match Registry.default.terminals.get? token.text with
      | some made => ofExcept (made.map Node.leaf)
      | none =>
          match builtins.get? token.text with
          | some parser => do return .leaf (← parser)
          | none =>
              if token = .punct "$" then do
                let name ← next
                if name.kind ≠ .ident then reject (.expectedReference name)
                else
                  match Registry.default.literals.get? Registry.referenceName with
                  | none => reject .noReferenceLiteral
                  | some construct => ofExcept ((construct name.text).map Node.leaf)
              else return .unresolved token.text

def nodesTurn (nodes : Array Node) (token : Token) :
    Fueled (Turn (Array Node) (List Node × Bool)) := do
  if token.kind = .eof ∨ token = .punct "." then return .done (nodes.toList, false)
  else if token = .punct ";" then return .done (nodes.toList, true)
  else
    let node ← (node token).orAtPlace
    return .again (nodes.push node)

def nodes : Fueled (List Node × Bool) :=
  eachToken nodesTurn #[]

def rulesTurn (name : String) (rules : Array (List Node)) (token : Token) :
    Fueled (Turn (Array (List Node)) (List (List Node))) := do
  if token = .punct (ruleMark rules) then
    let (rule, more) ← nodes
    if more then return .again (rules.push rule)
    else return .done (rules.push rule).toList
  else reject (.expectedRule (rules.size + 1) name (ruleMark rules) token)

def rules (name : String) : Fueled (List (List Node)) :=
  eachToken (rulesTurn name) #[]

def signedNumber (negative : Bool) (token : Token) : Fueled Value :=
  match token.kind with
  | .int => do
      let size ← integer token
      return .integer (if negative then -size else size)
  | .float =>
      match Binary64.read? token.text with
      | some size => return .real (if negative then size.neg else size)
      | none => ofExcept (.error .numeral)
  | _ => reject (.expectedNumber token)

def contextValue : Fueled Value := do
  let token ← next
  if token = .punct "-" then
    let number ← next
    signedNumber true number
  else
    match token.kind with
    | .string => (ofExcept ((Literal.unquote token.text).map Value.text)).orAtPlace
    | .char => (ofExcept ((Literal.unquote token.text).bind codePoint)).orAtPlace
    | .int | .float => signedNumber false token
    | _ => reject (.invalidContextValue token)

def bindingsTurn (name : String) (defaults : Table Value) (token : Token) :
    Fueled (Turn (Table Value) (Table Value)) := do
  if token.kind ≠ .ident then reject (.expectedVariable name token)
  else
    expect "="
    let value ← contextValue
    let defaults := defaults.set token.text value
    let mark ← next
    if mark = .punct "." then return .done defaults
    else if mark = .punct "," then return .again defaults
    else reject (.expectedContextEnd name mark)

def bindings (name : String) (defaults : Table Value) : Fueled (Table Value) :=
  eachToken (bindingsTurn name) defaults

def contextTurn (table : Table Nonterminal) (token : Token) :
    Fueled (Turn (Table Nonterminal) (Table Nonterminal)) := do
  if token.kind = .eof then return .done table
  else if token.kind ≠ .ident then reject (.expectedContextSymbol token)
  else
    expect ":"
    match table.get? token.text with
    | none => reject (.undeclaredContext token.text)
    | some nonterminal =>
        let defaults ← bindings token.text nonterminal.defaults
        return .again (table.set token.text { nonterminal with defaults })

def skipPeriod : Fueled Unit := do
  let mark ← peek
  if mark = .punct "." then
    let _ ← next

def context (table : Table Nonterminal) : Fueled (Table Nonterminal) := do
  skipPeriod
  eachToken contextTurn table

def depthHint (name : String) : Fueled (Option Int) := do
  let follow ← follow
  if follow = some '!' ∨ follow = some '#' then
    let marker ← next
    let token ← next
    if token.kind ≠ .int then reject (.expectedHint name marker.text token)
    else
      let hint ← integer token
      return some hint
  else return none

def define (grammar : Grammar) (nonterminal : Nonterminal) : Fueled Grammar := do
  if grammar.contains nonterminal.name then note (.redefined nonterminal.name)
  note (.parsed nonterminal.name nonterminal.rules.length)
  return {
    table := grammar.table.set nonterminal.name nonterminal
    start := grammar.start <|> some nonterminal.name }

/-- The token that a definition opens with. Semicolons before it are skipped. -/
def header : Fueled Token :=
  eachToken (fun _ token => return if token = .punct ";" then .again () else .done token) ()

/-- What a definition's first token is followed by; the end of the text is one that opens nothing. -/
def opened (grammar : Grammar) (token : Token) : Fueled (Turn Grammar Grammar) := do
  if token.kind = .eof then return .done grammar
  else if token.kind ≠ .ident then reject (.expectedSymbol token)
  else
    let hint ← depthHint token.text
    if token.text = contextName then
      let table ← context grammar.table
      return .done { grammar with table }
    else
      let rules ← rules token.text
      let grammar ← define grammar ⟨token.text, rules, .empty, hint⟩
      return .again grammar

def definitions : Fueled Grammar :=
  repeated (fun grammar => header >>= opened grammar) ⟨.empty, none⟩

/-- A whole grammar with the default registry, its references left as bare names. -/
def grammar : Fueled Grammar := do
  let grammar ← definitions
  if grammar.table.isEmpty then reject .noDefinition
  else return grammar

end Fueled

end PhraseGrammar
