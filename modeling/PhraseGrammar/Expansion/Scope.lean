import PhraseGrammar.Table
import PhraseGrammar.Value

/-!
# Scopes

The names in sight of an expansion are bound in a stack of frames. A name has
the binding of the innermost frame that holds it. The random source of a run is
bound to a name of its own among the variables. What a source is shown as tells
where it happens to be stored, and need not be the same in two runs.
-/

namespace PhraseGrammar

/-- The name that the random source of a run is bound to. -/
def randomName : String := "_random"

inductive Binding where
  | value (value : Value)
  /-- The number of a random source, and the text that it is shown as. -/
  | source (id : Nat) (shown : Text)
  deriving DecidableEq, Repr

abbrev Frame := Table Binding

/-- A stack of frames, the innermost first. -/
structure Scope where
  frames : List Frame
  deriving DecidableEq

namespace Scope

def get? (scope : Scope) (name : String) : Option Binding :=
  scope.frames.findSome? fun frame => frame.get? name

/-- A new innermost frame that starts with default bindings. -/
def push (scope : Scope) (defaults : Table Value) : Scope :=
  ⟨defaults.map .value :: scope.frames⟩

/-- The innermost frame dropped. -/
def pop (scope : Scope) : Scope :=
  ⟨scope.frames.tail⟩

/-- A binding in the innermost frame. -/
def bind (scope : Scope) (name : String) (binding : Binding) : Scope :=
  match scope.frames with
  | [] => ⟨[Table.empty.set name binding]⟩
  | frame :: rest => ⟨frame.set name binding :: rest⟩

/-- The innermost frame without a name that it holds. -/
def unbind? (scope : Scope) (name : String) : Option Scope :=
  match scope.frames with
  | [] => none
  | frame :: rest => if frame.contains name then some ⟨frame.erase name :: rest⟩ else none

/-- All bindings in sight in one frame. -/
def flatten (scope : Scope) : Frame :=
  scope.frames.foldr (fun frame outer => outer.union frame) .empty

@[simp] theorem pop_push (scope : Scope) (defaults : Table Value) :
    (scope.push defaults).pop = scope := rfl

end Scope

end PhraseGrammar
