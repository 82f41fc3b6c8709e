import Mathlib.Data.List.Basic
import PhraseGrammar.Proofs.Expansion.Environment
import PhraseGrammar.Proofs.Rules.Accepted

/-!
# Runs in a new context

A new context is one frame that holds the caller's bindings and a source. The
source stays in sight as long as no nonterminal and no default binding takes
its name.
-/

namespace PhraseGrammar

namespace Grammar

/-- No nonterminal and no default binding takes the name of the random source. -/
def SparesSource (grammar : Grammar) : Prop :=
  grammar.contains randomName = false ∧
    ∀ entry ∈ grammar.table.entries, entry.2.defaults.contains randomName = false

instance (grammar : Grammar) : Decidable grammar.SparesSource :=
  inferInstanceAs (Decidable (_ ∧ _))

theorem nameOf_eq {grammar : Grammar} (ready : grammar.Ready) {key : String}
    (declared : grammar.contains key = true) : grammar.nameOf key = key := by
  obtain ⟨nonterminal, found⟩ := Option.isSome_iff_exists.mp declared
  rw [nameOf, get?, found]
  exact (ready key nonterminal found).name_eq

/-- The name under which a symbol's text is bound is never that of the source. -/
theorem nameOf_ne {grammar : Grammar} (ready : grammar.Ready) (spares : grammar.SparesSource)
    {key : String} (declared : grammar.contains key = true) : grammar.nameOf key ≠ randomName := by
  rw [nameOf_eq ready declared]
  rintro rfl
  exact Bool.false_ne_true (spares.1.symm.trans declared)

end Grammar

/-- The ends of a range that the default registry makes can be written. -/
theorem interval?_of_joinDecimals? {arguments : List Int} {shown : String}
    (written : Reader.joinDecimals? arguments = some shown)
    (count : arguments.length = 1 ∨ arguments.length = 2) :
    ∃ lo hi, interval? arguments = some (lo, hi) ∧
      (Numeral.decimal? lo).isSome = true ∧ (Numeral.decimal? hi).isSome = true := by
  rcases count with one | two
  · obtain ⟨hi, rfl⟩ := List.length_eq_one_iff.mp one
    refine ⟨0, hi, rfl, Numeral.isSome_decimal?_zero, ?_⟩
    cases right : Numeral.decimal? hi with
    | none => simp [Reader.joinDecimals?, right] at written
    | some text => rfl
  · obtain ⟨lo, hi, rfl⟩ := List.length_eq_two.mp two
    refine ⟨lo, hi, rfl, ?_⟩
    cases left : Numeral.decimal? lo with
    | none => simp [Reader.joinDecimals?, left] at written
    | some first =>
        cases right : Numeral.decimal? hi with
        | none => simp [Reader.joinDecimals?, left, right] at written
        | some second => exact ⟨rfl, rfl⟩

/-- One frame with a source in front of some bindings. -/
def Scope.rooted (bindings : Frame) (id : Nat) (shown : Text) : Scope :=
  ⟨[bindings.set randomName (.source id shown)]⟩

theorem Scope.get?_rooted (bindings : Frame) (id : Nat) (shown : Text) (name : String) :
    (Scope.rooted bindings id shown).get? name =
      if name = randomName then some (.source id shown) else bindings.get? name := by
  rw [← Table.get?_set]
  simp only [rooted, get?, List.findSome?_cons, List.findSome?_nil]
  cases (bindings.set randomName (.source id shown)).get? name <;> rfl

/-- A run in a new context: one frame with a caller's bindings and a source. -/
def Run.fresh (bindings : Frame) (source : Random.Source) (shown : Text) : Run :=
  .start (.rooted bindings 0 shown) [source]

theorem Run.get?_fresh (bindings : Frame) (source : Random.Source) (shown : Text) (name : String) :
    (fresh bindings source shown).scope.get? name =
      if name = randomName then some (.source 0 shown) else bindings.get? name :=
  Scope.get?_rooted bindings 0 shown name

end PhraseGrammar
