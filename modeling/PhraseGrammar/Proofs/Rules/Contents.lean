import Mathlib
import PhraseGrammar.Proofs.Rules.Failures

/-!
# What accepted grammars hold

The names of an accepted grammar are names of its text, none of them empty, and
no leaf of it records the bindings in sight. What a leaf emits is told by the
name and the value that it shows, so that leaves that are equal emit the same.
-/

namespace PhraseGrammar

theorem not_comma_mem_toString (value : Int) : ',' ∉ (toString value).toList := by
  have digits (size : Nat) : ',' ∉ (Nat.repr size).toList := by
    rw [Nat.repr_eq_ofList_toDigits, String.toList_ofList]
    intro member
    exact absurd (Nat.isDigit_of_mem_toDigits (by decide) (by decide) member) (by decide)
  change ',' ∉ (Int.repr value).toList
  rw [Int.repr_eq_if]
  split
  · exact digits _
  · rw [String.toList_append, List.mem_append, not_or]
    exact ⟨by decide, digits _⟩

theorem eq_of_joinDecimals? {arguments : List Int} {shown : String}
    (written : Reader.joinDecimals? arguments = some shown) :
    shown = ", ".intercalate (arguments.map toString) := by
  obtain ⟨texts, each, rfl⟩ := Option.map_eq_some_iff.mp written
  have same : texts = arguments.map toString := by
    clear written
    induction arguments generalizing texts with
    | nil =>
        cases each
        rfl
    | cons first rest ih =>
        rw [List.mapM_cons] at each
        obtain ⟨text, here, each⟩ := Option.bind_eq_some_iff.mp each
        obtain ⟨others, later, each⟩ := Option.bind_eq_some_iff.mp each
        cases each
        rw [Numeral.eq_toString_of_decimal? here, ih others later]
        rfl
  rw [same]

/-- One argument is shown without a comma, two with one. -/
theorem toString_ne_pair (bound lo hi : Int) :
    toString bound ≠ toString lo ++ ", " ++ toString hi := by
  intro same
  apply not_comma_mem_toString bound
  rw [same, String.toList_append, String.toList_append]
  exact List.mem_append_left _ (List.mem_append_right _ (.head _))

theorem pair_inj {lo hi low high : Int}
    (same : toString lo ++ ", " ++ toString hi = toString low ++ ", " ++ toString high) :
    lo = low ∧ hi = high := by
  have texts := congrArg String.toList same
  simp only [String.toList_append, List.append_assoc] at texts
  have plain : ',' ∉ ' ' :: (toString hi).toList := by
    rw [List.mem_cons, not_or]
    exact ⟨by decide, not_comma_mem_toString hi⟩
  obtain ⟨lower, _, upper⟩ :=
    (List.append_cons_inj_of_notMem (not_comma_mem_toString lo) plain).mp texts
  exact ⟨Int.repr_inj.mp (String.toList_inj.mp lower),
    Int.repr_inj.mp (String.toList_inj.mp (List.cons.inj upper).2)⟩

/-- The arguments of a range can be told from how they are shown. -/
theorem arguments_eq {first second : List Int} {shown : String}
    (left : Reader.joinDecimals? first = some shown)
    (right : Reader.joinDecimals? second = some shown)
    (few : first.length = 1 ∨ first.length = 2) (many : second.length = 1 ∨ second.length = 2) :
    first = second := by
  have same := (eq_of_joinDecimals? left).symm.trans (eq_of_joinDecimals? right)
  rcases few with one | two <;> rcases many with single | pair
  · obtain ⟨bound, rfl⟩ := List.length_eq_one_iff.mp one
    obtain ⟨other, rfl⟩ := List.length_eq_one_iff.mp single
    rw [Int.repr_inj.mp same]
  · obtain ⟨bound, rfl⟩ := List.length_eq_one_iff.mp one
    obtain ⟨lo, hi, rfl⟩ := List.length_eq_two.mp pair
    exact absurd same (toString_ne_pair bound lo hi)
  · obtain ⟨lo, hi, rfl⟩ := List.length_eq_two.mp two
    obtain ⟨bound, rfl⟩ := List.length_eq_one_iff.mp single
    exact absurd same.symm (toString_ne_pair bound lo hi)
  · obtain ⟨lo, hi, rfl⟩ := List.length_eq_two.mp two
    obtain ⟨low, high, rfl⟩ := List.length_eq_two.mp pair
    obtain ⟨rfl, rfl⟩ := pair_inj same
    rfl

/-- Legible leaves that show the same emit the same. -/
theorem Leaf.Legible.eq_of_same {left right : Leaf} (first : left.Legible) (second : right.Legible)
    (same : left.same right = true) : left = right := by
  obtain ⟨name, value⟩ : left.name = right.name ∧ left.value = right.value := by
    simpa [Leaf.same] using same
  have apart : Registry.referenceName ≠ "range" := by decide
  cases first with
  | @constant own text plain fixed =>
      cases second with
      | @constant further other _ _ =>
          obtain rfl : own = further := name
          obtain rfl : text = other := value
          rfl
      | reference other => exact absurd name plain
      | range written count => exact absurd name fixed
  | reference bound =>
      cases second with
      | constant other plain _ => exact absurd name.symm plain
      | reference other =>
          obtain rfl : bound = other := Text.ofString_injective value
          rfl
      | range written count => exact absurd name apart
  | @range arguments shown written count =>
      cases second with
      | constant other _ fixed => exact absurd name.symm fixed
      | reference other => exact absurd name.symm apart
      | @range others display writes number =>
          obtain rfl : shown = display := Text.ofString_injective value
          rw [arguments_eq written writes count number]

namespace Grammar

variable {text : String} {grammar : Grammar}

/-- Linking leaves the leaves alone: those of an accepted grammar are legible. -/
theorem legible_of_parse (accepted : (parse Registry.default text).1 = .ok grammar)
    {key : String} {nonterminal : Nonterminal} (declared : grammar.get? key = some nonterminal)
    {rule : List Node} (chosen : rule ∈ nonterminal.rules) {leaf : Leaf}
    (member : .leaf leaf ∈ rule) : leaf.Legible := by
  obtain ⟨raw, read, complete, rfl⟩ := parse_eq_ok accepted
  have formed := (invariant_of_read (Reader.invariant_formed fun _ legible => legible) read).1
  rw [get?_link complete] at declared
  obtain ⟨source, found, rfl⟩ := Option.map_eq_some_iff.mp declared
  rw [Nonterminal.result_link (failure_nonterminal complete found)] at chosen
  obtain ⟨before, known, rfl⟩ := List.mem_map.mp chosen
  obtain ⟨node, inside, linked⟩ := List.mem_map.mp member
  cases (formed key source found).nodes known inside with
  | leaf legible =>
      cases linked
      exact legible
  | unresolved ref =>
      simp only [Node.link] at linked
      split at linked <;> cases linked

/-- The names of an accepted grammar are not empty. -/
theorem ne_empty_of_parse (accepted : (parse Registry.default text).1 = .ok grammar) {key : String}
    (declared : grammar.contains key = true) : key ≠ "" := by
  obtain ⟨raw, read, complete, rfl⟩ := parse_eq_ok accepted
  have known := (Table.contains_iff_mem_keys _ _).mp declared
  rw [keys_link] at known
  obtain ⟨lexeme, member, same⟩ := List.mem_map.mp ((drawn_of_read read).named key known)
  obtain ⟨piece, rest, spells, spelled⟩ := Lexeme.exists_spells member
  rintro rfl
  rw [same] at spelled
  exact spells.ne_nil (String.ofList_eq_empty_iff.mp spelled.symm)

end Grammar

end PhraseGrammar
