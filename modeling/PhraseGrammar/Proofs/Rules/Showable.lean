import PhraseGrammar.Proofs.Grammar.Showing
import PhraseGrammar.Proofs.Rules.Failures
import PhraseGrammar.Proofs.Rules.Recognition
import PhraseGrammar.Proofs.Token.FrontForms

/-!
# Texts whose grammars can be shown

The rules of a grammar that a text gives hold leaves and symbols only, and these
can be shown. What is left are integers: a grammar has a tree and lines exactly
if its depth hints and its default bindings can be written in decimal. Only a
hexadecimal numeral of the text may be too large for that.
-/

namespace PhraseGrammar

/-- The integer has a decimal numeral within the length limit. -/
def Writable (size : Int) : Prop :=
  (Numeral.decimal? size).isSome = true

/-- The depth hint as it stands behind the name. -/
def Nonterminal.suffix (nonterminal : Nonterminal) : String :=
  nonterminal.depthHint.elim "" fun hint => "#" ++ toString hint

namespace ShowFailure

theorem failure?_written_eq_none_iff {text? : Option String} :
    failure? (written text?) = none ↔ text?.isSome = true := by
  cases text? <;> simp [written, failure?]

theorem eq_of_written {text? : Option String} {failure : ShowFailure}
    (failed : written text? = .error failure) : failure = .integerTooLong := by
  cases text? with
  | none =>
      cases failed
      rfl
  | some text => cases failed

end ShowFailure

open ShowFailure

namespace Nonterminal

variable {nonterminal : Nonterminal}

theorem header_of_writable (fits : ∀ hint, nonterminal.depthHint = some hint → Writable hint) :
    nonterminal.header = .ok (nonterminal.name ++ nonterminal.suffix) := by
  unfold header suffix
  cases given : nonterminal.depthHint with
  | none => exact congrArg Except.ok (String.append_empty).symm
  | some hint =>
      have decimal := Numeral.decimal?_eq_toString (fits hint given)
      simp only [decimal, written, Option.elim_some, Except.map, String.append_assoc]

theorem failure?_header_eq_none_iff : failure? nonterminal.header = none ↔
    ∀ hint, nonterminal.depthHint = some hint → Writable hint := by
  unfold header
  cases nonterminal.depthHint with
  | none => exact ⟨fun _ _ => nofun, fun _ => rfl⟩
  | some hint =>
      rw [failure?_map, failure?_written_eq_none_iff]
      exact ⟨fun fits _ same => Option.some.inj same ▸ fits, fun fits => fits hint rfl⟩

theorem eq_of_header {failure : ShowFailure} (failed : nonterminal.header = .error failure) :
    failure = .integerTooLong := by
  unfold header at failed
  cases given : nonterminal.depthHint with
  | none =>
      rw [given] at failed
      cases failed
  | some hint =>
      rw [given, ← failure?_eq_some_iff, failure?_map, failure?_eq_some_iff] at failed
      exact eq_of_written failed

end Nonterminal

theorem failure?_showBinding_eq_none_iff {entry : String × Value} :
    failure? (showBinding entry) = none ↔ ∀ size, entry.2 = .integer size → Writable size := by
  obtain ⟨name, value⟩ := entry
  rw [showBinding, failure?_map, failure?_written_eq_none_iff]
  cases value with
  | integer size => exact ⟨fun fits _ same => Value.integer.inj same ▸ fits, fun fits => fits size rfl⟩
  | text value => exact ⟨fun _ _ => nofun, fun _ => rfl⟩
  | real value => exact ⟨fun _ _ => nofun, fun _ => rfl⟩

theorem eq_of_showBinding {entry : String × Value} {failure : ShowFailure}
    (failed : showBinding entry = .error failure) : failure = .integerTooLong := by
  rw [showBinding, ← failure?_eq_some_iff, failure?_map, failure?_eq_some_iff] at failed
  exact eq_of_written failed

namespace Grammar

/-- All depth hints and all integers among the default bindings can be written. -/
def Showable (grammar : Grammar) : Prop :=
  grammar.Keeps Writable

section Ready

variable {grammar : Grammar} (ready : grammar.Ready)

include ready

theorem Ready.formed {entry : String × Nonterminal} (member : entry ∈ grammar.table.entries) :
    entry.2.Formed (Node.Settled grammar) entry.1 :=
  ready entry.1 entry.2 (Table.get?_of_mem_entries member)

theorem Ready.describe {entry : String × Nonterminal} (member : entry ∈ grammar.table.entries)
    {node : Node} (inside : node ∈ entry.2.rules.flatten) :
    failure? (grammar.describe node) = none := by
  obtain ⟨rule, chosen, among⟩ := List.mem_flatten.mp inside
  cases (ready.formed member).nodes chosen among with
  | leaf standard => rfl
  | symbol declared => rfl

theorem Ready.firstFailure?_parts {entry : String × Nonterminal}
    (member : entry ∈ grammar.table.entries) :
    grammar.firstFailure? entry.2.parts =
      grammar.firstFailure? (entry.2.defaults.entries.map .binding) := by
  have nodes : grammar.firstFailure? (entry.2.rules.flatten.map .node) = none := by
    rw [firstFailure?, List.findSome?_eq_none_iff]
    intro part shown
    obtain ⟨node, inside, rfl⟩ := List.mem_map.mp shown
    exact ready.describe member inside
  rw [Nonterminal.parts, firstFailure?_append, nodes, Option.none_or]

/-- A linked grammar has a tree exactly if its integers can be written. -/
theorem Ready.failure?_outline_eq_none_iff :
    failure? grammar.outline = none ↔ grammar.Showable := by
  rw [failure?_outline, List.findSome?_eq_none_iff]
  refine forall₂_congr fun entry member => ?_
  have bindings : grammar.firstFailure? (entry.2.defaults.entries.map .binding) = none ↔
      ∀ binding ∈ entry.2.defaults.entries, ∀ size, binding.2 = .integer size → Writable size := by
    rw [firstFailure?, List.findSome?_eq_none_iff, List.forall_mem_map]
    exact forall₂_congr fun binding _ => failure?_showBinding_eq_none_iff
  rw [Option.or_eq_none_iff, ready.firstFailure?_parts member, bindings,
    Nonterminal.failure?_header_eq_none_iff]
  exact ⟨fun fits => ⟨fits.2, fits.1⟩, fun keeps => ⟨keeps.defaults, keeps.hint⟩⟩

/-- Whatever a linked grammar is not shown for is an integer that is too long. -/
theorem Ready.eq_of_fails {entry : String × Nonterminal} (member : entry ∈ grammar.table.entries)
    {failure : ShowFailure} (fails : grammar.firstFailure? entry.2.parts = some failure ∨
      failure? entry.2.header = some failure) : failure = .integerTooLong := by
  rcases fails with parts | header
  · rw [ready.firstFailure?_parts member] at parts
    obtain ⟨part, inside, failed⟩ := List.exists_of_findSome?_eq_some parts
    obtain ⟨binding, _, rfl⟩ := List.mem_map.mp inside
    exact eq_of_showBinding (failure?_eq_some_iff.mp failed)
  · exact Nonterminal.eq_of_header (failure?_eq_some_iff.mp header)

theorem Ready.eq_of_outline {failure : ShowFailure} (failed : grammar.outline = .error failure) :
    failure = .integerTooLong := by
  rw [← failure?_eq_some_iff, failure?_outline] at failed
  obtain ⟨entry, member, fails⟩ := List.exists_of_findSome?_eq_some failed
  exact ready.eq_of_fails member ((Option.or_eq_some_iff.mp fails).imp_right And.right)

theorem Ready.eq_of_dump {failure : ShowFailure} (failed : grammar.dump = .error failure) :
    failure = .integerTooLong := by
  rw [← failure?_eq_some_iff, failure?_dump] at failed
  obtain ⟨entry, member, fails⟩ := List.exists_of_findSome?_eq_some failed
  exact ready.eq_of_fails member ((Option.or_eq_some_iff.mp fails).imp_right And.right).symm

/-- A linked grammar can be shown in both ways or in neither. -/
theorem Ready.shown_cases :
    (grammar.Showable ∧ (∃ tree, grammar.outline = .ok tree) ∧ ∃ lines, grammar.dump = .ok lines) ∨
      (¬grammar.Showable ∧ grammar.outline = .error .integerTooLong ∧
        grammar.dump = .error .integerTooLong) := by
  cases shown : grammar.outline with
  | ok tree =>
      have showable : failure? grammar.outline = none := failure?_eq_none_iff.mpr ⟨tree, shown⟩
      exact .inl ⟨ready.failure?_outline_eq_none_iff.mp showable, ⟨tree, rfl⟩, _, dump_of_outline shown⟩
  | error failure =>
      have fails : failure? grammar.outline ≠ none := by
        rw [shown]
        exact nofun
      refine .inr ⟨fun showable => fails (ready.failure?_outline_eq_none_iff.mpr showable),
        congrArg Except.error (ready.eq_of_outline shown), ?_⟩
      cases written : grammar.dump with
      | ok lines =>
          rw [Ne, Grammar.failure?_outline_eq_none_iff, written] at fails
          exact absurd rfl fails
      | error other => exact congrArg Except.error (ready.eq_of_dump written)

/-- The nonterminals of the tree are the keys of the table, each with its suffix. -/
theorem Ready.names_of_outline (showable : grammar.Showable) {tree : Outline}
    (shown : grammar.outline = .ok tree) : tree.entries.map Outline.Entry.name =
      grammar.table.entries.map fun entry => entry.1 ++ entry.2.suffix := by
  have names := congrArg (List.map Prod.fst) (entries_of_outline shown)
  rw [List.map_map, List.map_map] at names
  apply List.map_injective_iff.mpr fun left right => Except.ok.inj (ε := ShowFailure)
  rw [List.map_map, List.map_map]
  refine names.trans (List.map_congr_left fun entry member => ?_)
  have header := Nonterminal.header_of_writable (showable entry member).hint
  rwa [(ready.formed member).name_eq] at header

end Ready

/-- Linking leaves depth hints and default bindings alone. -/
theorem Keeps.link {holds : Int → Prop} {grammar : Grammar} (keeps : grammar.Keeps holds)
    (complete : grammar.link.failure = none) : grammar.link.result.Keeps holds := by
  intro entry member
  have found := Table.get?_of_mem_entries member
  obtain ⟨source, declared, same⟩ := Option.map_eq_some_iff.mp ((get?_link complete _).symm.trans found)
  have before := keeps _ (Table.mem_entries_of_get? declared)
  rw [← same, Nonterminal.result_link (failure_nonterminal complete declared)]
  exact ⟨before.hint, before.defaults⟩

/-- The grammar of a text can be shown if its hexadecimal numerals have decimal ones. -/
theorem showable_of_parse {text : String} {grammar : Grammar}
    (accepted : (parse Registry.default text).1 = .ok grammar)
    (decimal : ∀ lexeme ∈ (lexemes text).1, lexeme.token.Decimal) : grammar.Showable := by
  obtain ⟨raw, read, complete, rfl⟩ := parse_eq_ok accepted
  refine Keeps.link (fun entry member => ?_) complete
  have all : ∀ token ∈ (lexemes text).1.map Lexeme.token, token.Decimal :=
    List.forall_mem_map.mpr decimal
  have drawn := (drawn_of_read read).kept entry member
  exact ⟨fun hint given => drawn.hint hint given all,
    fun binding bound size same => drawn.defaults binding bound size same all⟩

end Grammar

/-! ## Depth hints of any length -/

open Lexical

/-- A text of one empty rule, with these hexadecimal digits in the depth hint. -/
def hintedText (digits : List Char) : String :=
  String.ofList ('S' :: '#' :: '0' :: 'x' :: (digits ++ [':', '.']))

def hinted (hint : Int) : Grammar where
  table := ⟨[("S", ⟨"S", [[]], .empty, some hint⟩)], by simp⟩
  start := some "S"

theorem lexemes_hintedText {digits : List Char} (filled : Filled Unicode.isHexDigit digits) :
    ∃ head marker numeral colon period place,
      lexemes (hintedText digits) = ([head, marker, numeral, colon, period], .eof place) ∧
        (head.token = ⟨.ident, "S"⟩ ∧ head.follow = some '#') ∧
          numeral.token = ⟨.int, String.ofList ('0' :: 'x' :: digits)⟩ ∧
            colon.token = .punct ":" ∧ period.token = .punct "." := by
  have name (rest : List Char) : Front.ofText 'S' ('#' :: rest) = .token .ident 0 := rfl
  have mark (rest : List Char) : Front.ofText '#' rest = .token .punct 0 := rfl
  have numeral : Front.ofText '0' ('x' :: (digits ++ [':', '.'])) =
      .token .int (digits.length + 1) :=
    Front.ofText_of_spells (.hexadecimal (.inl rfl) filled fun c first => by cases first; decide)
  have colon : Front.ofText ':' ['.'] = .token .punct 0 := rfl
  have period : Front.ofText '.' [] = .token .punct 0 := rfl
  rw [lexemes, hintedText, String.toList_ofList]
  simp only [Lexeme.scan, name, mark, numeral]
  rw [Lexeme.scan_skip]
  simp only [List.drop_left, Lexeme.scan, colon, period]
  refine ⟨_, _, _, _, _, _, rfl, ⟨rfl, rfl⟩, ?_, rfl, rfl⟩
  simp [Lexeme.cut]
namespace Reader

variable {reading : Reading} {ending : Ending} {rest : List Lexeme}

/-- A depth hint is read whatever its size. -/
theorem gives_hint {marker numeral : Lexeme} {size : Int} (name : String)
    (sees : reading.Sees (marker :: numeral :: rest) ending) (follows : reading.follow = some '#')
    (kind : numeral.token.kind = .int)
    (denotes : Numeral.readInteger? numeral.token.text = some size) :
    (depthHint name).Gives reading (some size) rest ending := by
  refine ⟨_, ?_, sees.pass.pass⟩
  rw [depthHint, run_bind_of_ok (run_follow reading), if_pos (.inr follows),
    run_bind_of_ok sees.next_eq, run_bind_of_ok sees.pass.next_eq, if_neg (not_not.mpr kind),
    integer, denotes]
  rfl

theorem gives_emptyRule {colon period : Lexeme} (name : String)
    (sees : reading.Sees (colon :: period :: rest) ending) (begins : colon.token = .punct ":")
    (ends : period.token = .punct ".") :
    (rules Registry.default name).Gives reading [[]] rest ending := by
  have none : (nodes Registry.default).run (reading.pass colon (period :: rest)) =
      (.ok ([], false), (reading.pass colon (period :: rest)).pass period rest) := by
    rw [nodes, run_eachToken, loop_of_cons _ _ _ rfl, nodesTurn, if_pos ends]
    rfl
  refine ⟨_, ?_, sees.pass.pass⟩
  rw [rules, run_eachToken, loop_of_cons _ _ _ sees.pending_eq, rulesTurn,
    if_pos (show colon.token = .punct (ruleMark #[]) from begins), run_bind_of_ok none]
  rfl

theorem run_hinted {head marker numeral colon period : Lexeme} {size : Int} {place : Position}
    (sees : reading.Sees [head, marker, numeral, colon, period] (.eof place))
    (headed : head.token = ⟨.ident, "S"⟩ ∧ head.follow = some '#')
    (kind : numeral.token.kind = .int)
    (denotes : Numeral.readInteger? numeral.token.text = some size)
    (begins : colon.token = .punct ":") (ends : period.token = .punct ".") :
    ((grammar Registry.default).run reading).1 = .ok (hinted size) := by
  obtain ⟨between, hint, seen⟩ := gives_hint "S" sees.pass headed.2 kind denotes
  obtain ⟨after, rule, left⟩ := gives_emptyRule "S" seen begins ends
  have turn : ∃ last, (definitionsTurn Registry.default ⟨.empty, none⟩ head.token).run
      (reading.pass head [marker, numeral, colon, period]) =
        (.ok (.again (hinted size)), last) ∧ last.Sees [] (.eof place) := by
    refine ⟨{ after with log := after.log ++ [.parsed "S" 1] }, ?_, left.pending_eq, left.ending_eq⟩
    rw [headed.1, definitionsTurn, if_neg (by decide), if_neg (by decide), run_bind_of_ok hint,
      if_neg (by decide), run_bind_of_ok rule]
    rfl
  obtain ⟨last, turned, behind⟩ := turn
  obtain ⟨stop, read, _⟩ := behind.exists_next_of_nil ⟨place, rfl⟩
  have whole : (definitions Registry.default).run reading = (.ok (hinted size), stop) := by
    rw [definitions, run_eachToken, loop_of_cons _ _ _ sees.pending_eq, turned]
    dsimp only
    rw [loop_of_nil _ _ _ behind.pending_eq]
    exact run_bind_of_ok read
  rw [grammar, run_bind_of_ok whole]
  rfl

end Reader

/-- No hexadecimal depth hint is refused, however long it is. -/
theorem parse_hintedText {digits : List Char} (filled : Filled Unicode.isHexDigit digits) :
    (Grammar.parse .default (hintedText digits)).1 =
      .ok (hinted (Numeral.hexadecimalValue digits)) := by
  obtain ⟨head, marker, numeral, colon, period, place, lexed, headed, numbered, begins, ends⟩ :=
    lexemes_hintedText filled
  have sees : (Reading.ofText (hintedText digits)).Sees
      [head, marker, numeral, colon, period] (.eof place) :=
    ⟨congrArg Prod.fst lexed, congrArg Prod.snd lexed⟩
  refine Grammar.parse_of_read (Reader.run_hinted sees headed (by rw [numbered]) ?_ begins ends) rfl
  rw [numbered]
  exact Numeral.readInteger?_hexadecimal (.inl rfl) filled.nonempty filled.all

end PhraseGrammar
