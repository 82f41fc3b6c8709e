import Mathlib.Data.List.GetD
import PhraseGrammar.Proofs.Expansion.Fresh
import PhraseGrammar.Proofs.Expansion.Simulation

/-!
# The language of a symbol

The rules of a grammar are the productions of a context-free grammar: a leaf
stands for its text or for any numeral of its interval, and a symbol for
whatever one of its rules derives. What a symbol can be expanded to, over all
draws, is exactly what can be derived from it.
-/

namespace PhraseGrammar

/-- The texts that a leaf stands for. -/
inductive Emission.Denotes : Emission → Text → Prop where
  | text (value : Text) : Denotes (.text value) value
  | numeral {arguments : List Int} {lo hi value : Int} (ends : interval? arguments = some (lo, hi))
      (above : lo ≤ value) (below : value < hi) : Denotes (.draw arguments) (toString value)

/-- A leaf whose text is that of a bound name. -/
def Node.refers : Node → Bool
  | .leaf ⟨_, _, .lookup _⟩ => true
  | _ => false

theorem Node.emission_ne_lookup {leaf : Leaf} (constant : (Node.leaf leaf).refers = false)
    (name : String) : leaf.emission ≠ .lookup name := by
  obtain ⟨kind, shown, emission⟩ := leaf
  rintro rfl
  cases constant

namespace Grammar

/-- The texts that a sequence of nodes derives, each symbol by one of its rules. -/
inductive Derives (grammar : Grammar) : List Node → Text → Prop where
  | nil : Derives grammar [] ""
  | leaf {leaf : Leaf} {rest : List Node} {word text : Text}
      (stands : leaf.emission.Denotes word) (others : Derives grammar rest text) :
      Derives grammar (.leaf leaf :: rest) (word ++ text)
  | symbol {key : String} {nonterminal : Nonterminal} {rule rest : List Node}
      {word text : Text} (declared : grammar.get? key = some nonterminal)
      (chosen : rule ∈ nonterminal.rules) (inside : Derives grammar rule word)
      (others : Derives grammar rest text) : Derives grammar (.symbol key :: rest) (word ++ text)

theorem Derives.of_rule {grammar : Grammar} {key : String} {nonterminal : Nonterminal}
    {rule : List Node} {word : Text} (declared : grammar.get? key = some nonterminal)
    (chosen : rule ∈ nonterminal.rules) (inside : grammar.Derives rule word) :
    grammar.Derives [.symbol key] word := by
  have whole := Derives.symbol declared chosen inside .nil
  rwa [Text.append_empty] at whole

theorem Derives.followed {grammar : Grammar} {key : String} {rest : List Node}
    {word text : Text} (first : grammar.Derives [.symbol key] word)
    (others : grammar.Derives rest text) : grammar.Derives (.symbol key :: rest) (word ++ text) := by
  cases first with
  | symbol declared chosen inside nothing =>
      cases nothing
      rw [Text.append_empty]
      exact .symbol declared chosen inside others

/-- No rule refers to a bound name. -/
def WithoutReferences (grammar : Grammar) : Prop :=
  ∀ entry ∈ grammar.table.entries, ∀ rule ∈ entry.2.rules, ∀ node ∈ rule, node.refers = false

instance (grammar : Grammar) : Decidable grammar.WithoutReferences :=
  inferInstanceAs (Decidable (∀ entry ∈ grammar.table.entries, _))

end Grammar

theorem Outcome.andThen_eq_ok {α β : Type} {first : Outcome α}
    {second : α → List Random.Source → Outcome β} {result : β} {after : List Random.Source}
    (ran : first.andThen second = (.ok result, after)) :
    ∃ value between, first = (.ok value, between) ∧ second value between = (.ok result, after) := by
  obtain ⟨outcome, sources⟩ := first
  cases outcome with
  | error failure => cases ran
  | ok value => exact ⟨value, sources, rfl, ran⟩

namespace Environment

/-! ## Soundness -/

theorem draw_lt {environment : Environment} {bound value : Nat}
    {sources after : List Random.Source}
    (drawn : environment.draw bound sources = (.ok value, after)) : value < bound := by
  unfold draw at drawn
  split at drawn
  · cases drawn
  · cases drawn
  · split at drawn
    · cases drawn
    · split at drawn
      · cases drawn
      · rename_i nonzero _ source _
        cases drawn
        exact source.draw_lt (Nat.pos_of_ne_zero nonzero)

theorem write_eq_ok {text? : Option Text} {text : Text} {sources after : List Random.Source}
    (written : write text? sources = (.ok text, after)) : text? = some text := by
  cases text? with
  | none => cases written
  | some shown =>
      cases written
      rfl

theorem denotes_of_emit {environment : Environment} {leaf : Leaf} (standard : leaf.Standard)
    (constant : ∀ name, leaf.emission ≠ .lookup name) {sources after : List Random.Source}
    {text : Text} (emitted : environment.emit leaf.emission sources = (.ok text, after)) :
    leaf.emission.Denotes text := by
  cases standard with
  | constant name value =>
      cases emitted
      exact .text text
  | reference name => exact absurd rfl (constant name)
  | range written count =>
      obtain ⟨lo, hi, ends, _, _⟩ := interval?_of_joinDecimals? written count
      simp only [emit, ends, drawBetween] at emitted
      split at emitted
      · split at emitted <;> cases emitted
      · obtain ⟨offset, between, drawn, shown⟩ := Outcome.andThen_eq_ok emitted
        have below := draw_lt drawn
        have numeral := Numeral.eq_toString_of_text? (write_eq_ok shown)
        rw [numeral]
        exact .numeral ends (by omega) (by omega)

section

variable {grammar : Grammar} {owner : String}
  {symbol : String → Environment → List Random.Source → Outcome Text}

/-- What a rule gives can be derived from it, if that is so of the symbols in it. -/
theorem derives_of_nodes {rule : List Node} (settled : ∀ node ∈ rule, node.Settled grammar)
    (constant : ∀ leaf, .leaf leaf ∈ rule → ∀ name, leaf.emission ≠ .lookup name)
    (symbols : ∀ key environment sources word after, .symbol key ∈ rule →
      symbol key environment sources = (.ok word, after) → grammar.Derives [.symbol key] word)
    {environment : Environment} {sources after : List Random.Source} {word : Text}
    (ran : nodes grammar symbol owner rule environment sources = (.ok word, after)) :
    grammar.Derives rule word := by
  induction rule generalizing environment sources word with
  | nil =>
      cases ran
      exact .nil
  | cons first rest ih =>
      have others := @ih (fun node member => settled node (.tail _ member))
        (fun leaf member => constant leaf (.tail _ member))
        (fun key environment sources word after member =>
          symbols key environment sources word after (.tail _ member))
      cases settled first List.mem_cons_self with
      | leaf standard =>
          obtain ⟨text, between, emitted, further⟩ := Outcome.andThen_eq_ok ran
          obtain ⟨words, last, remaining, joined⟩ := Outcome.andThen_eq_ok further
          cases joined
          have stands := denotes_of_emit standard (constant _ List.mem_cons_self) emitted
          exact .leaf stands (others remaining)
      | symbol declared =>
          obtain ⟨text, between, expanded, further⟩ := Outcome.andThen_eq_ok ran
          obtain ⟨words, last, remaining, joined⟩ := Outcome.andThen_eq_ok further
          cases joined
          have derived := symbols _ _ _ _ _ List.mem_cons_self expanded
          exact derived.followed (others remaining)

end

/-- Whatever is drawn, the text of a symbol can be derived from it: by induction on the limit. -/
theorem derives_of_evaluate {grammar : Grammar} (ready : grammar.Ready)
    (constant : grammar.WithoutReferences) (limit : Nat) {key : String}
    {environment : Environment} {sources after : List Random.Source} {word : Text}
    (ran : evaluate grammar limit key environment sources = (.ok word, after)) :
    grammar.Derives [.symbol key] word := by
  induction limit generalizing key environment sources word after with
  | zero => cases ran
  | succ limit ih =>
      unfold evaluate at ran
      split at ran
      · cases ran
      · rename_i nonterminal found
        obtain ⟨index, between, drawn, inside⟩ := Outcome.andThen_eq_ok ran
        have below := draw_lt drawn
        have chosen : nonterminal.rules.getD index [] ∈ nonterminal.rules := by
          rw [List.getD_eq_getElem _ _ below]
          exact List.getElem_mem below
        refine .of_rule found chosen (derives_of_nodes ?_ ?_ ?_ inside)
        · exact fun node member => (ready key nonterminal found).nodes chosen member
        · exact fun leaf member =>
            Node.emission_ne_lookup (constant _ (Table.mem_entries_of_get? found) _ chosen _ member)
        · exact fun next environment sources word after _ ran => ih ran

/-! ## Completeness -/

/-- The environment sees the first source. -/
def SeesFirst (environment : Environment) : Prop :=
  ∃ shown, environment randomName = some (.source 0 shown)

theorem SeesFirst.set {environment : Environment} (sees : environment.SeesFirst) {name : String}
    (other : name ≠ randomName) (binding : Binding) : (environment.set name binding).SeesFirst :=
  sees.imp fun _ => (set_of_ne (Ne.symm other) binding).trans

theorem SeesFirst.override {environment : Environment} (sees : environment.SeesFirst)
    {defaults : Table Value} (spares : defaults.contains randomName = false) :
    (environment.override defaults).SeesFirst :=
  sees.imp fun _ => (override_of_spared spares).trans

/-- A script that starts with a number below the bound makes it the next draw. -/
theorem SeesFirst.draw_eq {environment : Environment} (sees : environment.SeesFirst)
    {bound value : Nat} (below : value < bound) (rest : List Nat) :
    environment.draw bound [.script (value :: rest)] = (.ok value, [.script rest]) := by
  obtain ⟨shown, seen⟩ := sees
  simp only [draw, seen, Nat.ne_of_gt (Nat.lt_of_le_of_lt (Nat.zero_le value) below), if_false,
    List.getElem?_cons_zero, Random.Source.exists_draw below, List.set_cons_zero]

/-- Every text that a leaf stands for is emitted for some draws. -/
theorem exists_script_of_denotes {leaf : Leaf} (standard : leaf.Standard) {text : Text}
    (stands : leaf.emission.Denotes text) :
    ∃ draws, ∀ environment : Environment, environment.SeesFirst → ∀ rest,
      environment.emit leaf.emission [.script (draws ++ rest)] = (.ok text, [.script rest]) := by
  cases standard with
  | constant name value =>
      cases stands
      exact ⟨[], fun environment sees rest => rfl⟩
  | reference name => cases stands
  | range written count =>
      obtain ⟨lo, hi, ends, left, right⟩ := interval?_of_joinDecimals? written count
      cases stands with
      | @numeral _ first last value same above below =>
          obtain ⟨rfl, rfl⟩ := Prod.mk.inj (Option.some.inj (ends.symm.trans same))
          refine ⟨[(value - lo).toNat], fun environment sees rest => ?_⟩
          have short := Numeral.isSome_decimal?_of_between left right above below
          have offset : lo + ((value - lo).toNat : Int) = value := by omega
          have drawn := sees.draw_eq (show (value - lo).toNat < (hi - lo).toNat by omega) rest
          simp only [emit, ends, drawBetween, if_neg (show ¬hi ≤ lo by omega),
            List.singleton_append, drawn, Outcome.andThen, offset,
            Numeral.text?_eq_toString short]
          rfl

/-- The draws make the rule give the text, and all of them are used up. -/
def Scripted (grammar : Grammar) (rule : List Node) (word : Text) (draws : List Nat)
    (limit : Nat) : Prop :=
  ∀ more, limit ≤ more → ∀ owner environment, SeesFirst environment → ∀ rest,
    nodes grammar (evaluate grammar more) owner rule environment [.script (draws ++ rest)] =
      (.ok word, [.script rest])

/--
Every text that can be derived from a rule is given for some draws: the choices
of the derivation, in the order of its nodes.
-/
theorem exists_scripted {grammar : Grammar} (ready : grammar.Ready)
    (spares : grammar.SparesSource) {rule : List Node} {word : Text}
    (derives : grammar.Derives rule word) (settled : ∀ node ∈ rule, node.Settled grammar) :
    ∃ draws limit, Scripted grammar rule word draws limit := by
  induction derives with
  | nil => exact ⟨[], 0, fun more _ owner environment _ rest => rfl⟩
  | leaf stands others ih =>
      cases settled _ List.mem_cons_self with
      | leaf standard =>
          obtain ⟨first, emitted⟩ := exists_script_of_denotes standard stands
          obtain ⟨later, limit, follows⟩ := ih fun node member => settled node (.tail _ member)
          refine ⟨first ++ later, limit, fun more enough owner environment sees rest => ?_⟩
          rw [nodes, List.append_assoc, emitted environment sees]
          simp only [Outcome.andThen, follows more enough owner environment sees rest]
  | @symbol key nonterminal chosenRule rest word text found chosen inside others ihInside ihOthers =>
      cases settled _ List.mem_cons_self with
      | symbol declared =>
          have formed := ready key nonterminal found
          obtain ⟨index, below, rfl⟩ := List.getElem_of_mem chosen
          obtain ⟨first, depth, expands⟩ := ihInside fun node member => formed.nodes chosen member
          obtain ⟨later, limit, follows⟩ :=
            ihOthers fun node member => settled node (.tail _ member)
          refine ⟨index :: (first ++ later), max (depth + 1) limit,
            fun more enough owner environment sees rest => ?_⟩
          obtain ⟨less, rfl⟩ : ∃ less, more = less + 1 := ⟨more - 1, by omega⟩
          have within := sees.override (spares.2 _ (Table.mem_entries_of_get? found))
          have after := sees.set (Grammar.nameOf_ne ready spares declared) (.value (.text word))
          rw [nodes, evaluate, found]
          simp only [List.cons_append, List.append_assoc, sees.draw_eq below, Outcome.andThen,
            List.getD_eq_getElem _ _ below, expands less (by omega) _ _ within,
            follows (less + 1) (by omega) _ _ after]

end Environment

namespace Expander

/--
Expansion generates the language of a symbol. A text is generated for some
draws and some limit exactly if it can be derived; whatever the source and the
limit, only derivable texts are generated, none if the symbol derives none.
-/
theorem expand_iff_derives {text : String} {grammar : Grammar}
    (accepted : (Grammar.parse Registry.default text).1 = .ok grammar)
    (spares : grammar.SparesSource) (constant : grammar.WithoutReferences) {key : String}
    (declared : grammar.contains key = true) (bindings : Frame) (shown : Text) :
    (∀ word, (∃ draws limit after,
        expand grammar limit key (.fresh bindings (.script draws) shown) = .ok word after) ↔
          grammar.Derives [.symbol key] word) ∧
      (∀ source limit word after,
        expand grammar limit key (.fresh bindings source shown) = .ok word after →
          grammar.Derives [.symbol key] word) ∧
      ((∀ word, ¬grammar.Derives [.symbol key] word) → ∀ source limit,
        ∃ failure after,
          expand grammar limit key (.fresh bindings source shown) = .error failure after) := by
  have ready := Grammar.ready_of_parse accepted
  have sound (source : Random.Source) (limit : Nat) (word : Text) (after : Run)
      (expanded : expand grammar limit key (.fresh bindings source shown) = .ok word after) :
      grammar.Derives [.symbol key] word := by
    have outcome := (follows_expand grammar limit key).outcome (.fresh bindings source shown)
    rw [expanded] at outcome
    exact Environment.derives_of_evaluate ready constant limit outcome.symm
  refine ⟨fun word => ⟨?_, ?_⟩, sound, ?_⟩
  · rintro ⟨draws, limit, after, expanded⟩
    exact sound _ limit word after expanded
  · intro derives
    obtain ⟨draws, limit, follows⟩ := Environment.exists_scripted ready spares derives
      fun node member => List.mem_singleton.mp member ▸ .symbol declared
    have sees : Environment.SeesFirst (Run.fresh bindings (.script draws) shown).scope.get? := by
      refine ⟨shown, ?_⟩
      rw [Run.get?_fresh, if_pos rfl]
    have given := follows limit (Nat.le_refl limit) "" _ sees []
    rw [List.append_nil] at given
    obtain ⟨first, between, expanded, further⟩ := Outcome.andThen_eq_ok given
    obtain ⟨nothing, last, ended, joined⟩ := Outcome.andThen_eq_ok further
    cases ended
    cases joined
    have outcome := (follows_expand grammar limit key).outcome (.fresh bindings (.script draws) shown)
    rw [show (Run.fresh bindings (.script draws) shown).sources = [.script draws] from rfl,
      expanded] at outcome
    rw [Text.append_empty]
    cases result : expand grammar limit key (.fresh bindings (.script draws) shown) with
    | error failure after =>
        rw [result] at outcome
        cases outcome
    | ok word after =>
        rw [result] at outcome
        have same := Except.ok.inj (congrArg Prod.fst outcome)
        exact ⟨draws, limit, after, same ▸ result⟩
  · intro none source limit
    cases result : expand grammar limit key (.fresh bindings source shown) with
    | ok word after => exact absurd (sound source limit word after result) (none word)
    | error failure after => exact ⟨failure, after, rfl⟩

/-- A symbol with texts of any length, and one without any text. -/
def endless : Grammar where
  table := ⟨[
    ("S", ⟨"S", [[.leaf ⟨"range", "-1, 3", .draw [-1, 3]⟩, .symbol "S"],
      [.leaf (.constant "String" "!")]], .empty, none⟩),
    ("U", ⟨"U", [[.symbol "U"]], .empty, none⟩)], by decide⟩
  start := some "S"

def endlessText : String :=
  "S : range(-1, 0x3) S ; | \"!\" . U : U"

theorem derives_endless : endless.Derives [.symbol "S"] "2-1!" := by
  have ends : interval? [-1, 3] = some (-1, 3) := rfl
  have last : endless.Derives [.symbol "S"] (("!" : Text) ++ ("" : Text)) :=
    .of_rule rfl (.tail _ (.head _)) (.leaf (.text "!") .nil)
  have middle : endless.Derives [.symbol "S"]
      (Text.ofString (toString (-1 : Int)) ++ (("!" : Text) ++ ("" : Text))) :=
    .of_rule rfl (.head _) (.leaf (.numeral ends (by decide) (by decide)) last)
  have whole : endless.Derives [.symbol "S"]
      (Text.ofString (toString (2 : Int)) ++
        (Text.ofString (toString (-1 : Int)) ++ (("!" : Text) ++ ("" : Text)))) :=
    .of_rule rfl (.head _) (.leaf (.numeral ends (by decide) (by decide)) middle)
  exact whole

theorem not_derives_endless {rule : List Node} {word : Text}
    (derives : endless.Derives rule word) : .symbol "U" ∉ rule := by
  induction derives with
  | nil => exact List.not_mem_nil
  | leaf stands others ih => simpa using ih
  | @symbol key nonterminal rule rest word text declared chosen inside others ihInside ihOthers =>
      have other : key ≠ "U" := by
        rintro rfl
        cases declared
        cases List.mem_singleton.mp chosen
        exact ihInside List.mem_cons_self
      simpa [Ne.symm other] using ihOthers

theorem expand_iff_derives_endless :
    (Grammar.parse Registry.default endlessText).1 = .ok endless ∧ endless.SparesSource ∧
      endless.WithoutReferences ∧ endless.contains "S" = true ∧ endless.contains "U" = true ∧
        ∀ shown, (∃ draws limit after,
          expand endless limit "S" (.fresh .empty (.script draws) shown) = .ok "2-1!" after) ∧
          ∀ source limit, ∃ failure after,
            expand endless limit "U" (.fresh .empty source shown) = .error failure after :=
  have accepted : (Grammar.parse Registry.default endlessText).1 = .ok endless := by
    decide +kernel
  have spares : endless.SparesSource := by decide
  have constant : endless.WithoutReferences := by decide
  ⟨accepted, spares, constant, rfl, rfl, fun shown =>
    ⟨((expand_iff_derives accepted spares constant rfl .empty shown).1 "2-1!").mpr derives_endless,
      (expand_iff_derives accepted spares constant rfl .empty shown).2.2 fun word derives =>
        not_derives_endless derives List.mem_cons_self⟩⟩

end Expander

end PhraseGrammar
