import PhraseGrammar.Proofs.Expansion.Batches
import PhraseGrammar.Proofs.Expansion.Causes
import PhraseGrammar.Service.Routes

/-!
# Answers with texts

The entropy of the service is used only where the seed is null. A request that
names no symbol is expanded from the stored one, and as that is declared, the
symbol is never called unknown.
-/

namespace PhraseGrammar.Service

/-- The seed that a request names, or else the configured one. -/
def Request.seed (request : Request) (settings : Settings) : Json String :=
  ((request.body?.bind fields?).bind (Json.get? · "seed")).getD settings.seed

/-- The body names no symbol to start from; what is falsy names none. -/
def OmitsStart (body : Json String) : Prop :=
  ∀ fields start, fields? body = some fields → fields.get? "start" = some start →
    start.isFalsy = true

/--
Texts for a request do not depend on the entropy: they are drawn from a seed,
and no leaf of the stored grammar emits how the source is shown, unless that is
the same in both.
-/
structure Request.Settles (request : Request) (state : State) (first second : Random.Entropy) :
    Prop where
  seeded : request.seed state.settings ≠ .null
  shown : ∀ loaded ∈ state.loaded, ∀ symbol, loaded.grammar.ShowsSource symbol →
    first.shown 0 = second.shown 0

theorem source?_eq {seed : Json String} (given : seed ≠ .null) (first second : Random.Source) :
    source? first seed = source? second seed := by
  cases seed with
  | null => exact absurd rfl given
  | _ => rfl

theorem expandWith_shown {loaded : Loaded} {shown word : Text}
    (alike : ∀ symbol, loaded.grammar.ShowsSource symbol → shown = word) (symbol : String)
    (count : Nat) (source : Random.Source) :
    expandWith loaded symbol count source shown = expandWith loaded symbol count source word := by
  rw [expandWith, Expander.generateStrings_shown fun key _ => alike key, expandWith]

theorem expand_eq {request : Request} {state : State} {body : Json String}
    (sent : request.body? = some body) {first second : Random.Entropy}
    (settles : request.Settles state first second) :
    expand first state body = expand second state body := by
  unfold expand
  cases kept : state.loaded with
  | none => rfl
  | some loaded =>
      cases object : fields? body with
      | none => rfl
      | some fields =>
          have seed : request.seed state.settings =
              (fields.get? "seed").getD state.settings.seed := by
            rw [Request.seed, sent, Option.bind_some, object, Option.bind_some]
          have seeded := settles.seeded
          rw [seed] at seeded
          have same := expandWith_shown (settles.shown loaded kept)
          simp only [source?_eq seeded first.source second.source, same]

/-- With a seed, and for everything but texts, the entropy does not matter. -/
theorem handle_eq {request : Request} {state : State} {first second : Random.Entropy}
    (settles : Route.ofPath? (Target.path request.url) = some .generate →
      request.Settles state first second) :
    handle first state request = handle second state request := by
  have same (route : Route) (path : Route.ofPath? (Target.path request.url) = some route) :
      answer first state route request.body? = answer second state route request.body? := by
    cases route with
    | generate =>
        cases sent : request.body? with
        | none => rfl
        | some body => simp only [answer, expand_eq sent (settles path)]
    | _ => cases request.body? <;> rfl
  unfold handle
  cases path : Route.ofPath? (Target.path request.url) with
  | none => rfl
  | some route => simp only [same route path]

/-- The refusal of a symbol that is not declared, whatever the symbol. -/
def Response.CallsUnknown (response : Response) : Prop :=
  ∃ rest, response = .refuse ("Unknown start symbol" ++ rest)

theorem not_callsUnknown_refuse {message : String} {c : Char}
    (opens : message.toList.head? = some c) (other : c ≠ 'U') :
    ¬(Response.refuse message).CallsUnknown := by
  rintro ⟨name, same⟩
  have texts : Text.ofString message = Text.ofString ("Unknown start symbol" ++ name) := by
    simpa only [Response.refuse, Response.ok, Response.mk.injEq, Option.some.injEq,
      Json.object.injEq, List.cons.injEq, Prod.mk.injEq, Json.string.injEq, true_and, and_true]
      using same
  replace texts := Text.ofString_injective texts
  rw [texts, String.toList_append, List.head?_append] at opens
  exact other (Option.some.inj opens).symm

theorem head?_append {front : String} {c : Char} (opens : front.toList.head? = some c)
    (rest : String) : (front ++ rest).toList.head? = some c := by
  rw [String.toList_append, List.head?_append, opens, Option.some_or]

theorem not_callsUnknown_of_ofLeaf {cause : Cause} (blamed : cause.OfLeaf) :
    ¬(Response.refuse cause.message).CallsUnknown := by
  have opens : cause.message.toList.head? = some 'r' := by
    cases blamed with
    | unbound name => exact head?_append (head?_append rfl _) _
    | arity count => exact head?_append rfl _
    | empty lo hi => exact head?_append (head?_append (head?_append (head?_append rfl _) _) _) _
  exact not_callsUnknown_refuse opens (by decide)

theorem not_callsUnknown_refuseCount (limit : Json String) : ¬(refuseCount limit).CallsUnknown := by
  unfold refuseCount refuseWith
  cases limit.display? with
  | none =>
      rintro ⟨rest, same⟩
      cases same
  | some shown => exact not_callsUnknown_refuse (head?_append (head?_append rfl _) _) (by decide)

/-- What is kept is expanded from a declared symbol, also if none is asked for. -/
structure Loaded.Startable (loaded : Loaded) (start : String) : Prop where
  stored : loaded.start = some start
  declared : loaded.grammar.contains start = true
  first : ∃ key, loaded.grammar.start = some key ∧ loaded.grammar.contains key = true

variable {loaded : Loaded} {start : String}

theorem not_callsUnknown_expandWith (startable : loaded.Startable start) (count : Nat)
    (source : Random.Source) (shown : Text) :
    ¬(expandWith loaded start count source shown).CallsUnknown := by
  have chosen : ∃ key, Expander.chosen loaded.grammar (some start) = some key ∧
      loaded.grammar.contains key = true := by
    by_cases empty : start = ""
    · simpa only [Expander.chosen, if_pos empty] using startable.first
    · exact ⟨start, if_neg empty, startable.declared⟩
  obtain ⟨key, asked, declared⟩ := chosen
  unfold expandWith
  split
  · rintro ⟨rest, same⟩
    cases same
  · rename_i error failed
    obtain ⟨cause, blamed, rfl⟩ :=
      Grammar.ofLeaf_of_generateStrings asked declared failed error rfl
    exact not_callsUnknown_of_ofLeaf blamed
  · rintro ⟨rest, same⟩
    cases same

theorem requestedSymbol_of_omitsStart {fields : Json String} (startable : loaded.Startable start)
    (omits : ∀ asked, fields.get? "start" = some asked → asked.isFalsy = true) :
    requestedSymbol loaded fields = .string start := by
  have stored : requestedSymbol.stored loaded = .string start := by
    rw [requestedSymbol.stored, startable.stored]
    rfl
  unfold requestedSymbol
  split
  · exact stored
  · rename_i asked found
    rw [if_pos (omits asked found)]
    exact stored

theorem not_callsUnknown_expand {state : State} (kept : state.loaded = some loaded)
    (startable : loaded.Startable start) {body : Json String} (omits : OmitsStart body)
    (entropy : Random.Entropy) : ¬(expand entropy state body).CallsUnknown := by
  unfold expand
  rw [kept]
  dsimp only
  split
  · exact not_callsUnknown_refuse rfl (by decide)
  · rename_i fields object
    split
    · rintro ⟨rest, same⟩
      cases same
    · exact not_callsUnknown_refuseCount _
    · split
      · exact not_callsUnknown_refuse rfl (by decide)
      · rw [requestedSymbol_of_omitsStart startable fun asked => omits fields asked object]
        dsimp only
        rw [if_pos startable.declared]
        exact not_callsUnknown_expandWith startable _ _ _

end PhraseGrammar.Service
