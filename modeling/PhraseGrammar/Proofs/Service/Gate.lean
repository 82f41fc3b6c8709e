import PhraseGrammar.Proofs.Expansion.Batches
import PhraseGrammar.Proofs.Service.History

/-!
# Which requests for texts are met

A request for texts is met exactly if its body gives members or counts as none,
its number is an integer from one up to the limit, its seed is of a kind that
seeds a source, and its start names a declared nonterminal. Any other request is
refused before anything is drawn. In two cases an internal error stands for the
refusal: a body that is nested too deep has no value at all, and a message
cannot be written if there is an integer in it that is too long.
-/

namespace PhraseGrammar.Service

/-- What a request for texts comes to. -/
structure Order where
  count : Json String
  seed : Json String
  start : Json String

/-- What the members leave out is configured or stored. A falsy start counts as left out. -/
def Order.ofFields (settings : Settings) (stored : String) (fields : Json String) : Order where
  count := (fields.get? "count").getD settings.maxStrings
  seed := (fields.get? "seed").getD settings.seed
  start := ((fields.get? "start").filter fun start => !start.isFalsy).getD (.string stored)

/-- An integer from one up to the limit; no truth value and no real number is one. -/
inductive Sized (limit : Int) : Json String → Nat → Prop where
  | mk {count : Nat} (positive : 0 < count) (within : count ≤ limit) :
      Sized limit (.integer count) count

/-- The kinds of values that seed a source; null has one drawn. -/
inductive Seeds : Json String → Prop where
  | null : Seeds .null
  | integer (value : Int) : Seeds (.integer value)
  | bool (value : Bool) : Seeds (.bool value)
  | string (value : String) : Seeds (.string value)

/-- The text is the name of a declared nonterminal. -/
inductive Names (grammar : Grammar) : Json String → String → Prop where
  | mk {name : String} (declared : grammar.contains name = true) : Names grammar (.string name) name

/-- The order is for so many texts of this nonterminal. -/
structure Order.Admitted (limit : Int) (grammar : Grammar) (order : Order) (count : Nat)
    (name : String) : Prop where
  sized : Sized limit order.count count
  seeds : Seeds order.seed
  names : Names grammar order.start name

/--
What an order is refused for: the first of its three parts that is not as it
should be. There is no message if it would hold an integer too long to be written.
-/
inductive Order.Refused (limit : Int) (grammar : Grammar) (order : Order) : Option String → Prop where
  | count (bad : ∀ count, ¬Sized limit order.count count) : Refused limit grammar order
      ((Numeral.decimal? limit).map fun shown =>
        "count must be an integer between 1 and " ++ shown ++ ".")
  | seed {count : Nat} (sized : Sized limit order.count count) (bad : ¬Seeds order.seed) :
      Refused limit grammar order (some "seed must be an integer or a string.")
  | start {count : Nat} (sized : Sized limit order.count count) (seeds : Seeds order.seed)
      (bad : ∀ name, ¬Names grammar order.start name) : Refused limit grammar order
      (order.start.display?.map fun shown => "Unknown start symbol '" ++ shown ++ "'.")

theorem Sized.checkCount_eq {limit : Int} {json : Json String} {count : Nat}
    (sized : Sized limit json count) : checkCount (.integer limit) json = .valid count := by
  obtain ⟨positive, within⟩ := sized
  have above : (0 : Int) < count := Int.natCast_pos.mpr positive
  simp only [checkCount, withinLimit?, if_pos above, within, decide_true, Int.toNat_natCast]

theorem Sized.count_le {limit : Int} {json : Json String} {count : Nat}
    (sized : Sized limit json count) : count ≤ limit := by
  cases sized with
  | mk positive within => exact within

/-- With an integer as its limit a number is valid or refused. -/
theorem sized_or_refused (limit : Int) (json : Json String) : (∃ count, Sized limit json count) ∨
    (checkCount (.integer limit) json = .refused ∧ ∀ count, ¬Sized limit json count) := by
  cases json with
  | integer count =>
      by_cases fits : 0 < count ∧ count ≤ limit
      · obtain ⟨size, rfl⟩ := Int.eq_ofNat_of_zero_le (Int.le_of_lt fits.1)
        exact .inl ⟨size, .mk (Int.natCast_pos.mp fits.1) fits.2⟩
      · refine .inr ⟨?_, ?_⟩
        · unfold checkCount withinLimit?
          by_cases positive : 0 < count
          · have above : ¬count ≤ limit := fun below => fits ⟨positive, below⟩
            simp only [if_pos positive, above, decide_false]
          · simp only [if_neg positive]
        · rintro _ ⟨positive, within⟩
          exact fits ⟨Int.natCast_pos.mpr positive, within⟩
  | _ => exact .inr ⟨rfl, fun _ => nofun⟩

theorem isSome_source?_iff {entropy : Random.Source} {seed : Json String} :
    (source? entropy seed).isSome = true ↔ Seeds seed := by
  constructor
  · intro found
    cases seed with
    | null => exact .null
    | integer value => exact .integer value
    | bool value => exact .bool value
    | string value => exact .string value
    | _ => cases found
  · rintro (_ | _ | _ | _) <;> rfl

theorem requestedSymbol_eq {loaded : Loaded} {stored : String} (kept : loaded.start = some stored)
    (settings : Settings) (fields : Json String) :
    requestedSymbol loaded fields = (Order.ofFields settings stored fields).start := by
  have default : requestedSymbol.stored loaded = .string stored := by
    rw [requestedSymbol.stored, kept]
    rfl
  unfold requestedSymbol Order.ofFields
  cases given : fields.get? "start" with
  | none => exact default
  | some start =>
      cases falsy : start.isFalsy with
      | true => simpa [Option.filter, falsy] using default
      | false => simp [Option.filter, falsy]

section Expand

variable {state : State} {loaded : Loaded} (kept : state.loaded = some loaded)

include kept

theorem expand_of_no_members {body : Json String} (other : fields? body = none)
    (entropy : Random.Entropy) :
    expand entropy state body = .refuse "request body must be a JSON object." := by
  simp only [expand, kept, other]

variable {body fields : Json String} {stored : String} {limit : Int} {order : Order}
  (members : fields? body = some fields) (started : loaded.start = some stored)
  (bounded : state.settings.countLimit = .integer limit)
  (asked : order = .ofFields state.settings stored fields)

include members bounded asked

theorem expand_of_refused (refused : checkCount (.integer limit) order.count = .refused)
    (entropy : Random.Entropy) : expand entropy state body =
      refuseWith ((Numeral.decimal? limit).map fun shown =>
        "count must be an integer between 1 and " ++ shown ++ ".") := by
  subst asked
  simp only [Order.ofFields] at refused
  simp only [expand, kept, members, bounded, refused]
  rfl

variable {count : Nat} (counted : checkCount (.integer limit) order.count = .valid count)
  {entropy : Random.Entropy}

include counted

theorem expand_of_unseeded (unseeded : source? entropy.source order.seed = none) :
    expand entropy state body = .refuse "seed must be an integer or a string." := by
  subst asked
  simp only [Order.ofFields] at counted unseeded
  simp only [expand, kept, members, bounded, counted, unseeded]

variable {source : Random.Source} (seeded : source? entropy.source order.seed = some source)

include started seeded

theorem expand_of_unknown (unknown : ∀ name, ¬Names loaded.grammar order.start name) :
    expand entropy state body = refuseWith
      (order.start.display?.map fun shown => "Unknown start symbol '" ++ shown ++ "'.") := by
  subst asked
  have symbol := requestedSymbol_eq started state.settings fields
  simp only [Order.ofFields] at counted seeded
  simp only [expand, kept, members, bounded, counted, seeded, symbol]
  split
  · rename_i name same
    rw [if_neg fun declared => unknown name (same ▸ .mk declared), ← same, refuseSymbol]
  · rfl

theorem expand_of_known {name : String} (names : Names loaded.grammar order.start name) :
    expand entropy state body = expandWith loaded name count source (entropy.shown 0) := by
  subst asked
  have symbol := requestedSymbol_eq started state.settings fields
  generalize (Order.ofFields state.settings stored fields).start = start at names symbol
  obtain ⟨declared⟩ := names
  simp only [Order.ofFields] at counted seeded
  simp only [expand, kept, members, bounded, counted, seeded, symbol, if_pos declared]

end Expand

/-- An order that is not admitted is refused, and nothing is drawn for it. -/
theorem exists_refused {state : State} {loaded : Loaded} (kept : state.loaded = some loaded)
    {body fields : Json String} {stored : String} {limit : Int} {order : Order}
    (members : fields? body = some fields) (started : loaded.start = some stored)
    (bounded : state.settings.countLimit = .integer limit)
    (asked : order = .ofFields state.settings stored fields)
    (other : ∀ count name, ¬order.Admitted limit loaded.grammar count name) :
    ∃ message?, order.Refused limit loaded.grammar message? ∧
      ∀ entropy, expand entropy state body = refuseWith message? := by
  rcases sized_or_refused limit order.count with ⟨count, sized⟩ | ⟨refused, bad⟩
  · by_cases seeds : Seeds order.seed
    · have unknown (name : String) : ¬Names loaded.grammar order.start name :=
        fun names => other count name ⟨sized, seeds, names⟩
      refine ⟨_, .start sized seeds unknown, fun entropy => ?_⟩
      obtain ⟨source, seeded⟩ := Option.isSome_iff_exists.mp (isSome_source?_iff.mpr seeds)
      exact expand_of_unknown kept members started bounded asked sized.checkCount_eq seeded unknown
    · refine ⟨_, .seed sized seeds, fun entropy => ?_⟩
      refine expand_of_unseeded kept members bounded asked sized.checkCount_eq ?_
      rw [← Option.not_isSome_iff_eq_none, isSome_source?_iff]
      exact seeds
  · exact ⟨_, .count bad, fun entropy => expand_of_refused kept members bounded asked refused entropy⟩

/-! ## Bodies that are nested too deep -/

/-- A text of more opening brackets than there is room for is not read any further. -/
theorem readValue_brackets (room extra : Nat) (rest : List Char) :
    Json.readValue (2 * room + 1 + extra) room (List.replicate (room + 1) '[' ++ rest) =
      .error .tooDeep := by
  induction room with
  | zero =>
      rw [show 2 * 0 + 1 + extra = extra + 1 by omega]
      rfl
  | succ room ih =>
      have items : Json.readItems (2 * room + 1 + extra + 1) room
          (List.replicate (room + 1) '[' ++ rest) = .error .tooDeep := by
        rw [Json.readItems, ih]
        rfl
      rw [show 2 * (room + 1) + 1 + extra = 2 * room + 1 + extra + 1 + 1 by omega]
      change (Json.readItems (2 * room + 1 + extra + 1) room
        (List.replicate (room + 1) '[' ++ rest)).map _ = _
      rw [items]
      rfl

theorem read_brackets (room : Nat) (rest : List Char) :
    Json.read room (String.ofList (List.replicate (room + 1) '[' ++ rest)) =
      .error .tooDeep := by
  have visible : Json.skipBlank (List.replicate (room + 1) '[' ++ rest) =
      List.replicate (room + 1) '[' ++ rest := rfl
  have fuel : 2 * (List.replicate (room + 1) '[' ++ rest).length + 2 =
      2 * room + 1 + (2 * rest.length + 3) := by
    rw [List.length_append, List.length_replicate]
    omega
  rw [Json.read]
  dsimp only
  rw [String.toList_ofList, visible, fuel, readValue_brackets]
  rfl

/-- The bytes of a text of ASCII characters. -/
def bytes (text : List Char) : List UInt8 :=
  text.map fun c => UInt8.ofNat c.toNat

theorem front?_of_ascii {code : Nat} (ascii : code < 0x80) (rest : List UInt8) :
    Text.Utf8.front? (UInt8.ofNat code) rest = some (code, 0) := by
  have number : (UInt8.ofNat code).toNat = code :=
    UInt8.toNat_ofNat_of_lt (Nat.lt_trans ascii (by decide))
  have small : UInt8.ofNat code < 0x80 := by
    rw [UInt8.lt_iff_toNat_lt, number]
    exact ascii
  simp [Text.Utf8.front?, Text.Utf8.lead?, small, number]

theorem decode?_bytes {text : List Char} (ascii : ∀ c ∈ text, c.toNat < 0x80) :
    Text.Encoding.utf8.decode? (bytes text) = some (.ofString (String.ofList text)) := by
  have numbers : Text.Utf8.decode? (bytes text) 0 = some (text.map Char.toNat) := by
    induction text with
    | nil => rfl
    | cons c rest ih =>
        have further := ih fun d member => ascii d (.tail _ member)
        change Text.Utf8.decode? (UInt8.ofNat c.toNat :: bytes rest) 0 = _
        rw [Text.Utf8.decode?, front?_of_ascii (ascii c (.head _))]
        simp [further]
  have codes : (text.map Char.toNat).mapM CodePoint.ofNat? = some (text.map CodePoint.ofChar) := by
    clear ascii numbers
    induction text with
    | nil => rfl
    | cons c rest ih =>
        have first : CodePoint.ofNat? c.toNat = some (.ofChar c) := CodePoint.ofNat?_eq_some_iff.mpr rfl
        rw [List.map_cons, List.mapM_cons, first, ih]
        rfl
  rw [Text.Encoding.decode?, numbers, Option.bind_some, Text.Encoding.ofNumbers?, codes,
    Text.ofString, String.toList_ofList]
  rfl

/-- Four brackets in front show that the bytes are in UTF-8. -/
theorem ofBytes?_brackets {rest : List Char} (ascii : ∀ c ∈ rest, c.toNat < 0x80) (more : Nat) :
    Text.ofBytes? (bytes (List.replicate (more + 4) '[' ++ rest)) =
      some (.ofString (String.ofList (List.replicate (more + 4) '[' ++ rest))) := by
  have front : Text.Encoding.ofFront (bytes (List.replicate (more + 4) '[' ++ rest)) =
      (.utf8, bytes (List.replicate (more + 4) '[' ++ rest)) := rfl
  rw [Text.ofBytes?, front]
  refine decode?_bytes fun c member => ?_
  rcases List.mem_append.mp member with bracket | other
  · rw [List.eq_of_mem_replicate bracket]
    decide
  · exact ascii c other

/-- A body of JSON comes to nothing exactly if it is nested deeper than there is room for. -/
theorem decodeBody_eq_tooDeep_iff {room : Nat} {type : String} {body : List UInt8} :
    decodeBody room type body = .tooDeep ↔ isJsonType type = true ∧
      ∃ text : String, (Text.ofBytes? body).bind Text.toString? = some text ∧
        Json.read room text = .error .tooDeep := by
  unfold decodeBody
  cases isJsonType type with
  | false => simp
  | true =>
      cases Text.ofBytes? body with
      | none => simp
      | some text =>
          cases plain : text.toString? with
          | none => simp [plain]
          | some text =>
              cases read : Json.read room text with
              | ok json => simp [plain, readBody, read]
              | error reason => cases reason <;> simp [plain, readBody, read]

theorem decodeBody_brackets {rest : List Char} (ascii : ∀ c ∈ rest, c.toNat < 0x80) (more : Nat) :
    decodeBody (more + 3) "application/json" (bytes (List.replicate (more + 4) '[' ++ rest)) =
      .tooDeep := by
  have json : isJsonType "application/json" = true := by decide +kernel
  refine decodeBody_eq_tooDeep_iff.mpr ⟨json, _, ?_, read_brackets (more + 3) rest⟩
  rw [ofBytes?_brackets ascii, Option.bind_some, Text.toString?_ofString]

/-! ## All requests -/

theorem handle_of_generate {request : Request} {body : Json String} (asks : request.Asks .generate)
    (sent : request.body? = some body) (entropy : Random.Entropy) (state : State) :
    handle entropy state request = (expand entropy state body, state) := by
  rw [handle_of_asks asks, sent]
  rfl

/-- What is expanded gives at most as many texts as are asked for. -/
theorem length_le_of_generateStrings {grammar : Grammar} {limit count : Nat}
    {symbol : Option String} {source : Random.Source} {shown : Text} {texts : List Text}
    (given : (grammar.generateStrings limit symbol count source shown).1 = .ok texts) :
    texts.length ≤ count := by
  obtain ⟨skips, total, _⟩ := (Grammar.complete_of_generateStrings given).noted
  omega

/-- The answer to an admitted order, by what its expansion comes to. -/
inductive Meets (limit : Int) : Except RunFailure (List Text) → Response → Prop where
  | texts {texts : List Text} (few : texts.length ≤ limit) :
      Meets limit (.ok texts) (.accept [("generated", .array (texts.map .string))])
  | error (error : GrammarError) : Meets limit (.error (.grammar error)) (.refuse error.message)
  | failure {failure : RunFailure} (other : ∀ error, failure ≠ .grammar error) :
      Meets limit (.error failure) .internalError

theorem meets_expandWith {limit : Int} {loaded : Loaded} {name : String} {count : Nat}
    (within : count ≤ limit) (source : Random.Source) (shown : Text) :
    Meets limit
      (loaded.grammar.generateStrings Expander.depthLimit (some name) count source shown).1
      (expandWith loaded name count source shown) := by
  unfold expandWith
  cases result :
    (loaded.grammar.generateStrings Expander.depthLimit (some name) count source shown).1 with
  | ok texts =>
      have few : texts.length ≤ count := length_le_of_generateStrings result
      exact .texts (Int.le_trans (Int.ofNat_le.mpr few) within)
  | error failure =>
      cases failure with
      | grammar error => exact .error error
      | _ => exact .failure fun _ => nofun

/-- A history of requests and settings leads to the state. -/
def State.Reachable (state : State) : Prop :=
  ∃ steps, run .initial steps = state

/-- A grammar is kept with a symbol of its own to start from. -/
theorem State.Reachable.startable {state : State} (reachable : state.Reachable) {loaded : Loaded}
    (kept : state.loaded = some loaded) : ∃ start, loaded.Startable start := by
  obtain ⟨steps, rfl⟩ := reachable
  rcases quiet_or_lastSet .initial steps with quiet | ⟨body, last⟩
  · rw [quiet.loaded_run] at kept
    cases kept
  · obtain ⟨other, installs, same⟩ := last.installs
    cases same.symm.trans kept
    exact installs.startable

/--
A service with a grammar has a stored start, which is declared. A request for
texts is refused if its body is neither null nor an object, or if its order is
not admitted: by a message that tells the first reason, whatever the entropy, as
long as the message can be written. An order that is admitted is answered by the
texts of the expansion, which are no more than the limit allows, or by the error
of the grammar that it ends with. Without a value of its body, or for any other
failure, the answer is an internal error. In no case the state changes.
-/
theorem handle_generate_exact {state : State} {loaded : Loaded} {limit : Int} {request : Request}
    (reachable : state.Reachable) (kept : state.loaded = some loaded)
    (bounded : state.settings.countLimit = .integer limit) (asks : request.Asks .generate) :
    ∃ stored, (loaded.start = some stored ∧ loaded.grammar.contains stored = true) ∧
      (∀ body, request.body? = some body → fields? body = none → ∀ entropy,
        handle entropy state request = (.refuse "request body must be a JSON object.", state)) ∧
      (∀ (body fields : Json String) (order : Order), request.body? = some body →
        fields? body = some fields → order = .ofFields state.settings stored fields →
        ((∀ count name, ¬order.Admitted limit loaded.grammar count name) →
          ∃ message?, order.Refused limit loaded.grammar message? ∧
            ∀ entropy, handle entropy state request = (refuseWith message?, state)) ∧
        ∀ count name entropy, order.Admitted limit loaded.grammar count name →
          ∃ source response, source? entropy.source order.seed = some source ∧
            handle entropy state request = (response, state) ∧
            Meets limit
              (loaded.grammar.generateStrings Expander.depthLimit (some name) count source
                (entropy.shown 0)).1
              response) ∧
      (request.body? = none → ∀ entropy,
        handle entropy state request = (.internalError, state)) := by
  obtain ⟨stored, startable⟩ := reachable.startable kept
  refine ⟨stored, ⟨startable.stored, startable.declared⟩, fun body sent other entropy => ?_,
    fun body fields order sent members asked => ⟨fun unfit => ?_,
      fun count name entropy admitted => ?_⟩, fun missing entropy => ?_⟩
  · rw [handle_of_generate asks sent, expand_of_no_members kept other]
  · obtain ⟨message?, refused, answers⟩ :=
      exists_refused kept members startable.stored bounded asked unfit
    refine ⟨message?, refused, fun entropy => ?_⟩
    rw [handle_of_generate asks sent, answers]
  · obtain ⟨source, seeded⟩ := Option.isSome_iff_exists.mp (isSome_source?_iff.mpr admitted.seeds)
    refine ⟨source, expandWith loaded name count source (entropy.shown 0), seeded, ?_,
      meets_expandWith admitted.sized.count_le source _⟩
    rw [handle_of_generate asks sent, expand_of_known kept members startable.stored bounded asked
      admitted.sized.checkCount_eq seeded admitted.names]
  · rw [handle_of_asks asks, missing, answer, kept]
    rfl

/-- The bytes of arrays within each other, one more than there is room for. -/
def brackets (room : Nat) : List UInt8 :=
  bytes (List.replicate (room + 1) '[' ++ List.replicate (room + 1) ']')

theorem decodeBody_eq_tooDeep_of_brackets (more : Nat) :
    decodeBody (more + 3) "application/json" (brackets (more + 3)) = .tooDeep := by
  refine decodeBody_brackets (fun c member => ?_) more
  rw [List.eq_of_mem_replicate member]
  decide

theorem asks_generate (body? : Option (Json String)) :
    (⟨"POST", "/generate", body?⟩ : Request).Asks .generate :=
  ⟨asks_seededRequest.path, asks_seededRequest.method⟩

theorem run_setting : run .initial [setting] = ⟨.initial, some ⟨single, some "S"⟩⟩ :=
  (handle_requestToSet parse_singleText rfl rfl (.unused "here") .initial).2

/-- An array of arrays is no object, but with one more than there is room for it is not refused. -/
theorem handle_brackets :
    (run .initial [setting]).loaded = some ⟨single, some "S"⟩ ∧
      (run .initial [setting]).settings = .initial ∧
      ∃ request,
        Request.ofBody? "POST" "/generate" (decodeBody 970 "application/json" (brackets 970)) =
            some request ∧
          (handle (.unused "here") (run .initial [setting]) request).1 = .internalError := by
  rw [run_setting, decodeBody_eq_tooDeep_of_brackets 967]
  refine ⟨rfl, rfl, _, rfl, ?_⟩
  rw [handle_of_asks (asks_generate none)]
  rfl

/-- Two texts, with a seed of its own to be drawn, and a number that is a truth value. -/
def pairRequest : Request :=
  ⟨"POST", "/generate", some (.object [("count", .integer 2), ("start", .bool false)])⟩

def truthRequest : Request := ⟨"POST", "/generate", some (.object [("count", .bool true)])⟩

theorem handle_generate_exact_single :
    (handle ⟨.script [0, 0], fun _ => "here"⟩ (run .initial [setting]) pairRequest).1 =
        .accept [("generated", .array [.string "a", .string "a"])] ∧
      ∀ entropy, handle entropy (run .initial [setting]) truthRequest =
        (.refuse "count must be an integer between 1 and 1000.", run .initial [setting]) := by
  have reachable : (run .initial [setting]).Reachable := ⟨[setting], rfl⟩
  have kept : (run .initial [setting]).loaded = some ⟨single, some "S"⟩ := by rw [run_setting]
  have bounded : (run .initial [setting]).settings.countLimit = .integer 1000 := by
    rw [run_setting]
    rfl
  have unset : (run .initial [setting]).settings.seed = .null := by
    rw [run_setting]
    rfl
  have written : Numeral.decimal? 1000 = some "1000" := by decide +kernel
  obtain ⟨stored, ⟨start, _⟩, _, pairs, _⟩ :=
    handle_generate_exact reachable kept bounded (asks_generate pairRequest.body?)
  obtain ⟨_, _, _, truths, _⟩ :=
    handle_generate_exact reachable kept bounded (asks_generate truthRequest.body?)
  cases start
  refine ⟨?_, ?_⟩
  · have admitted : (Order.mk (.integer 2) .null (.string "S")).Admitted 1000 single 2 "S" :=
      ⟨.mk (by decide) (by decide), .null, .mk (by decide)⟩
    obtain ⟨source, response, seeded, answered, meets⟩ :=
      (pairs _ _ _ rfl rfl (by rw [Order.ofFields, unset]; rfl)).2 2 "S"
        ⟨.script [0, 0], fun _ => "here"⟩ admitted
    cases seeded
    have texts : (single.generateStrings Expander.depthLimit (some "S") 2 (.script [0, 0])
        "here").1 = .ok ["a", "a"] := by
      decide +kernel
    rw [texts] at meets
    cases meets
    exact congrArg Prod.fst answered
  · obtain ⟨message?, refused, answers⟩ := (truths _ _ _ rfl rfl rfl).1 fun _ _ => nofun
    cases refused with
    | count bad =>
        rw [written] at answers
        exact answers
    | seed sized bad => cases sized
    | start sized seeds bad => cases sized

end PhraseGrammar.Service
