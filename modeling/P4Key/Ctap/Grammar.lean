import P4Key.Cbor.Grammar
import P4Key.Ctap.Parse

/-! The grammars of what the two request parsers share. -/

namespace P4Key.Ctap

open Cbor Grammar

def Parse.parser {α : Type} (parse : Parse α) : Parser Reader α := fun reader =>
  match parse reader with
  | .ok result => some result
  | .error _ => none

def Parses {α : Type} (parse : Parse α) (language : Language UInt8 α) : Prop :=
  Exact readerInput parse.parser language

theorem Parse.parser_some {α : Type} {parse : Parse α} {reader : Reader} {result : α × Reader} :
    parse.parser reader = some result ↔ parse reader = .ok result := by
  rw [Parse.parser]
  cases parse reader <;> simp

section Rules

variable {α γ : Type}

theorem parser_expect (get : Get α) (status : Refusal) : (expect get status).parser = get.parser := by
  funext reader
  rw [Parse.parser, Get.parser, expect]
  rcases get reader with ⟨_ | value, after⟩ <;> rfl

theorem parser_bind (first : Parse α) (next : α → Parse γ) :
    Parse.parser (first >>= next) = first.parser.bind fun value => (next value).parser := by
  funext reader
  apply Option.ext
  intro result
  rw [Parser.bind, Option.bind_eq_some_iff, Parse.parser_some, parse_bind_ok]
  simp only [Parse.parser_some, Prod.exists]

theorem parser_pure (value : α) : Parse.parser (pure value : Parse α) = Parser.ret value := rfl

theorem Parses.get {get : Get α} {language : Language UInt8 α} (accepts : Accepts get language)
    (status : Refusal) : Parses (expect get status) language := by
  rw [Parses, parser_expect]
  exact accepts

theorem Parses.bind {parse : Parse α} {next : α → Parse γ} {language : Language UInt8 α}
    {following : α → Language UInt8 γ} (first : Parses parse language)
    (second : ∀ value, Parses (next value) (following value)) :
    Parses (parse >>= next) (follow language following) := by
  rw [Parses, parser_bind]
  exact Exact.bind first second

theorem Parses.ret (value : α) : Parses (pure value) (only value) := Exact.ret value

theorem Parses.refuse (status : Refusal) : Parses (throw status : Parse α) never :=
  Exact.never fun _ => rfl

theorem Parses.ite {c : Prop} [Decidable c] {yes no : Parse α} {holds fails : Language UInt8 α}
    (first : c → Parses yes holds) (second : ¬ c → Parses no fails) :
    Parses (if c then yes else no) (if c then holds else fails) := by
  rw [Parses, apply_ite Parse.parser]
  exact Exact.ite first second

def decided (result : γ → Prop) : Language UInt8 γ := fun value word => result value ∧ word = []

theorem Parses.settle {parse : Parse α} {next : α → Parse γ} {language : Language UInt8 α}
    {result : α → γ → Prop} (first : Parses parse language)
    (second : ∀ value, Parses (next value) (decided (result value))) :
    Parses (parse >>= next) (fun last word => ∃ value, language value word ∧ result value last) := by
  refine Exact.congr (first.bind second) ?_
  intro last word
  constructor
  · rintro ⟨value, front, back, spelled, ⟨decision, rfl⟩, rfl⟩
    exact ⟨value, by rw [List.append_nil]; exact spelled, decision⟩
  · rintro ⟨value, spelled, decision⟩
    exact ⟨value, word, [], spelled, ⟨decision, rfl⟩, (List.append_nil word).symm⟩

theorem Parses.settle_ret (value : α) : Parses (pure value) (decided fun last => last = value) :=
  Parses.ret value

theorem Parses.settle_guard {c : Prop} [Decidable c] (status : Refusal) (value : α) :
    Parses (if c then throw status else pure value) (decided fun last => ¬ c ∧ last = value) := by
  by_cases refused : c
  · rw [if_pos refused]
    refine Exact.congr (Parses.refuse status) ?_
    intro last word
    simp [never, decided, refused]
  · rw [if_neg refused]
    refine Exact.congr (Parses.ret value) ?_
    intro last word
    simp [only, decided, refused]

end Rules

/-! Maps with text keys. -/

abbrev TextEntry : Type := List UInt8 × List UInt8

def TextEntry.bytes (entry : TextEntry) : List UInt8 :=
  headBytes 3 entry.1.length ++ entry.1 ++ entry.2

def IsTextMap (entries : List TextEntry) (word : List UInt8) : Prop :=
  entries.length ≤ maxContainerItems ∧
    word = headBytes 5 entries.length ++ (entries.map TextEntry.bytes).flatten

def OthersSkipped (names : List (List UInt8)) (entries : List TextEntry) : Prop :=
  ∀ entry ∈ entries, entry.1 ∉ names → Strict 0 entry.2

section TextMaps

variable {σ : Type} {entry : List UInt8 → σ → Parse σ} {step : TextEntry → σ → σ → Prop}

theorem readPairs_parses
    (parses : ∀ key state, Parses (entry key state) fun next word => step (key, word) state next)
    (pairs : Nat) (state : σ) :
    Parses (readPairs entry pairs state) (loop step TextEntry.bytes pairs state) := by
  refine Exact.loop (fun state => Parse.parser (expect getText .cborUnexpectedType >>= fun key =>
    entry key state)) (fun pairs state => (readPairs entry pairs state).parser) _ _ ?_
    (fun state => parser_pure state) ?_ pairs state
  · intro state
    refine Exact.congr ((Parses.get getText_accepts .cborUnexpectedType).bind
      fun key => parses key state) ?_
    intro next word
    constructor
    · rintro ⟨key, front, back, rfl, value, rfl⟩
      exact ⟨(key, back), value, rfl⟩
    · rintro ⟨⟨key, back⟩, value, rfl⟩
      exact ⟨key, _, back, rfl, value, rfl⟩
  · intro pairs state
    rw [readPairs]
    simp only [← parser_bind, bind_assoc]

theorem readTextMap_parses
    (parses : ∀ key state, Parses (entry key state) fun next word => step (key, word) state next)
    (state : σ) :
    Parses (readTextMap entry state) (fun last word => ∃ entries, IsTextMap entries word ∧
      Folds step entries state last) := by
  refine Exact.congr ((Parses.get getMap_accepts .cborUnexpectedType).bind
    fun pairs => readPairs_parses parses pairs state) ?_
  intro last word
  constructor
  · rintro ⟨pairs, front, back, ⟨few, rfl⟩, ⟨entries, rfl, folds, rfl⟩, rfl⟩
    exact ⟨entries, ⟨few, rfl⟩, folds⟩
  · rintro ⟨entries, ⟨few, rfl⟩, folds⟩
    exact ⟨entries.length, _, _, ⟨few, rfl⟩, ⟨entries, rfl, folds, rfl⟩, rfl⟩

end TextMaps

/-! Maps with an `id`. -/

def Named {α : Type} (name : List UInt8) (word : Language UInt8 α) (entries : List TextEntry)
    (value : α) : Prop :=
  Once Prod.fst name (fun entry value => word value entry.2) entries value

def idMap (string : Language UInt8 (List UInt8)) : Language UInt8 (List UInt8) := fun id word =>
  ∃ entries, IsTextMap entries word ∧ Named idText string entries id ∧ id ≠ [] ∧
    OthersSkipped [idText] entries

def idStep (string : Language UInt8 (List UInt8)) (entry : TextEntry)
    (found next : Option (List UInt8)) : Prop :=
  fills Prod.fst idText (fun entry id => string id entry.2 ∧ id ≠ []) entry found next ∧
    (entry.1 ∉ [idText] → Strict 0 entry.2)

theorem readIdEntry_parses {get : Get (List UInt8)} {string : Language UInt8 (List UInt8)}
    (accepts : Accepts get string) (key : List UInt8) (found : Option (List UInt8)) :
    Parses (readIdEntry get key found) (fun next word => idStep string (key, word) found next) := by
  rw [readIdEntry]
  by_cases here : key = idText
  · rw [if_pos here]
    by_cases twice : found.isSome = true
    · rw [if_pos twice]
      refine Exact.congr (Parses.refuse .invalidCbor) ?_
      intro next word
      rw [Option.isSome_iff_ne_none] at twice
      simp [never, idStep, fills, here, twice]
    · rw [if_neg twice]
      rw [Option.not_isSome_iff_eq_none] at twice
      refine Exact.congr ((Parses.get accepts .cborUnexpectedType).settle
        fun id => .settle_guard .invalidParameter (some id)) ?_
      intro next word
      simp [idStep, fills, here, twice, and_comm, and_assoc]
  · rw [if_neg here]
    refine Exact.congr ((Parses.get skip_accepts .invalidCbor).settle
      fun _ => .settle_ret found) ?_
    intro next word
    simp [idStep, fills, here, and_comm]

theorem folds_id (string : Language UInt8 (List UInt8)) (entries : List TextEntry)
    (id : List UInt8) :
    Folds (idStep string) entries none (some id) ↔
      Named idText string entries id ∧ id ≠ [] ∧ OthersSkipped [idText] entries := by
  have parts := folds_where (fills Prod.fst idText
    (fun (entry : TextEntry) id => string id entry.2 ∧ id ≠ []))
    (fun entry : TextEntry => entry.1 ∉ [idText] → Strict 0 entry.2) entries none (some id)
  rw [folds_fills_some, once_and, and_assoc] at parts
  exact parts

theorem readIdMap_parses {get : Get (List UInt8)} {string : Language UInt8 (List UInt8)}
    (accepts : Accepts get string) : Parses (readIdMap get) (idMap string) := by
  refine Exact.congr (@Parses.settle _ _ _ _ _ (fun found id => found = some id)
    (readTextMap_parses (readIdEntry_parses accepts) none) ?_) ?_
  · intro found
    cases found with
    | none => exact Exact.congr (Parses.refuse .missingParameter) (by simp [never, decided])
    | some id => exact Exact.congr (Parses.ret id) (by simp [only, decided, eq_comm])
  · intro id word
    simp only [exists_eq_right, idMap, folds_id]

/-! Maps with two fields. -/

section TwoFields

variable {α γ : Type} {first second : List UInt8} {left : Language UInt8 α} {right : Language UInt8 γ}

def fieldsStep (first second : List UInt8) (left : Language UInt8 α) (right : Language UInt8 γ)
    (entry : TextEntry) (found next : Option α × Option γ) : Prop :=
  (fills Prod.fst first (fun entry value => left value entry.2) entry found.1 next.1 ∧
    fills Prod.fst second (fun entry value => right value entry.2) entry found.2 next.2) ∧
    (entry.1 ∉ [first, second] → Strict 0 entry.2)

theorem fields_parses (different : first ≠ second) {one two : Parse (Option α × Option γ)}
    (key : List UInt8) (found : Option α × Option γ)
    (onFirst : Parses one (fun next word => ∃ value, left value word ∧ next = (some value, found.2)))
    (onSecond : Parses two (fun next word => ∃ value, right value word ∧ next = (found.1, some value))) :
    Parses (if key = first then if found.1.isSome then throw .invalidCbor else one
      else if key = second then if found.2.isSome then throw .invalidCbor else two
      else do
        expect skip .invalidCbor
        pure found)
      (fun next word => fieldsStep first second left right (key, word) found next) := by
  rcases found with ⟨a, c⟩
  by_cases here : key = first
  · subst here
    rw [if_pos rfl]
    cases a with
    | some a =>
        refine Exact.congr (Parses.refuse .invalidCbor) ?_
        intro next word
        simp [never, fieldsStep, fills]
    | none =>
        refine Exact.congr onFirst ?_
        rintro ⟨a, c'⟩ word
        simp only [fieldsStep, fills, if_pos, if_neg different, true_and]
        constructor
        · rintro ⟨value, spelled, same⟩
          cases same
          exact ⟨⟨⟨value, rfl, spelled⟩, rfl⟩, by simp⟩
        · rintro ⟨⟨⟨value, rfl, spelled⟩, rfl⟩, -⟩
          exact ⟨value, spelled, rfl⟩
  rw [if_neg here]
  by_cases there : key = second
  · subst there
    rw [if_pos rfl]
    cases c with
    | some c =>
        refine Exact.congr (Parses.refuse .invalidCbor) ?_
        intro next word
        simp [never, fieldsStep, fills]
    | none =>
        refine Exact.congr onSecond ?_
        rintro ⟨a', c⟩ word
        simp only [fieldsStep, fills, if_pos, if_neg here, true_and]
        constructor
        · rintro ⟨value, spelled, same⟩
          cases same
          exact ⟨⟨rfl, value, rfl, spelled⟩, by simp⟩
        · rintro ⟨⟨rfl, value, rfl, spelled⟩, -⟩
          exact ⟨value, spelled, rfl⟩
  · rw [if_neg there]
    refine Exact.congr ((Parses.get skip_accepts .invalidCbor).settle
      fun _ => .settle_ret (a, c)) ?_
    rintro ⟨a', c'⟩ word
    simp [fieldsStep, fills, here, there, and_comm]

theorem folds_fields (entries : List TextEntry) (a : α) (c : γ) :
    Folds (fieldsStep first second left right) entries (none, none) (some a, some c) ↔
      Named first left entries a ∧ Named second right entries c ∧
        OthersSkipped [first, second] entries := by
  have parts := folds_where (fun entry (found next : Option α × Option γ) =>
      fills Prod.fst first (fun (entry : TextEntry) value => left value entry.2) entry found.1 next.1 ∧
        fills Prod.fst second (fun (entry : TextEntry) value => right value entry.2) entry found.2 next.2)
    (fun entry : TextEntry => entry.1 ∉ [first, second] → Strict 0 entry.2) entries (none, none)
    (some a, some c)
  rw [folds_prod, folds_fills_some, folds_fills_some, and_assoc] at parts
  exact parts

end TwoFields

def typeWord : Language UInt8 Bool := fun publicKey word =>
  ∃ type, textWord type word ∧ publicKey = decide (type = publicKeyText)

/-- A credential descriptor: `type` and `id` come once. -/
def descMap (rejectEmpty : Bool) : Language UInt8 Desc := fun desc word =>
  ∃ entries, IsTextMap entries word ∧ Named typeText typeWord entries desc.publicKey ∧
    Named idText bytesWord entries desc.id ∧ (rejectEmpty = true → desc.id ≠ []) ∧
    OthersSkipped [typeText, idText] entries

theorem readType_parses {γ : Type} (found : Option Bool × Option γ) :
    Parses (do
        let type ← expect getText .cborUnexpectedType
        pure (some (decide (type = publicKeyText)), found.2))
      (fun next word => ∃ publicKey, typeWord publicKey word ∧ next = (some publicKey, found.2)) := by
  refine Exact.congr ((Parses.get getText_accepts .cborUnexpectedType).settle
    fun type => .settle_ret (some (decide (type = publicKeyText)), found.2)) ?_
  intro next word
  constructor
  · rintro ⟨type, spelled, rfl⟩
    exact ⟨_, ⟨type, spelled, rfl⟩, rfl⟩
  · rintro ⟨_, ⟨type, spelled, rfl⟩, rfl⟩
    exact ⟨type, spelled, rfl⟩

theorem readDescEntry_parses (rejectEmpty : Bool) (key : List UInt8)
    (found : Option Bool × Option (List UInt8)) :
    Parses (readDescEntry rejectEmpty key found) (fun next word =>
      fieldsStep typeText idText typeWord
        (fun id word => bytesWord id word ∧ (rejectEmpty = true → id ≠ [])) (key, word) found next) := by
  refine fields_parses (by decide) key found (readType_parses found) ?_
  refine Exact.congr ((Parses.get getBytes_accepts .cborUnexpectedType).settle
    fun id => .settle_guard .invalidParameter (found.1, some id)) ?_
  intro next word
  simp only [not_and, List.length_eq_zero_iff, and_assoc, ne_eq]

theorem readDesc_parses (rejectEmpty : Bool) : Parses (readDesc rejectEmpty) (descMap rejectEmpty) := by
  refine Exact.congr (@Parses.settle _ _ _ _ _
    (fun found (desc : Desc) => found = (some desc.publicKey, some desc.id))
    (readTextMap_parses (readDescEntry_parses rejectEmpty) (none, none)) ?_) ?_
  · rintro ⟨_ | publicKey, _ | id⟩
    · exact Exact.congr (Parses.refuse .missingParameter) (by simp [never, decided])
    · exact Exact.congr (Parses.refuse .missingParameter) (by simp [never, decided])
    · exact Exact.congr (Parses.refuse .missingParameter) (by simp [never, decided])
    · refine Exact.congr (Parses.ret (Desc.mk id publicKey)) ?_
      rintro ⟨id', publicKey'⟩ word
      simp [only, decided, eq_comm, and_comm]
  · intro desc word
    simp only [exists_eq_right, descMap, folds_fields, Named, once_and, and_assoc]

/-! Arrays. -/

section Arrays

variable {α : Type}

def arrayOf (item : Language UInt8 α) : Language UInt8 (List α) := fun values word =>
  ∃ words, words.length ≤ maxContainerItems ∧ List.Forall₂ item values words ∧
    word = headBytes 4 words.length ++ words.flatten

theorem readItems_parses {item : Parse α} {language : Language UInt8 α}
    (parses : Parses item language) (count : Nat) :
    Parses (readItems item count) (times count language) := by
  refine Exact.times (fun count => (readItems item count).parser) parses (parser_pure []) ?_ count
  intro count
  rw [readItems]
  simp only [parser_bind, parser_pure]

theorem array_parses {item : Parse α} {language : Language UInt8 α} (parses : Parses item language)
    (refuses : Nat → Prop) [DecidablePred refuses] (status : Refusal) :
    Parses (do
        let count ← expect getArray .cborUnexpectedType
        if refuses count then throw status else readItems item count)
      (fun values word => arrayOf language values word ∧ ¬ refuses values.length) := by
  refine Exact.congr ((Parses.get getArray_accepts .cborUnexpectedType).bind
    fun count => .ite (fun _ => .refuse status) fun _ => readItems_parses parses count) ?_
  intro values word
  constructor
  · rintro ⟨count, front, back, ⟨few, rfl⟩, body, rfl⟩
    split at body
    · exact body.elim
    · rename_i accepted
      rcases body with ⟨words, rfl, all, rfl⟩
      rw [all.length_eq]
      exact ⟨⟨words, few, all, rfl⟩, accepted⟩
  · rintro ⟨⟨words, few, all, rfl⟩, accepted⟩
    rw [all.length_eq] at accepted
    refine ⟨words.length, _, _, ⟨few, rfl⟩, ?_, rfl⟩
    simp only [if_neg accepted]
    exact ⟨words, rfl, all, rfl⟩

end Arrays

def descList (rejectEmpty : Bool) : Language UInt8 (List Desc) := fun descs word =>
  arrayOf (descMap rejectEmpty) descs word ∧ descs.length ≤ maxCredentialsInList

theorem readDescs_parses (rejectEmpty : Bool) :
    Parses (readDescs rejectEmpty) (descList rejectEmpty) := by
  refine Exact.congr (array_parses (readDesc_parses rejectEmpty)
    (fun count => count > maxCredentialsInList) .limitExceeded) ?_
  intro descs word
  rw [descList, Nat.not_lt]

/-! Maps of which nothing is used. -/

def ignoredMap (word : List UInt8) : Prop :=
  ∃ entries, IsTextMap entries word ∧ OthersSkipped [] entries

theorem readIgnoredMap_parses : Parses readIgnoredMap (fun _ word => ignoredMap word) := by
  have entries := @readTextMap_parses Unit (fun _ _ => expect skip .invalidCbor)
    (fun entry _ _ => entry.1 ∉ [] → Strict 0 entry.2)
    (fun key state => Exact.congr (Parses.get skip_accepts .invalidCbor) (by simp)) ()
  refine Exact.congr entries ?_
  intro last word
  have folded : ∀ entries : List TextEntry,
      Folds (fun (entry : TextEntry) (_ _ : Unit) => entry.1 ∉ [] → Strict 0 entry.2) entries () last ↔
        OthersSkipped [] entries := by
    intro entries
    have steps := folds_where (fun _ (state next : Unit) => next = state)
      (fun entry : TextEntry => entry.1 ∉ [] → Strict 0 entry.2) entries () last
    rw [folds_fixed] at steps
    refine Iff.trans (folds_congr ?_ entries () last) (steps.trans (by simp [OthersSkipped]))
    simp
  simp only [folded, ignoredMap]

/-! Options. -/

section Options

variable (first : List UInt8) (firstUnsupported : Bool)

def raisesUnsupported (entry : TextEntry) (unsupported : Bool) : Prop :=
  if entry.1 = first then
    ∃ value, boolWord value entry.2 ∧ unsupported = (value && firstUnsupported)
  else if entry.1 = uvText then boolWord unsupported entry.2
  else unsupported = false

def optionStep (entry : TextEntry) (found next : OptionsFound) : Prop :=
  marks Prod.fst first entry found.haveFirst next.haveFirst ∧
    marks Prod.fst uvText entry found.haveUv next.haveUv ∧
    (∃ up, raisesUnsupported first firstUnsupported entry up ∧
      next.unsupported = (found.unsupported || up)) ∧
    (entry.1 ∉ [first, uvText] → Strict 0 entry.2)

variable {first}

theorem readOptionsEntry_parses (different : first ≠ uvText) (key : List UInt8)
    (found : OptionsFound) :
    Parses (readOptionsEntry first firstUnsupported key found)
      (fun next word => optionStep first firstUnsupported (key, word) found next) := by
  rw [readOptionsEntry]
  by_cases known : key = first ∨ key = uvText
  · rw [if_pos known]
    simp only
    by_cases twice : (if decide (key = first) = true then found.haveFirst else found.haveUv) = true
    · rw [if_pos twice]
      refine Exact.congr (Parses.refuse .invalidCbor) ?_
      intro next word
      rcases known with rfl | rfl
      · simp only [decide_true, if_true] at twice
        simp [never, optionStep, marks, twice]
      · simp only [different.symm, decide_false, Bool.false_eq_true, if_false] at twice
        simp [never, optionStep, marks, twice]
    · rw [if_neg twice]
      refine Exact.congr ((Parses.get getBool_accepts .cborUnexpectedType).settle
        fun value => .settle_ret _) ?_
      rintro ⟨haveFirst, haveUv, unsupported⟩ word
      rcases known with rfl | rfl
      · simp only [decide_true, if_true, Bool.not_eq_true] at twice
        cases firstUnsupported <;> simp [optionStep, marks, raisesUnsupported, twice, different] <;> tauto
      · simp only [different.symm, decide_false, Bool.false_eq_true, if_false] at twice
        simp [optionStep, marks, raisesUnsupported, twice, different.symm]
        tauto
  · rw [if_neg known]
    rw [not_or] at known
    refine Exact.congr ((Parses.get skip_accepts .invalidCbor).settle
      fun _ => .settle_ret found) ?_
    rcases found with ⟨haveFirst', haveUv', unsupported'⟩
    rintro ⟨haveFirst, haveUv, unsupported⟩ word
    simp [optionStep, marks, raisesUnsupported, known.1, known.2]
    tauto

def supportedOptions (first : List UInt8) (firstUnsupported : Bool) (word : List UInt8) : Prop :=
  ∃ entries, IsTextMap entries word ∧ (entriesOf Prod.fst first entries).length ≤ 1 ∧
    (entriesOf Prod.fst uvText entries).length ≤ 1 ∧
    (∀ entry ∈ entries, entry.1 = first →
      ∃ value, boolWord value entry.2 ∧ (firstUnsupported = true → value = false)) ∧
    (∀ entry ∈ entries, entry.1 = uvText → boolWord false entry.2) ∧
    OthersSkipped [first, uvText] entries

theorem folds_options_parts (entries : List TextEntry) (found : OptionsFound) :
    Folds (optionStep first firstUnsupported) entries ⟨false, false, false⟩ found ↔
      Folds (marks Prod.fst first) entries false found.haveFirst ∧
        Folds (marks Prod.fst uvText) entries false found.haveUv ∧
        Folds (fun entry flag next => ∃ up, raisesUnsupported first firstUnsupported entry up ∧
          next = (flag || up)) entries false found.unsupported ∧
        OthersSkipped [first, uvText] entries := by
  have outer := @folds_split Bool (Bool × Bool) TextEntry OptionsFound
    (fun entry found next => marks Prod.fst first entry found.haveFirst next.haveFirst ∧
      marks Prod.fst uvText entry found.haveUv next.haveUv ∧
      ∃ up, raisesUnsupported first firstUnsupported entry up ∧
        next.unsupported = (found.unsupported || up))
    (marks Prod.fst first)
    (fun entry found next => marks Prod.fst uvText entry found.1 next.1 ∧
      ∃ up, raisesUnsupported first firstUnsupported entry up ∧ next.2 = (found.2 || up))
    OptionsFound.haveFirst (fun found => (found.haveUv, found.unsupported))
    (fun mark rest => ⟨mark, rest.1, rest.2⟩) (fun _ _ => rfl) (fun _ _ => rfl) (fun _ => rfl)
    (fun _ _ _ => Iff.rfl) entries ⟨false, false, false⟩ found
  have inner := folds_prod (marks Prod.fst uvText) (fun (entry : TextEntry) flag next =>
    ∃ up, raisesUnsupported first firstUnsupported entry up ∧ next = (flag || up)) entries
    (false, false) (found.haveUv, found.unsupported)
  rw [inner] at outer
  have whole := folds_where (fun (entry : TextEntry) (found next : OptionsFound) =>
    marks Prod.fst first entry found.haveFirst next.haveFirst ∧
      marks Prod.fst uvText entry found.haveUv next.haveUv ∧
      ∃ up, raisesUnsupported first firstUnsupported entry up ∧
        next.unsupported = (found.unsupported || up))
    (fun entry : TextEntry => entry.1 ∉ [first, uvText] → Strict 0 entry.2) entries
    ⟨false, false, false⟩ found
  rw [outer, and_assoc, and_assoc] at whole
  refine Iff.trans (folds_congr ?_ entries _ _) whole
  intro entry found next
  simp only [optionStep, and_assoc]

theorem folds_options (entries : List TextEntry) :
    (∃ found, Folds (optionStep first firstUnsupported) entries ⟨false, false, false⟩ found ∧
        found.unsupported = false) ↔
      (entriesOf Prod.fst first entries).length ≤ 1 ∧
        (entriesOf Prod.fst uvText entries).length ≤ 1 ∧
        (∀ entry ∈ entries, raisesUnsupported first firstUnsupported entry false) ∧
        OthersSkipped [first, uvText] entries := by
  rw [← folds_marks, ← folds_marks]
  simp only [folds_options_parts]
  constructor
  · rintro ⟨⟨haveFirst, haveUv, unsupported⟩, ⟨once, once', raised, others⟩, down⟩
    subst down
    exact ⟨⟨haveFirst, once⟩, ⟨haveUv, once'⟩, ((folds_raised _ entries false).mp raised).2, others⟩
  · rintro ⟨⟨haveFirst, once⟩, ⟨haveUv, once'⟩, raised, others⟩
    exact ⟨⟨haveFirst, haveUv, false⟩, ⟨once, once', (folds_raised _ entries false).mpr ⟨rfl, raised⟩,
      others⟩, rfl⟩

theorem raisesUnsupported_false (different : first ≠ uvText) (entry : TextEntry) :
    raisesUnsupported first firstUnsupported entry false ↔
      (entry.1 = first → ∃ value, boolWord value entry.2 ∧ (firstUnsupported = true → value = false)) ∧
        (entry.1 = uvText → boolWord false entry.2) := by
  have supported : ∀ value : Bool,
      false = (value && firstUnsupported) ↔ (firstUnsupported = true → value = false) := by
    intro value
    cases value <;> cases firstUnsupported <;> simp
  rw [raisesUnsupported]
  by_cases here : entry.1 = first
  · have other : entry.1 ≠ uvText := by
      rw [here]
      exact different
    rw [if_pos here]
    simp only [supported]
    constructor
    · intro value
      exact ⟨fun _ => value, fun there => absurd there other⟩
    · intro values
      exact values.1 here
  · rw [if_neg here]
    by_cases there : entry.1 = uvText
    · rw [if_pos there]
      constructor
      · intro value
        exact ⟨fun first => absurd first here, fun _ => value⟩
      · intro values
        exact values.2 there
    · rw [if_neg there]
      exact ⟨fun _ => ⟨fun first => absurd first here, fun second => absurd second there⟩,
        fun _ => rfl⟩

def optionsMap (first : List UInt8) (firstUnsupported : Bool) : Language UInt8 Bool :=
  fun unsupported word => ∃ entries found, IsTextMap entries word ∧
    Folds (optionStep first firstUnsupported) entries ⟨false, false, false⟩ found ∧
    unsupported = found.unsupported

theorem supportedOptions_iff (different : first ≠ uvText) (word : List UInt8) :
    optionsMap first firstUnsupported false word ↔ supportedOptions first firstUnsupported word := by
  apply exists_congr
  intro entries
  simp only [exists_and_left, @eq_comm Bool false, folds_options,
    raisesUnsupported_false firstUnsupported different, forall_and, and_assoc]

theorem readOptions_parses (different : first ≠ uvText) :
    Parses (readOptions first firstUnsupported) (optionsMap first firstUnsupported) := by
  refine Exact.congr ((readTextMap_parses (readOptionsEntry_parses firstUnsupported different)
    ⟨false, false, false⟩).settle fun found => .settle_ret found.unsupported) ?_
  intro unsupported word
  constructor
  · rintro ⟨found, ⟨entries, map, folds⟩, rfl⟩
    exact ⟨entries, found, map, folds, rfl⟩
  · rintro ⟨entries, found, map, folds, rfl⟩
    exact ⟨found, ⟨entries, map, folds⟩, rfl⟩

end Options

end P4Key.Ctap
