import Mathlib.Data.List.Forall2

/-! Grammars that give words a value, and the parsers that accept exactly a grammar.

A parser takes what it wants from the front of its input. `Exact` says both directions
at once: it succeeds with a value if and only if the input begins with a word of that
value, and what it leaves is the rest. Its rules follow the parser's own structure. -/

namespace Grammar

variable {S β α γ ε κ σ : Type*}

/-- Which words stand for a value. -/
abbrev Language (β α : Type*) : Type _ := α → List β → Prop

/-- One value, which is not spelled out. -/
def only (a : α) : Language β α := fun value word => value = a ∧ word = []

def never : Language β α := fun _ _ => False

def follow (first : Language β α) (next : α → Language β γ) : Language β γ :=
  fun value word => ∃ a front back, first a front ∧ next a value back ∧ word = front ++ back

def times (count : Nat) (item : Language β α) : Language β (List α) :=
  fun values word => ∃ words, words.length = count ∧ List.Forall₂ item values words ∧
    word = words.flatten

/-! Relations between the states of a loop over entries. -/

/-- The entries lead one after the other from the first state to the second. -/
def Folds (step : ε → σ → σ → Prop) : List ε → σ → σ → Prop
  | [], state, last => last = state
  | entry :: entries, state, last => ∃ next, step entry state next ∧ Folds step entries next last

/-- As many entries as the count says, each spelled out. -/
def loop (step : ε → σ → σ → Prop) (spell : ε → List β) (count : Nat) (state : σ) :
    Language β σ :=
  fun last word => ∃ entries, entries.length = count ∧ Folds step entries state last ∧
    word = (entries.map spell).flatten

/-! Parsers. -/

/-- A place in an input, and the symbols that lie before it. -/
structure Input (S β : Type*) where
  before : S → List β → Prop
  advance : S → Nat → S
  behind : ∀ {state word rest}, before state (word ++ rest) → before (advance state word.length) rest
  advance_zero : ∀ state, advance state 0 = state
  advance_add : ∀ state first second,
    advance (advance state first) second = advance state (first + second)

abbrev Parser (S α : Type*) : Type _ := S → Option (α × S)

def Parser.ret (a : α) : Parser S α := fun state => some (a, state)

def Parser.bind (parse : Parser S α) (next : α → Parser S γ) : Parser S γ :=
  fun state => (parse state).bind fun result => next result.1 result.2

/-- `parse` accepts the words of the language, with their values, and nothing else. -/
def Exact (input : Input S β) (parse : Parser S α) (language : Language β α) : Prop :=
  ∀ state rest, input.before state rest → ∀ value after,
    parse state = some (value, after) ↔
      ∃ word tail, language value word ∧ rest = word ++ tail ∧
        after = input.advance state word.length

section Rules

variable {input : Input S β}

theorem Exact.congr {parse : Parser S α} {language other : Language β α}
    (exact : Exact input parse language) (same : ∀ value word, language value word ↔ other value word) :
    Exact input parse other := by
  intro state rest before value after
  rw [exact state rest before value after]
  simp only [same]

theorem Exact.ret (a : α) : Exact input (Parser.ret a) (only a) := by
  intro state rest before value after
  constructor
  · intro parsed
    cases parsed
    exact ⟨[], rest, ⟨rfl, rfl⟩, rfl, (input.advance_zero state).symm⟩
  · rintro ⟨word, tail, ⟨rfl, rfl⟩, -, rfl⟩
    rw [List.length_nil, input.advance_zero]
    rfl

theorem Exact.never {parse : Parser S α} (fails : ∀ state, parse state = none) :
    Exact input parse (never : Language β α) := by
  intro state rest before value after
  rw [fails state]
  constructor
  · intro parsed
    cases parsed
  · rintro ⟨word, tail, impossible, -⟩
    exact impossible.elim

theorem Exact.bind {parse : Parser S α} {next : α → Parser S γ} {language : Language β α}
    {following : α → Language β γ} (first : Exact input parse language)
    (second : ∀ a, Exact input (next a) (following a)) :
    Exact input (parse.bind next) (follow language following) := by
  intro state rest before value after
  rw [Parser.bind, Option.bind_eq_some_iff]
  constructor
  · rintro ⟨⟨a, middle⟩, head, body⟩
    rcases (first state rest before a middle).mp head with ⟨front, tail, spelled, rfl, rfl⟩
    rcases (second a _ tail (input.behind before) value after).mp body with
      ⟨back, tail', spelled', rfl, rfl⟩
    refine ⟨front ++ back, tail', ⟨a, front, back, spelled, spelled', rfl⟩, ?_, ?_⟩
    · rw [List.append_assoc]
    · rw [input.advance_add, List.length_append]
  · rintro ⟨word, tail, ⟨a, front, back, spelled, spelled', rfl⟩, rfl, rfl⟩
    rw [List.append_assoc] at before
    have head := (first state _ before a _).mpr ⟨front, back ++ tail, spelled, rfl, rfl⟩
    have body := (second a _ _ (input.behind before) value _).mpr ⟨back, tail, spelled', rfl, rfl⟩
    rw [input.advance_add, ← List.length_append] at body
    exact ⟨_, head, body⟩

theorem Exact.ite {c : Prop} [Decidable c] {yes no : Parser S α} {holds fails : Language β α}
    (first : c → Exact input yes holds) (second : ¬ c → Exact input no fails) :
    Exact input (if c then yes else no) (if c then holds else fails) := by
  by_cases chosen : c
  · rw [if_pos chosen, if_pos chosen]
    exact first chosen
  · rw [if_neg chosen, if_neg chosen]
    exact second chosen

theorem Exact.times {item : Parser S α} {language : Language β α} (run : Nat → Parser S (List α))
    (exact : Exact input item language) (zero : run 0 = Parser.ret [])
    (succ : ∀ count, run (count + 1) =
      item.bind fun a => (run count).bind fun values => Parser.ret (a :: values)) (count : Nat) :
    Exact input (run count) (times count language) := by
  induction count with
  | zero =>
      rw [zero]
      refine (Exact.ret []).congr ?_
      intro values word
      constructor
      · rintro ⟨rfl, rfl⟩
        exact ⟨[], rfl, .nil, rfl⟩
      · rintro ⟨words, none, all, rfl⟩
        rw [List.length_eq_zero_iff] at none
        subst none
        cases all
        exact ⟨rfl, rfl⟩
  | succ count ih =>
      rw [succ]
      refine (exact.bind fun a => ih.bind fun values => Exact.ret (a :: values)).congr ?_
      intro values word
      constructor
      · rintro ⟨a, front, back, one, ⟨others, front', back', ⟨words, size, all, rfl⟩, ⟨rfl, rfl⟩, rfl⟩,
          rfl⟩
        exact ⟨front :: words, by rw [List.length_cons, size], .cons one all, by simp⟩
      · rintro ⟨words, size, all, rfl⟩
        cases all with
        | nil => cases size
        | @cons a front others words one all =>
            refine ⟨a, front, words.flatten, one, ⟨others, words.flatten, [], ⟨words, ?_, all, rfl⟩,
              ⟨rfl, rfl⟩, by simp⟩, rfl⟩
            exact Nat.succ.inj size

theorem Exact.loop (turn : σ → Parser S σ) (run : Nat → σ → Parser S σ)
    (step : ε → σ → σ → Prop) (spell : ε → List β)
    (exact : ∀ state, Exact input (turn state)
      fun next word => ∃ entry, step entry state next ∧ word = spell entry)
    (zero : ∀ state, run 0 state = Parser.ret state)
    (succ : ∀ count state, run (count + 1) state = (turn state).bind (run count)) (count : Nat)
    (state : σ) : Exact input (run count state) (loop step spell count state) := by
  induction count generalizing state with
  | zero =>
      rw [zero]
      refine (Exact.ret state).congr ?_
      intro last word
      constructor
      · rintro ⟨rfl, rfl⟩
        exact ⟨[], rfl, rfl, rfl⟩
      · rintro ⟨entries, none, folds, rfl⟩
        rw [List.length_eq_zero_iff] at none
        subst none
        exact ⟨folds, rfl⟩
  | succ count ih =>
      rw [succ]
      refine ((exact state).bind fun next => ih next).congr ?_
      intro last word
      constructor
      · rintro ⟨next, front, back, ⟨entry, one, rfl⟩, ⟨entries, size, folds, rfl⟩, rfl⟩
        exact ⟨entry :: entries, by rw [List.length_cons, size], ⟨next, one, folds⟩, rfl⟩
      · rintro ⟨entries, size, folds, rfl⟩
        cases entries with
        | nil => cases size
        | cons entry entries =>
            rcases folds with ⟨next, one, folds⟩
            exact ⟨next, spell entry, _, ⟨entry, one, rfl⟩,
              ⟨entries, Nat.succ.inj size, folds, rfl⟩, rfl⟩

end Rules

/-! What folds of simple steps come to. -/

theorem folds_congr {step other : ε → σ → σ → Prop}
    (same : ∀ entry state next, step entry state next ↔ other entry state next)
    (entries : List ε) (state last : σ) :
    Folds step entries state last ↔ Folds other entries state last := by
  have steps : step = other := by
    funext entry state next
    exact propext (same entry state next)
  rw [steps]

/-- A state of two parts that go their own ways. -/
theorem folds_split {step : ε → σ → σ → Prop} {left : ε → α → α → Prop} {right : ε → γ → γ → Prop}
    {f : σ → α} {g : σ → γ} (pair : α → γ → σ) (first : ∀ a c, f (pair a c) = a)
    (second : ∀ a c, g (pair a c) = c) (eta : ∀ state, pair (f state) (g state) = state)
    (steps : ∀ entry state next, step entry state next ↔
      left entry (f state) (f next) ∧ right entry (g state) (g next))
    (entries : List ε) (state last : σ) :
    Folds step entries state last ↔
      Folds left entries (f state) (f last) ∧ Folds right entries (g state) (g last) := by
  induction entries generalizing state with
  | nil =>
      constructor
      · rintro rfl
        exact ⟨rfl, rfl⟩
      · rintro ⟨one, other⟩
        have parts : f last = f state ∧ g last = g state := ⟨one, other⟩
        show last = state
        rw [← eta last, parts.1, parts.2, eta]
  | cons entry entries ih =>
      constructor
      · rintro ⟨next, one, folds⟩
        have parts := (steps entry state next).mp one
        have rest := (ih next).mp folds
        exact ⟨⟨f next, parts.1, rest.1⟩, ⟨g next, parts.2, rest.2⟩⟩
      · rintro ⟨⟨a, one, folds⟩, ⟨c, one', folds'⟩⟩
        refine ⟨pair a c, (steps entry state _).mpr ?_, (ih _).mpr ?_⟩
        · rw [first, second]
          exact ⟨one, one'⟩
        · rw [first, second]
          exact ⟨folds, folds'⟩

theorem folds_prod (left : ε → α → α → Prop) (right : ε → γ → γ → Prop) (entries : List ε)
    (state last : α × γ) :
    Folds (fun entry state next => left entry state.1 next.1 ∧ right entry state.2 next.2) entries
        state last ↔
      Folds left entries state.1 last.1 ∧ Folds right entries state.2 last.2 :=
  folds_split Prod.mk (fun _ _ => rfl) (fun _ _ => rfl) (fun _ => rfl) (fun _ _ _ => Iff.rfl)
    entries state last

theorem folds_where (step : ε → σ → σ → Prop) (allowed : ε → Prop) (entries : List ε)
    (state last : σ) :
    Folds (fun entry state next => step entry state next ∧ allowed entry) entries state last ↔
      Folds step entries state last ∧ ∀ entry ∈ entries, allowed entry := by
  induction entries generalizing state with
  | nil => simp [Folds]
  | cons entry entries ih =>
      simp only [Folds, ih, List.forall_mem_cons]
      constructor
      · rintro ⟨next, ⟨one, allowed⟩, folds, all⟩
        exact ⟨⟨next, one, folds⟩, allowed, all⟩
      · rintro ⟨⟨next, one, folds⟩, allowed, all⟩
        exact ⟨next, ⟨one, allowed⟩, folds, all⟩

theorem folds_fixed (entries : List ε) (state last : σ) :
    Folds (fun _ state next => next = state) entries state last ↔ last = state := by
  induction entries generalizing state with
  | nil => exact Iff.rfl
  | cons entry entries ih => simp [Folds, ih]

section Keys

variable [DecidableEq κ] (key : ε → κ) (k : κ)

def entriesOf (entries : List ε) : List ε := entries.filter fun entry => decide (key entry = k)

def Once (ok : ε → α → Prop) (entries : List ε) (a : α) : Prop :=
  ∃ entry, entriesOf key k entries = [entry] ∧ ok entry a

def Absent (entries : List ε) : Prop := entriesOf key k entries = []

variable {key k}

theorem entriesOf_cons_self {entry : ε} (here : key entry = k) (entries : List ε) :
    entriesOf key k (entry :: entries) = entry :: entriesOf key k entries := by
  simp [entriesOf, here]

theorem entriesOf_cons_other {entry : ε} (other : key entry ≠ k) (entries : List ε) :
    entriesOf key k (entry :: entries) = entriesOf key k entries := by
  simp [entriesOf, other]

theorem once_and {ok : ε → α → Prop} {extra : α → Prop} {entries : List ε} {a : α} :
    Once key k (fun entry a => ok entry a ∧ extra a) entries a ↔ Once key k ok entries a ∧ extra a := by
  simp only [Once]
  constructor
  · rintro ⟨entry, one, value, holds⟩
    exact ⟨⟨entry, one, value⟩, holds⟩
  · rintro ⟨⟨entry, one, value⟩, holds⟩
    exact ⟨entry, one, value, holds⟩

theorem absent_iff {entries : List ε} : Absent key k entries ↔ ∀ entry ∈ entries, key entry ≠ k := by
  simp [Absent, entriesOf, List.filter_eq_nil_iff]

theorem absent_cons {entry : ε} {entries : List ε} :
    Absent key k (entry :: entries) ↔ key entry ≠ k ∧ Absent key k entries := by
  simp only [absent_iff, List.forall_mem_cons]

/-- A step that leaves the state alone but for one key. -/
theorem folds_absent {step : ε → σ → σ → Prop}
    (others : ∀ entry state next, key entry ≠ k → (step entry state next ↔ next = state))
    {entries : List ε} (none : Absent key k entries) (state last : σ) :
    Folds step entries state last ↔ last = state := by
  induction entries generalizing state with
  | nil => exact Iff.rfl
  | cons entry entries ih =>
      rw [absent_cons] at none
      simp only [Folds, others entry state _ none.1, exists_eq_left]
      exact ih none.2 state

theorem folds_once {step : ε → σ → σ → Prop}
    (others : ∀ entry state next, key entry ≠ k → (step entry state next ↔ next = state))
    {entries : List ε} {entry : ε} (one : entriesOf key k entries = [entry]) (state last : σ) :
    Folds step entries state last ↔ step entry state last := by
  induction entries generalizing state with
  | nil => cases one
  | cons first entries ih =>
      by_cases here : key first = k
      · rw [entriesOf_cons_self here, List.cons.injEq] at one
        rcases one with ⟨rfl, none⟩
        simp only [Folds, folds_absent others none, exists_eq_right']
      · rw [entriesOf_cons_other here] at one
        simp only [Folds, others first state _ here, exists_eq_left]
        exact ih one state

/-- A slot that takes the value of its key, once. -/
def fills (key : ε → κ) (k : κ) (ok : ε → α → Prop) (entry : ε) (slot next : Option α) : Prop :=
  if key entry = k then slot = none ∧ ∃ a, next = some a ∧ ok entry a else next = slot

theorem fills_other {ok : ε → α → Prop} (entry : ε) (slot next : Option α) (other : key entry ≠ k) :
    fills key k ok entry slot next ↔ next = slot := by
  rw [fills, if_neg other]

theorem folds_fills_full {ok : ε → α → Prop} (entries : List ε) (a : α) (last : Option α) :
    Folds (fills key k ok) entries (some a) last ↔ Absent key k entries ∧ last = some a := by
  induction entries with
  | nil => simp [Folds, Absent, entriesOf]
  | cons entry entries ih =>
      by_cases here : key entry = k
      · simp [Folds, fills, here, Absent, entriesOf_cons_self]
      · simp only [Folds, fills_other entry _ _ here, exists_eq_left, ih, Absent,
          entriesOf_cons_other here]

theorem folds_fills_some {ok : ε → α → Prop} (entries : List ε) (a : α) :
    Folds (fills key k ok) entries none (some a) ↔ Once key k ok entries a := by
  induction entries with
  | nil => simp [Folds, Once, entriesOf]
  | cons entry entries ih =>
      by_cases here : key entry = k
      · simp only [Folds, fills, if_pos here, true_and, Once, entriesOf_cons_self here,
          List.cons.injEq]
        constructor
        · rintro ⟨next, ⟨b, rfl, value⟩, folds⟩
          rcases (folds_fills_full entries b (some a)).mp folds with ⟨none, same⟩
          cases same
          exact ⟨entry, ⟨rfl, none⟩, value⟩
        · rintro ⟨_, ⟨rfl, none⟩, value⟩
          exact ⟨some a, ⟨a, rfl, value⟩, (folds_fills_full entries a (some a)).mpr ⟨none, rfl⟩⟩
      · simp only [Folds, fills_other entry _ _ here, exists_eq_left, ih, Once,
          entriesOf_cons_other here]

def marks (key : ε → κ) (k : κ) (entry : ε) (mark next : Bool) : Prop :=
  if key entry = k then mark = false ∧ next = true else next = mark

theorem marks_other (entry : ε) (mark next : Bool) (other : key entry ≠ k) :
    marks key k entry mark next ↔ next = mark := by
  rw [marks, if_neg other]

theorem folds_marks_set (entries : List ε) (last : Bool) :
    Folds (marks key k) entries true last ↔ Absent key k entries ∧ last = true := by
  induction entries with
  | nil => simp [Folds, Absent, entriesOf]
  | cons entry entries ih =>
      by_cases here : key entry = k
      · simp [Folds, marks, here, Absent, entriesOf_cons_self]
      · simp only [Folds, marks_other entry _ _ here, exists_eq_left, ih, Absent,
          entriesOf_cons_other here]

theorem folds_marks (entries : List ε) :
    (∃ last, Folds (marks key k) entries false last) ↔ (entriesOf key k entries).length ≤ 1 := by
  induction entries with
  | nil => simp [Folds, entriesOf]
  | cons entry entries ih =>
      by_cases here : key entry = k
      · simp only [Folds, marks, if_pos here, true_and, exists_eq_left, entriesOf_cons_self here,
          List.length_cons, folds_marks_set, exists_and_left, exists_eq, and_true, Absent]
        rw [← List.length_eq_zero_iff]
        omega
      · simp only [Folds, marks_other entry _ _ here, exists_eq_left, ih, entriesOf_cons_other here]

def sets (key : ε → κ) (k : κ) (ok : ε → α → Prop) (entry : ε) (value next : α) : Prop :=
  if key entry = k then ok entry next else next = value

theorem sets_other {ok : ε → α → Prop} (entry : ε) (value next : α) (other : key entry ≠ k) :
    sets key k ok entry value next ↔ next = value := by
  rw [sets, if_neg other]

theorem absent_or_one {entries : List ε} (few : (entriesOf key k entries).length ≤ 1) :
    Absent key k entries ∨ ∃ entry, entriesOf key k entries = [entry] := by
  rw [Absent]
  match entriesOf key k entries, few with
  | [], _ => exact Or.inl rfl
  | [entry], _ => exact Or.inr ⟨entry, rfl⟩
  | _ :: _ :: _, many => simp at many

theorem key_of_one {entries : List ε} {entry : ε} (one : entriesOf key k entries = [entry]) :
    key entry = k := by
  have member : entry ∈ entriesOf key k entries := by
    rw [one]
    exact List.mem_singleton.mpr rfl
  exact of_decide_eq_true (List.mem_filter.mp member).2

/-- With a key that comes at most once, the value is the old one or that of the key. -/
theorem folds_sets {ok : ε → α → Prop} {entries : List ε}
    (few : (entriesOf key k entries).length ≤ 1) (value last : α) :
    Folds (sets key k ok) entries value last ↔
      Absent key k entries ∧ last = value ∨ Once key k ok entries last := by
  have others := fun entry value next => @sets_other _ _ _ _ key k ok entry value next
  rcases absent_or_one few with none | ⟨entry, one⟩
  · rw [folds_absent others none]
    have never : ¬ Once key k ok entries last := by
      rintro ⟨entry, one, -⟩
      rw [Absent, one] at none
      cases none
    simp [none, never]
  · rw [folds_once others one, sets, if_pos (key_of_one one)]
    have some' : ¬ Absent key k entries := by
      rw [Absent, one]
      exact List.cons_ne_nil _ _
    simp [some', Once, one]

end Keys

theorem folds_raised (raises : ε → Bool → Prop) (entries : List ε) (flag : Bool) :
    Folds (fun entry flag next => ∃ up, raises entry up ∧ next = (flag || up)) entries flag false ↔
      flag = false ∧ ∀ entry ∈ entries, raises entry false := by
  induction entries generalizing flag with
  | nil => simp [Folds, eq_comm]
  | cons entry entries ih =>
      simp only [Folds, ih, List.forall_mem_cons]
      constructor
      · rintro ⟨next, ⟨up, one, rfl⟩, down, all⟩
        rw [Bool.or_eq_false_iff] at down
        rw [down.2] at one
        exact ⟨down.1, one, all⟩
      · rintro ⟨rfl, one, all⟩
        exact ⟨false, ⟨false, one, rfl⟩, rfl, all⟩

end Grammar
