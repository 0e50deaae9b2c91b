import P4Key.Cbor.Keys
import P4Key.Ctap.Grammar

/-! The grammar of a request map. -/

namespace P4Key.Ctap

open Cbor Grammar

abbrev Field : Type := Nat × List UInt8

def Field.bytes (entry : Field) : List UInt8 := headBytes 0 entry.1 ++ entry.2

/-- One map whose keys are unsigned integers, and nothing behind it. -/
def IsRequestMap (entries : List Field) (word : List UInt8) : Prop :=
  entries.length ≤ maxContainerItems ∧ (∀ entry ∈ entries, entry.1 < 2 ^ 64) ∧
    word = headBytes 5 entries.length ++ (entries.map Field.bytes).flatten

structure KeysOnce (entries : List Field) : Prop where
  zero : Absent Prod.fst 0 entries
  once : ∀ key ≤ 32, (entriesOf Prod.fst key entries).length ≤ 1

def Held {α : Type} (key : Nat) (word : Language UInt8 α) (entries : List Field) (value : α) : Prop :=
  Once Prod.fst key (fun entry value => word value entry.2) entries value

/-- `Held`, or the key does not come and the value is the one it starts with. -/
def HeldOr {α : Type} (start : α) (key : Nat) (word : Language UInt8 α) (entries : List Field)
    (value : α) : Prop :=
  Absent Prod.fst key entries ∧ value = start ∨ Held key word entries value

def Every (key : Nat) (spelled : List UInt8 → Prop) (entries : List Field) : Prop :=
  ∀ entry ∈ entries, entry.1 = key → spelled entry.2

theorem KeysOnce.folds_sets {α : Type} {entries : List Field} (once : KeysOnce entries) {key : Nat}
    (small : key ≤ 32) (word : Language UInt8 α) (start last : α) :
    Folds (sets Prod.fst key fun entry value => word value entry.2) entries start last ↔
      HeldOr start key word entries last :=
  Grammar.folds_sets (once.once key small) start last

theorem HeldOr.held {α : Type} {start value : α} {key : Nat} {word : Language UInt8 α}
    {entries : List Field} (held : HeldOr start key word entries value)
    (needed : ¬ Absent Prod.fst key entries) : Held key word entries value := by
  rcases held with ⟨none, -⟩ | held
  · exact absurd none needed
  · exact held

theorem Held.present {α : Type} {value : α} {key : Nat} {word : Language UInt8 α}
    {entries : List Field} (held : Held key word entries value) : ¬ Absent Prod.fst key entries := by
  rcases held with ⟨entry, one, -⟩
  rw [Absent, one]
  exact List.cons_ne_nil _ _

theorem KeysOnce.held_iff {α : Type} {entries : List Field} (once : KeysOnce entries) {key : Nat}
    (small : key ≤ 32) (word : Language UInt8 α) :
    (∃ value, Held key word entries value) ↔
      ¬ Absent Prod.fst key entries ∧ Every key (fun spelled => ∃ value, word value spelled) entries := by
  constructor
  · rintro ⟨value, held⟩
    refine ⟨held.present, ?_⟩
    rcases held with ⟨entry, one, spelled⟩
    intro other member same
    have found : other ∈ entriesOf Prod.fst key entries :=
      List.mem_filter.mpr ⟨member, decide_eq_true same⟩
    rw [one, List.mem_singleton] at found
    rw [found]
    exact ⟨value, spelled⟩
  · rintro ⟨present, every⟩
    rcases absent_or_one (once.once key small) with none | ⟨entry, one⟩
    · exact absurd none present
    · have member : entry ∈ entriesOf Prod.fst key entries := by
        rw [one]
        exact List.mem_singleton.mpr rfl
      rcases every entry (List.mem_filter.mp member).1 (key_of_one one) with ⟨value, spelled⟩
      exact ⟨value, entry, one, spelled⟩

def clientHashWord : Language UInt8 (List UInt8) := fun hash word =>
  bytesWord hash word ∧ hash.length = 32

/-! The keys that were seen. -/

theorem seenAfter_iff {seen seen' : UInt32} {key : Nat} :
    seenAfter seen key = some seen' ↔ key ≠ 0 ∧ key ∉ keysSeen seen ∧
      keysSeen seen' = if key ≤ 32 then insert key (keysSeen seen) else keysSeen seen := by
  rw [seenAfter]
  by_cases small : key ≤ 32
  · rw [if_pos small, if_pos small, knownKeyOnce_iff small]
  · rw [if_neg small, if_neg small]
    have outside : key ∉ keysSeen seen := fun member => small member.2.1
    constructor
    · intro same
      cases same
      exact ⟨by omega, outside, rfl⟩
    · rintro ⟨-, -, same⟩
      rw [keysSeen_injective same]

theorem seenAfter_new {seen : UInt32} {key : Nat} (positive : key ≠ 0) (fresh : key ∉ keysSeen seen) :
    ∃ seen', seenAfter seen key = some seen' := by
  rw [seenAfter]
  by_cases small : key ≤ 32
  · rw [if_pos small]
    exact knownKeyOnce_new positive small fresh
  · rw [if_neg small]
    exact ⟨seen, rfl⟩

theorem seenAfter_members {seen next : UInt32} {key : Nat} (accepted : seenAfter seen key = some next)
    (other : Nat) : other ∈ keysSeen next ↔ other ∈ keysSeen seen ∨ key = other ∧ other ≤ 32 := by
  rw [(seenAfter_iff.mp accepted).2.2]
  by_cases small : key ≤ 32
  · rw [if_pos small, Set.mem_insert_iff]
    constructor
    · rintro (rfl | old)
      · exact Or.inr ⟨rfl, small⟩
      · exact Or.inl old
    · rintro (old | ⟨rfl, -⟩)
      · exact Or.inr old
      · exact Or.inl rfl
  · rw [if_neg small]
    constructor
    · exact Or.inl
    · rintro (old | ⟨rfl, impossible⟩)
      · exact old
      · exact absurd impossible small

theorem seen_union {seen next : UInt32} {entry : Field} {entries : List Field}
    (members : ∀ key, key ∈ keysSeen next ↔ key ∈ keysSeen seen ∨ entry.1 = key ∧ key ≤ 32) :
    keysSeen next ∪ {key | key ≤ 32 ∧ ¬ Absent Prod.fst key entries} =
      keysSeen seen ∪ {key | key ≤ 32 ∧ ¬ Absent Prod.fst key (entry :: entries)} := by
  ext key
  simp only [Set.mem_union, members, Set.mem_ofPred_eq, absent_cons]
  tauto

/-- The known keys of the entries come once, and are seen besides those seen before. -/
theorem folds_seen {entries : List Field} {seen last : UInt32}
    (folds : Folds (fun entry seen next => seenAfter seen entry.1 = some next) entries seen last) :
    KeysOnce entries ∧ (∀ key ∈ keysSeen seen, Absent Prod.fst key entries) ∧
      keysSeen last = keysSeen seen ∪ {key | key ≤ 32 ∧ ¬ Absent Prod.fst key entries} := by
  induction entries generalizing seen with
  | nil =>
      have none : ∀ key, Absent (Prod.fst : Field → Nat) key [] := fun _ => rfl
      have same : last = seen := folds
      rw [same]
      refine ⟨⟨none 0, fun key _ => Nat.zero_le 1⟩, fun key _ => none key, ?_⟩
      simp only [none, not_true_eq_false, and_false, Set.ofPred_false, Set.union_empty]
  | cons entry entries ih =>
      rcases folds with ⟨next, accepted, rest⟩
      rcases ih rest with ⟨once, gone, after⟩
      rcases seenAfter_iff.mp accepted with ⟨positive, fresh, -⟩
      have members := seenAfter_members accepted
      refine ⟨⟨absent_cons.mpr ⟨positive, once.zero⟩, ?_⟩, ?_, ?_⟩
      · intro key small
        by_cases here : entry.1 = key
        · have none : entriesOf Prod.fst key entries = [] :=
            gone key ((members key).mpr (Or.inr ⟨here, small⟩))
          rw [entriesOf_cons_self here, none]
          exact Nat.le_refl 1
        · rw [entriesOf_cons_other here]
          exact once.once key small
      · intro key member
        refine absent_cons.mpr ⟨?_, gone key ((members key).mpr (Or.inl member))⟩
        rintro rfl
        exact fresh member
      · rw [after]
        exact seen_union members

theorem folds_seen_exists {entries : List Field} (once : KeysOnce entries) {seen : UInt32}
    (gone : ∀ key ∈ keysSeen seen, Absent Prod.fst key entries) :
    ∃ last, Folds (fun entry seen next => seenAfter seen entry.1 = some next) entries seen last := by
  induction entries generalizing seen with
  | nil => exact ⟨seen, rfl⟩
  | cons entry entries ih =>
      have fresh : entry.1 ∉ keysSeen seen := fun member => (absent_cons.mp (gone _ member)).1 rfl
      rcases seenAfter_new (absent_cons.mp once.zero).1 fresh with ⟨next, accepted⟩
      have members := seenAfter_members accepted
      have rest : KeysOnce entries := by
        refine ⟨(absent_cons.mp once.zero).2, ?_⟩
        intro key small
        have few := once.once key small
        by_cases here : entry.1 = key
        · rw [entriesOf_cons_self here, List.length_cons] at few
          omega
        · rw [entriesOf_cons_other here] at few
          exact few
      have gone' : ∀ key ∈ keysSeen next, Absent Prod.fst key entries := by
        intro key member
        rcases (members key).mp member with old | ⟨rfl, small⟩
        · exact (absent_cons.mp (gone key old)).2
        · have few := once.once entry.1 small
          rw [entriesOf_cons_self rfl, List.length_cons] at few
          exact List.length_eq_zero_iff.mp (by omega)
      rcases ih rest gone' with ⟨last, folds⟩
      exact ⟨last, next, accepted, folds⟩

/-! The parsers. -/

section Parsers

variable {σ : Type} {field : Nat → σ → Parse σ} {step : Field → σ → σ → Prop}

def requestStep (step : Field → σ → σ → Prop) (entry : Field) (state next : UInt32 × σ) : Prop :=
  (seenAfter state.1 entry.1 = some next.1 ∧ step entry state.2 next.2) ∧ entry.1 < 2 ^ 64

def readEntry (field : Nat → σ → Parse σ) (state : UInt32 × σ) : Parse (UInt32 × σ) := do
  let key ← expect getUint .cborUnexpectedType
  match seenAfter state.1 key with
  | none => throw .invalidCbor
  | some seen => do
    let request ← field key state.2
    pure (seen, request)

theorem readEntry_parses
    (parses : ∀ key request, Parses (field key request) fun next word => step (key, word) request next)
    (state : UInt32 × σ) :
    Parses (readEntry field state)
      (fun next word => ∃ entry, requestStep step entry state next ∧ word = Field.bytes entry) := by
  have turn : ∀ key, Parses (match seenAfter state.1 key with
      | none => throw .invalidCbor
      | some seen => do
        let request ← field key state.2
        pure (seen, request))
      (fun next word => seenAfter state.1 key = some next.1 ∧ step (key, word) state.2 next.2) := by
    intro key
    cases seenAfter state.1 key with
    | none => exact Exact.congr (Parses.refuse .invalidCbor) (by simp [never])
    | some seen =>
        refine Exact.congr ((parses key state.2).settle fun request => .settle_ret (seen, request)) ?_
        rintro ⟨seen', request'⟩ word
        constructor
        · rintro ⟨request, spelled, same⟩
          cases same
          exact ⟨rfl, spelled⟩
        · rintro ⟨same, spelled⟩
          cases same
          exact ⟨request', spelled, rfl⟩
  refine Exact.congr ((Parses.get getUint_accepts .cborUnexpectedType).bind turn) ?_
  intro next word
  constructor
  · rintro ⟨key, front, back, ⟨bound, rfl⟩, both, rfl⟩
    exact ⟨(key, back), ⟨both, bound⟩, rfl⟩
  · rintro ⟨⟨key, back⟩, ⟨both, bound⟩, rfl⟩
    exact ⟨key, headBytes 0 key, back, ⟨bound, rfl⟩, both, rfl⟩

theorem readFields_succ (pairs : Nat) (seen : UInt32) (request : σ) :
    readFields field (pairs + 1) seen request =
      readEntry field (seen, request) >>= fun state => readFields field pairs state.1 state.2 := by
  rw [readFields, readEntry]
  simp only [bind_assoc]
  congr 1
  funext key
  cases seenAfter seen key with
  | none => rfl
  | some seen => simp only [bind_assoc, pure_bind]

theorem readFields_parses
    (parses : ∀ key request, Parses (field key request) fun next word => step (key, word) request next)
    (pairs : Nat) (seen : UInt32) (request : σ) :
    Parses (readFields field pairs seen request)
      (loop (requestStep step) Field.bytes pairs (seen, request)) := by
  refine Exact.loop (fun state => (readEntry field state).parser)
    (fun pairs state => (readFields field pairs state.1 state.2).parser) _ _
    (readEntry_parses parses) (fun state => parser_pure state) ?_ pairs (seen, request)
  intro pairs state
  rw [readFields_succ, parser_bind]

theorem readerDone_advance {data word tail : List UInt8} (small : data.length ≤ maxBytes)
    (split : data = word ++ tail) :
    readerDone ((readerInit data).advance word.length) = true ↔ tail = [] := by
  have working : (readerInit data).failed = false := by
    simp only [readerInit, decide_eq_false_iff_not]
    omega
  have size := congrArg List.length split
  rw [List.length_append] at size
  simp only [readerDone, Reader.advance, working, Bool.not_false, Bool.true_and, beq_iff_eq]
  rw [← List.length_eq_zero_iff]
  simp only [readerInit]
  omega

def readMap (field : Nat → σ → Parse σ) (request : σ) : Parse (UInt32 × σ) := do
  let pairs ← expect getMap .invalidCbor
  readFields field pairs 0 request

theorem readMap_parses
    (parses : ∀ key request, Parses (field key request) fun next word => step (key, word) request next)
    (request : σ) :
    Parses (readMap field request) (fun last word => ∃ entries, IsRequestMap entries word ∧
      Folds (fun entry seen next => seenAfter seen entry.1 = some next) entries 0 last.1 ∧
      Folds step entries request last.2) := by
  refine Exact.congr ((Parses.get getMap_accepts .invalidCbor).bind
    fun pairs => readFields_parses parses pairs 0 request) ?_
  rintro ⟨seen, last⟩ word
  have parts : ∀ entries : List Field, Folds (requestStep step) entries (0, request) (seen, last) ↔
      (Folds (fun entry seen next => seenAfter seen entry.1 = some next) entries 0 seen ∧
        Folds step entries request last) ∧ ∀ entry ∈ entries, entry.1 < 2 ^ 64 := by
    intro entries
    have both := folds_prod (fun (entry : Field) seen next => seenAfter seen entry.1 = some next) step
      entries (0, request) (seen, last)
    rw [← both]
    exact folds_where (fun (entry : Field) (state next : UInt32 × σ) =>
      seenAfter state.1 entry.1 = some next.1 ∧ step entry state.2 next.2) _ entries _ _
  constructor
  · rintro ⟨pairs, front, back, ⟨few, rfl⟩, ⟨entries, rfl, folds, rfl⟩, rfl⟩
    rcases (parts entries).mp folds with ⟨⟨keys, fields⟩, bounds⟩
    exact ⟨entries, ⟨few, bounds, rfl⟩, keys, fields⟩
  · rintro ⟨entries, ⟨few, bounds, rfl⟩, keys, fields⟩
    exact ⟨entries.length, _, _, ⟨few, rfl⟩,
      ⟨entries, rfl, (parts entries).mpr ⟨⟨keys, fields⟩, bounds⟩, rfl⟩, rfl⟩

theorem readWhole_ok {required : UInt32} {request last : σ} {data : List UInt8} :
    readWhole field required request data = .ok last ↔ ∃ seen reader,
      readMap field request (readerInit data) = .ok ((seen, last), reader) ∧
        readerDone reader = true ∧ seen &&& required = required := by
  have same : readWhole field required request data =
      Except.bind (readMap field request (readerInit data)) fun result =>
        if !readerDone result.2 then throw .invalidCbor
        else if result.1.1 &&& required ≠ required then throw .missingParameter
        else pure result.1.2 := by
    change _ = Except.bind (Except.bind (expect getMap .invalidCbor (readerInit data)) _) _
    rw [readWhole]
    cases expect getMap .invalidCbor (readerInit data) <;> rfl
  rw [same]
  cases readMap field request (readerInit data) with
  | error status => simp [Except.bind]
  | ok result =>
      rcases result with ⟨⟨seen, found⟩, reader⟩
      simp only [Except.bind, Except.ok.injEq, Prod.mk.injEq]
      by_cases done : readerDone reader = true
      · by_cases held : seen &&& required = required
        · simp only [done, held, Bool.not_true, Bool.false_eq_true, ne_eq, not_true_eq_false, if_false]
          constructor
          · intro same
            cases same
            exact ⟨seen, reader, ⟨⟨rfl, rfl⟩, rfl⟩, done, held⟩
          · rintro ⟨_, _, ⟨⟨-, rfl⟩, -⟩, -⟩
            rfl
        · rw [if_neg (by simp [done]), if_pos held]
          constructor
          · intro refused
            cases refused
          · rintro ⟨_, _, ⟨⟨rfl, -⟩, -⟩, -, held'⟩
            exact absurd held' held
      · rw [if_pos (by simp [done])]
        constructor
        · intro refused
          cases refused
        · rintro ⟨_, _, ⟨-, rfl⟩, done', -⟩
          exact absurd done' done

/-- A request is accepted, before the checks on what was parsed, if and only if it is a request
map with its required keys and its fields can be read one after the other. -/
theorem readWhole_iff
    (parses : ∀ key request, Parses (field key request) fun next word => step (key, word) request next)
    (required : UInt32) (request last : σ) {data : List UInt8} (small : data.length ≤ maxBytes) :
    readWhole field required request data = .ok last ↔
      ∃ entries, IsRequestMap entries data ∧ KeysOnce entries ∧
        (∀ key ∈ keysSeen required, ¬ Absent Prod.fst key entries) ∧
        Folds step entries request last := by
  have ahead : (readerInit data).Ahead data := by
    refine ⟨⟨?_, Nat.zero_le _, rfl⟩, small⟩
    simp only [readerInit, decide_eq_false_iff_not]
    omega
  have exact' := fun seen reader =>
    readMap_parses parses request (readerInit data) data ahead (seen, last) reader
  simp only [Parse.parser_some] at exact'
  rw [readWhole_ok]
  constructor
  · rintro ⟨seen, reader, read, done, held⟩
    rcases (exact' seen reader).mp read with ⟨word, tail, ⟨entries, map, keys, fields⟩, split, rfl⟩
    have whole := (readerDone_advance small split).mp done
    rw [whole, List.append_nil] at split
    rcases folds_seen keys with ⟨once, -, after⟩
    refine ⟨entries, split ▸ map, once, ?_, fields⟩
    intro key member
    have found := mask_iff.mp held key member
    rw [after, keysSeen_zero, Set.empty_union] at found
    exact found.2
  · rintro ⟨entries, map, once, needed, fields⟩
    have unseen : ∀ key ∈ keysSeen 0, Absent Prod.fst key entries := by
      intro key member
      rw [keysSeen_zero] at member
      exact member.elim
    rcases folds_seen_exists once unseen with ⟨seen, keys⟩
    have after := (folds_seen keys).2.2
    have split : data = data ++ [] := (List.append_nil data).symm
    refine ⟨seen, _, (exact' seen _).mpr ⟨data, [], ⟨entries, map, keys, fields⟩, split, rfl⟩,
      (readerDone_advance small split).mpr rfl, mask_iff.mpr ?_⟩
    intro key member
    rw [after, keysSeen_zero, Set.empty_union]
    exact ⟨member.2.1, needed key member⟩

end Parsers

end P4Key.Ctap
