import P4Key.Ctap.MakeCredential
import P4Key.Ctap.Requests

/-! The grammar of a makeCredential request. -/

namespace P4Key.Ctap.MakeCredential

open Cbor Grammar

/-! The list of algorithms. -/

/-- One algorithm, and whether it is ES256: `type` and `alg` come once. -/
def algMap : Language UInt8 Bool := fun es256 word =>
  ∃ entries publicKey algorithm, IsTextMap entries word ∧ Named typeText typeWord entries publicKey ∧
    Named algText intWord entries algorithm ∧ OthersSkipped [typeText, algText] entries ∧
    es256 = (publicKey && decide (algorithm = -7))

theorem readAlgEntry_parses (key : List UInt8) (found : Option Bool × Option Int) :
    Parses (readAlgEntry key found) (fun next word =>
      fieldsStep typeText algText typeWord intWord (key, word) found next) := by
  refine fields_parses (by decide) key found (readType_parses found) ?_
  refine Exact.congr ((Parses.get getInt_accepts .cborUnexpectedType).settle
    fun algorithm => .settle_ret (found.1, some algorithm)) ?_
  intro next word
  rfl

theorem readAlg_parses : Parses readAlg algMap := by
  refine Exact.congr (@Parses.settle _ _ _ _ _
    (fun (found : Option Bool × Option Int) es256 => ∃ publicKey algorithm,
      found = (some publicKey, some algorithm) ∧ es256 = (publicKey && decide (algorithm = -7)))
    (readTextMap_parses readAlgEntry_parses (none, none)) ?_) ?_
  · rintro ⟨_ | publicKey, _ | algorithm⟩
    · exact Exact.congr (Parses.refuse .missingParameter) (by simp [never, decided])
    · exact Exact.congr (Parses.refuse .missingParameter) (by simp [never, decided])
    · exact Exact.congr (Parses.refuse .missingParameter) (by simp [never, decided])
    · refine Exact.congr (Parses.ret (publicKey && decide (algorithm = -7))) ?_
      intro es256 word
      simp [only, decided]
  · intro es256 word
    constructor
    · rintro ⟨_, ⟨entries, map, folds⟩, publicKey, algorithm, rfl, value⟩
      rcases (folds_fields entries publicKey algorithm).mp folds with ⟨type, alg, others⟩
      exact ⟨entries, publicKey, algorithm, map, type, alg, others, value⟩
    · rintro ⟨entries, publicKey, algorithm, map, type, alg, others, value⟩
      have folds := (folds_fields entries publicKey algorithm).mpr ⟨type, alg, others⟩
      exact ⟨_, ⟨entries, map, folds⟩, publicKey, algorithm, rfl, value⟩

/-- A list that is not empty, and whether some algorithm in it is ES256. -/
def algList : Language UInt8 Bool := fun es256 word =>
  ∃ found, arrayOf algMap found word ∧ found ≠ [] ∧ es256 = found.any id

theorem readAlgs_parses : Parses readAlgs algList := by
  have items := array_parses readAlg_parses (fun count => count = 0) .invalidParameter
  have same : readAlgs = (do
      let count ← expect getArray .cborUnexpectedType
      if count = 0 then throw .invalidParameter else readItems readAlg count) >>=
        fun found => pure (found.any id) := by
    rw [readAlgs, bind_assoc]
    congr 1
    funext count
    by_cases none : count = 0
    · rw [if_pos none, if_pos none]
      rfl
    · rw [if_neg none, if_neg none]
  rw [same]
  refine Exact.congr (items.settle fun found => .settle_ret (found.any id)) ?_
  intro es256 word
  simp only [algList, List.length_eq_zero_iff, ne_eq, and_assoc]

/-! The request. -/

structure IsRequest (entries : List Field) (parsed : Request) : Prop where
  keys : KeysOnce entries
  clientHash : ∃ hash, Held 1 clientHashWord entries hash
  rpId : Held 2 (idMap textWord) entries parsed.rpId
  user : ∃ id, Held 3 (idMap bytesWord) entries id
  algs : Held 4 algList entries parsed.es256
  es256 : parsed.es256 = true
  exclude : HeldOr [] 5 (descList true) entries parsed.exclude
  extensions : Every 6 ignoredMap entries
  options : Every 7 (supportedOptions rkText true) entries
  pinAuth : Absent Prod.fst 8 entries
  pinProtocol : Absent Prod.fst 9 entries
  enterprise : Absent Prod.fst 10 entries
  others : ∀ entry ∈ entries, 10 < entry.1 → Strict 0 entry.2
  supported : parsed.unsupportedOption = false

def algsStep (entry : Field) (es256 next : Bool) : Prop :=
  if entry.1 = 4 then ∃ found, algList found entry.2 ∧ next = (es256 || found) else next = es256

def asksUnsupported (entry : Field) (unsupported : Bool) : Prop :=
  if entry.1 = 7 then optionsMap rkText true unsupported entry.2
  else if entry.1 = 8 then (∃ param, bytesWord param entry.2) ∧ unsupported = true
  else if entry.1 = 9 ∨ entry.1 = 10 then (∃ number, uintWord number entry.2) ∧ unsupported = true
  else unsupported = false

def allowed (entry : Field) : Prop :=
  (entry.1 = 1 → ∃ hash, clientHashWord hash entry.2) ∧
    (entry.1 = 3 → ∃ id, idMap bytesWord id entry.2) ∧
    (entry.1 = 6 → ignoredMap entry.2) ∧ (entry.1 = 0 ∨ 10 < entry.1 → Strict 0 entry.2)

def fieldStep (entry : Field) (request next : Request) : Prop :=
  ((sets Prod.fst 2 (fun entry rpId => idMap textWord rpId entry.2) entry request.rpId next.rpId ∧
      sets Prod.fst 5 (fun entry exclude => descList true exclude entry.2) entry request.exclude
        next.exclude) ∧
    algsStep entry request.es256 next.es256 ∧
      ∃ up, asksUnsupported entry up ∧
        next.unsupportedOption = (request.unsupportedOption || up)) ∧ allowed entry

theorem readField_parses (key : Nat) (request : Request) :
    Parses (readField key request) (fun next word => fieldStep (key, word) request next) := by
  rcases request with ⟨rpId₀, exclude₀, es256₀, unsupported₀⟩
  rw [readField]
  by_cases one : key = 1
  · subst one
    refine Exact.congr ((Parses.get getBytes_accepts .cborUnexpectedType).settle
      fun hash => .settle_guard .invalidParameter (Request.mk rpId₀ exclude₀ es256₀ unsupported₀)) ?_
    rintro ⟨rpId, exclude, es256, unsupported⟩ word
    simp [fieldStep, sets, algsStep, asksUnsupported, allowed, clientHashWord]
    tauto
  rw [if_neg one]
  by_cases two : key = 2
  · subst two
    refine Exact.congr ((readIdMap_parses getText_accepts).settle
      fun rpId => .settle_ret (Request.mk rpId exclude₀ es256₀ unsupported₀)) ?_
    rintro ⟨rpId, exclude, es256, unsupported⟩ word
    simp [fieldStep, sets, algsStep, asksUnsupported, allowed]
    tauto
  rw [if_neg two]
  by_cases three : key = 3
  · subst three
    refine Exact.congr ((readIdMap_parses getBytes_accepts).settle
      fun _ => .settle_ret (Request.mk rpId₀ exclude₀ es256₀ unsupported₀)) ?_
    rintro ⟨rpId, exclude, es256, unsupported⟩ word
    simp [fieldStep, sets, algsStep, asksUnsupported, allowed]
    tauto
  rw [if_neg three]
  by_cases four : key = 4
  · subst four
    refine Exact.congr (readAlgs_parses.settle
      fun found => .settle_ret (Request.mk rpId₀ exclude₀ (es256₀ || found) unsupported₀)) ?_
    rintro ⟨rpId, exclude, es256, unsupported⟩ word
    simp [fieldStep, sets, algsStep, asksUnsupported, allowed]
    tauto
  rw [if_neg four]
  by_cases five : key = 5
  · subst five
    refine Exact.congr ((readDescs_parses true).settle
      fun exclude => .settle_ret (Request.mk rpId₀ exclude es256₀ unsupported₀)) ?_
    rintro ⟨rpId, exclude, es256, unsupported⟩ word
    simp [fieldStep, sets, algsStep, asksUnsupported, allowed]
    tauto
  rw [if_neg five]
  by_cases six : key = 6
  · subst six
    refine Exact.congr (readIgnoredMap_parses.settle
      fun _ => .settle_ret (Request.mk rpId₀ exclude₀ es256₀ unsupported₀)) ?_
    rintro ⟨rpId, exclude, es256, unsupported⟩ word
    simp [fieldStep, sets, algsStep, asksUnsupported, allowed]
    tauto
  rw [if_neg six]
  by_cases seven : key = 7
  · subst seven
    refine Exact.congr ((readOptions_parses true (by decide)).settle
      fun up => .settle_ret (Request.mk rpId₀ exclude₀ es256₀ (unsupported₀ || up))) ?_
    rintro ⟨rpId, exclude, es256, unsupported⟩ word
    simp [fieldStep, sets, algsStep, asksUnsupported, allowed]
    tauto
  rw [if_neg seven]
  by_cases eight : key = 8
  · subst eight
    refine Exact.congr ((Parses.get getBytes_accepts .cborUnexpectedType).settle
      fun _ => .settle_ret (Request.mk rpId₀ exclude₀ es256₀ true)) ?_
    rintro ⟨rpId, exclude, es256, unsupported⟩ word
    simp [fieldStep, sets, algsStep, asksUnsupported, allowed]
    tauto
  rw [if_neg eight]
  by_cases late : key = 9 ∨ key = 10
  · rw [if_pos late]
    refine Exact.congr ((Parses.get getUint_accepts .cborUnexpectedType).settle
      fun _ => .settle_ret (Request.mk rpId₀ exclude₀ es256₀ true)) ?_
    rintro ⟨rpId, exclude, es256, unsupported⟩ word
    rcases late with rfl | rfl
    · simp [fieldStep, sets, algsStep, asksUnsupported, allowed]
      tauto
    · simp [fieldStep, sets, algsStep, asksUnsupported, allowed]
      tauto
  rw [if_neg late]
  refine Exact.congr ((Parses.get skip_accepts .invalidCbor).settle
    fun _ => .settle_ret (Request.mk rpId₀ exclude₀ es256₀ unsupported₀)) ?_
  rintro ⟨rpId, exclude, es256, unsupported⟩ word
  have far : key = 0 ∨ 10 < key := by omega
  simp [fieldStep, sets, algsStep, asksUnsupported, allowed, one, two, three, four, five, six, seven,
    eight, late, far]
  tauto

theorem folds_parts (entries : List Field) (request last : Request) :
    Folds fieldStep entries request last ↔
      ((Folds (sets Prod.fst 2 fun entry rpId => idMap textWord rpId entry.2) entries request.rpId
            last.rpId ∧
          Folds (sets Prod.fst 5 fun entry exclude => descList true exclude entry.2) entries
            request.exclude last.exclude) ∧
        Folds algsStep entries request.es256 last.es256 ∧
          Folds (fun entry flag next => ∃ up, asksUnsupported entry up ∧ next = (flag || up)) entries
            request.unsupportedOption last.unsupportedOption) ∧ ∀ entry ∈ entries, allowed entry := by
  have lists := folds_prod (sets Prod.fst 2 fun (entry : Field) rpId => idMap textWord rpId entry.2)
    (sets Prod.fst 5 fun (entry : Field) exclude => descList true exclude entry.2) entries
    (request.rpId, request.exclude) (last.rpId, last.exclude)
  have flags := folds_prod algsStep
    (fun entry flag next => ∃ up, asksUnsupported entry up ∧ next = (flag || up)) entries
    (request.es256, request.unsupportedOption) (last.es256, last.unsupportedOption)
  rw [← lists, ← flags]
  refine Iff.trans (folds_where _ allowed entries request last) (and_congr_left fun _ => ?_)
  refine folds_split (f := fun request => (request.rpId, request.exclude))
    (g := fun request => (request.es256, request.unsupportedOption))
    (fun first second => Request.mk first.1 first.2 second.1 second.2) (fun _ _ => rfl)
    (fun _ _ => rfl) (fun _ => rfl) ?_ entries request last
  intro entry state next
  rfl

theorem folds_algs {entries : List Field} (once : KeysOnce entries)
    (present : ¬ Absent Prod.fst 4 entries) (last : Bool) :
    Folds algsStep entries false last ↔ Held 4 algList entries last := by
  have others : ∀ (entry : Field) (es256 next : Bool), entry.1 ≠ 4 →
      (algsStep entry es256 next ↔ next = es256) := by
    intro entry es256 next other
    rw [algsStep, if_neg other]
  rcases absent_or_one (once.once 4 (by decide)) with none | ⟨entry, one⟩
  · exact absurd none present
  · rw [folds_once others one, algsStep, if_pos (key_of_one one)]
    simp [Held, Once, one]

theorem asksUnsupported_false (entry : Field) :
    asksUnsupported entry false ↔ (entry.1 = 7 → supportedOptions rkText true entry.2) ∧
      entry.1 ≠ 8 ∧ entry.1 ≠ 9 ∧ entry.1 ≠ 10 := by
  rw [asksUnsupported]
  by_cases seven : entry.1 = 7
  · rw [if_pos seven, supportedOptions_iff true (by decide), seven]
    simp
  rw [if_neg seven]
  by_cases eight : entry.1 = 8
  · simp [eight]
  rw [if_neg eight]
  by_cases late : entry.1 = 9 ∨ entry.1 = 10
  · rcases late with nine | ten
    · simp [nine]
    · simp [ten]
  · rw [not_or] at late
    simp [seven, eight, late]

theorem entries_allowed {entries : List Field} (zero : Absent Prod.fst 0 entries) :
    ((∀ entry ∈ entries, asksUnsupported entry false) ∧ ∀ entry ∈ entries, allowed entry) ↔
      (Every 1 (fun word => ∃ hash, clientHashWord hash word) entries ∧
        Every 3 (fun word => ∃ id, idMap bytesWord id word) entries) ∧
      Every 6 ignoredMap entries ∧ Every 7 (supportedOptions rkText true) entries ∧
      Absent Prod.fst 8 entries ∧ Absent Prod.fst 9 entries ∧ Absent Prod.fst 10 entries ∧
      ∀ entry ∈ entries, 10 < entry.1 → Strict 0 entry.2 := by
  rw [absent_iff] at zero
  simp only [asksUnsupported_false, allowed, Every, absent_iff]
  constructor
  · rintro ⟨asked, allowed⟩
    exact ⟨⟨fun entry member => (allowed entry member).1,
      fun entry member => (allowed entry member).2.1⟩,
      fun entry member => (allowed entry member).2.2.1, fun entry member => (asked entry member).1,
      fun entry member => (asked entry member).2.1, fun entry member => (asked entry member).2.2.1,
      fun entry member => (asked entry member).2.2.2,
      fun entry member far => (allowed entry member).2.2.2 (Or.inr far)⟩
  · rintro ⟨⟨hash, user⟩, extensions, options, eight, nine, ten, others⟩
    refine ⟨fun entry member => ⟨options entry member, eight entry member, nine entry member,
      ten entry member⟩,
      fun entry member => ⟨hash entry member, user entry member, extensions entry member, ?_⟩⟩
    rintro (none | far)
    · exact absurd none (zero entry member)
    · exact others entry member far

theorem folds_request {entries : List Field} (once : KeysOnce entries) (parsed : Request) :
    (∀ key ∈ keysSeen 0x0f, ¬ Absent Prod.fst key entries) ∧
        Folds fieldStep entries ⟨[], [], false, false⟩ parsed ∧ parsed.unsupportedOption = false ∧
        parsed.es256 = true ↔
      IsRequest entries parsed := by
  have needed : ∀ key, key ∈ keysSeen 0x0f ↔ 0 < key ∧ key ≤ 4 :=
    fun key => mem_keysSeen_low rfl (by decide)
  rcases parsed with ⟨rpId, exclude, es256, unsupported⟩
  simp only [needed, folds_parts, once.folds_sets (show 2 ≤ 32 by decide),
    once.folds_sets (show 5 ≤ 32 by decide)]
  have hashes := once.held_iff (show 1 ≤ 32 by decide) clientHashWord
  have users := once.held_iff (show 3 ≤ 32 by decide) (idMap bytesWord)
  constructor
  · rintro ⟨required, ⟨⟨⟨rpId, exclude⟩, algs, flags⟩, allowed⟩, rfl, rfl⟩
    rw [folds_raised] at flags
    have conditions := (entries_allowed once.zero).mp ⟨flags.2, allowed⟩
    exact {
      keys := once
      clientHash := hashes.mpr ⟨required 1 (by decide), conditions.1.1⟩
      rpId := rpId.held (required 2 (by decide))
      user := users.mpr ⟨required 3 (by decide), conditions.1.2⟩
      algs := (folds_algs once (required 4 (by decide)) true).mp algs
      es256 := rfl
      exclude := exclude
      extensions := conditions.2.1
      options := conditions.2.2.1
      pinAuth := conditions.2.2.2.1
      pinProtocol := conditions.2.2.2.2.1
      enterprise := conditions.2.2.2.2.2.1
      others := conditions.2.2.2.2.2.2
      supported := rfl }
  · intro request
    have supported : unsupported = false := request.supported
    have chosen : es256 = true := request.es256
    subst supported chosen
    have hash := hashes.mp request.clientHash
    have user := users.mp request.user
    have conditions := (entries_allowed once.zero).mpr ⟨⟨hash.2, user.2⟩, request.extensions,
      request.options, request.pinAuth, request.pinProtocol, request.enterprise, request.others⟩
    have algs := (folds_algs once request.algs.present true).mpr request.algs
    refine ⟨?_, ⟨⟨⟨Or.inr request.rpId, request.exclude⟩, algs,
      (folds_raised _ _ _).mpr ⟨rfl, conditions.1⟩⟩, conditions.2⟩, rfl, rfl⟩
    intro key bounds
    have cases' : key = 1 ∨ key = 2 ∨ key = 3 ∨ key = 4 := by omega
    rcases cases' with rfl | rfl | rfl | rfl
    · exact hash.1
    · exact request.rpId.present
    · exact user.1
    · exact request.algs.present

/-- What was parsed is refused for its options first, then for its algorithms. -/
theorem readRequest_ok (data : List UInt8) (parsed : Request) :
    readRequest data = .ok parsed ↔
      readWhole readField 0x0f ⟨[], [], false, false⟩ data = .ok parsed ∧
        parsed.unsupportedOption = false ∧ parsed.es256 = true := by
  rw [readRequest]
  cases readWhole readField 0x0f ⟨[], [], false, false⟩ data with
  | error status => simp [bind, Except.bind]
  | ok found =>
      change (if found.unsupportedOption then Except.error Refusal.unsupportedOption
        else if found.es256 then Except.ok found
        else Except.error Refusal.unsupportedAlgorithm) = Except.ok parsed ↔
          Except.ok found = Except.ok parsed ∧ _
      rw [Except.ok.injEq]
      constructor
      · intro accepted
        split at accepted
        · cases accepted
        · rename_i supported
          split at accepted
          · rename_i chosen
            cases accepted
            exact ⟨rfl, Bool.eq_false_iff.mpr supported, chosen⟩
          · cases accepted
      · rintro ⟨rfl, supported, chosen⟩
        rw [supported, chosen]
        rfl

/-- A request is accepted if and only if it is spelled by the grammar, and what is parsed is what
its entries mean. -/
theorem registration_accepted_iff (data : List UInt8) (small : data.length ≤ maxBytes)
    (parsed : Request) :
    readRequest data = .ok parsed ↔
      ∃ entries, IsRequestMap entries data ∧ IsRequest entries parsed := by
  rw [readRequest_ok, readWhole_iff readField_parses _ _ _ small]
  constructor
  · rintro ⟨⟨entries, map, once, needed, folds⟩, checks⟩
    exact ⟨entries, map, (folds_request once parsed).mp ⟨needed, folds, checks⟩⟩
  · rintro ⟨entries, map, request⟩
    rcases (folds_request request.keys parsed).mpr request with ⟨needed, folds, checks⟩
    exact ⟨⟨entries, map, request.keys, needed, folds⟩, checks⟩

def plainRequest : List UInt8 :=
  [0xa4, 0x01, 0x58, 0x20] ++ List.replicate 32 0x05 ++
    [0x02, 0xa1, 0x62, 0x69, 0x64, 0x61, 0x61, 0x03, 0xa1, 0x62, 0x69, 0x64, 0x41, 0x01, 0x04, 0x81,
      0xa2, 0x63, 0x61, 0x6c, 0x67, 0x26, 0x64, 0x74, 0x79, 0x70, 0x65, 0x6a, 0x70, 0x75, 0x62, 0x6c,
      0x69, 0x63, 0x2d, 0x6b, 0x65, 0x79]

theorem plain_request_is_accepted :
    readRequest plainRequest = .ok ⟨[0x61], [], true, false⟩ ∧
      ∃ entries, IsRequestMap entries plainRequest ∧ IsRequest entries ⟨[0x61], [], true, false⟩ := by
  have read : readRequest plainRequest = .ok ⟨[0x61], [], true, false⟩ := by decide +kernel
  exact ⟨read, (registration_accepted_iff plainRequest (by decide) _).mp read⟩

end P4Key.Ctap.MakeCredential
