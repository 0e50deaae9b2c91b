import P4Key.Ctap.GetAssertion
import P4Key.Ctap.Requests

/-! The grammar of a getAssertion request. -/

namespace P4Key.Ctap.GetAssertion

open Cbor Grammar

def rpIdWord : Language UInt8 (List UInt8) := fun rpId word => textWord rpId word ∧ rpId ≠ []

structure IsRequest (entries : List Field) (parsed : Request) : Prop where
  keys : KeysOnce entries
  rpId : Held 1 rpIdWord entries parsed.rpId
  clientHash : Held 2 clientHashWord entries parsed.clientHash
  allow : HeldOr [] 3 (descList false) entries parsed.allow
  extensions : Every 4 ignoredMap entries
  options : Every 5 (supportedOptions upText false) entries
  pinAuth : Absent Prod.fst 6 entries
  pinProtocol : Absent Prod.fst 7 entries
  others : ∀ entry ∈ entries, 7 < entry.1 → Strict 0 entry.2
  supported : parsed.unsupportedOption = false

def asksUnsupported (entry : Field) (unsupported : Bool) : Prop :=
  if entry.1 = 5 then optionsMap upText false unsupported entry.2
  else if entry.1 = 6 then (∃ param, bytesWord param entry.2) ∧ unsupported = true
  else if entry.1 = 7 then (∃ protocol, uintWord protocol entry.2) ∧ unsupported = true
  else unsupported = false

def allowed (entry : Field) : Prop :=
  (entry.1 = 4 → ignoredMap entry.2) ∧ (entry.1 = 0 ∨ 7 < entry.1 → Strict 0 entry.2)

def fieldStep (entry : Field) (request next : Request) : Prop :=
  ((sets Prod.fst 1 (fun entry rpId => rpIdWord rpId entry.2) entry request.rpId next.rpId ∧
      sets Prod.fst 2 (fun entry hash => clientHashWord hash entry.2) entry request.clientHash
        next.clientHash) ∧
    sets Prod.fst 3 (fun entry allow => descList false allow entry.2) entry request.allow next.allow ∧
      ∃ up, asksUnsupported entry up ∧
        next.unsupportedOption = (request.unsupportedOption || up)) ∧ allowed entry

theorem readField_parses (key : Nat) (request : Request) :
    Parses (readField key request) (fun next word => fieldStep (key, word) request next) := by
  rcases request with ⟨rpId₀, hash₀, allow₀, unsupported₀⟩
  rw [readField]
  by_cases one : key = 1
  · subst one
    refine Exact.congr ((Parses.get getText_accepts .cborUnexpectedType).settle
      fun rpId => .settle_guard .invalidParameter (Request.mk rpId hash₀ allow₀ unsupported₀)) ?_
    rintro ⟨rpId, hash, allow, unsupported⟩ word
    simp [fieldStep, sets, asksUnsupported, allowed, rpIdWord]
    tauto
  rw [if_neg one]
  by_cases two : key = 2
  · subst two
    refine Exact.congr ((Parses.get getBytes_accepts .cborUnexpectedType).settle
      fun hash => .settle_guard .invalidParameter (Request.mk rpId₀ hash allow₀ unsupported₀)) ?_
    rintro ⟨rpId, hash, allow, unsupported⟩ word
    simp [fieldStep, sets, asksUnsupported, allowed, clientHashWord]
    tauto
  rw [if_neg two]
  by_cases three : key = 3
  · subst three
    refine Exact.congr ((readDescs_parses false).settle
      fun allow => .settle_ret (Request.mk rpId₀ hash₀ allow unsupported₀)) ?_
    rintro ⟨rpId, hash, allow, unsupported⟩ word
    simp [fieldStep, sets, asksUnsupported, allowed]
    tauto
  rw [if_neg three]
  by_cases four : key = 4
  · subst four
    refine Exact.congr (readIgnoredMap_parses.settle
      fun _ => .settle_ret (Request.mk rpId₀ hash₀ allow₀ unsupported₀)) ?_
    rintro ⟨rpId, hash, allow, unsupported⟩ word
    simp [fieldStep, sets, asksUnsupported, allowed]
    tauto
  rw [if_neg four]
  by_cases five : key = 5
  · subst five
    refine Exact.congr ((readOptions_parses false (by decide)).settle
      fun up => .settle_ret (Request.mk rpId₀ hash₀ allow₀ (unsupported₀ || up))) ?_
    rintro ⟨rpId, hash, allow, unsupported⟩ word
    simp [fieldStep, sets, asksUnsupported, allowed]
    tauto
  rw [if_neg five]
  by_cases six : key = 6
  · subst six
    refine Exact.congr ((Parses.get getBytes_accepts .cborUnexpectedType).settle
      fun _ => .settle_ret (Request.mk rpId₀ hash₀ allow₀ true)) ?_
    rintro ⟨rpId, hash, allow, unsupported⟩ word
    simp [fieldStep, sets, asksUnsupported, allowed]
    tauto
  rw [if_neg six]
  by_cases seven : key = 7
  · subst seven
    refine Exact.congr ((Parses.get getUint_accepts .cborUnexpectedType).settle
      fun _ => .settle_ret (Request.mk rpId₀ hash₀ allow₀ true)) ?_
    rintro ⟨rpId, hash, allow, unsupported⟩ word
    simp [fieldStep, sets, asksUnsupported, allowed]
    tauto
  rw [if_neg seven]
  refine Exact.congr ((Parses.get skip_accepts .invalidCbor).settle
    fun _ => .settle_ret (Request.mk rpId₀ hash₀ allow₀ unsupported₀)) ?_
  rintro ⟨rpId, hash, allow, unsupported⟩ word
  have far : key = 0 ∨ 7 < key := by omega
  simp [fieldStep, sets, asksUnsupported, allowed, one, two, three, four, five, six, seven, far]
  tauto

theorem folds_parts (entries : List Field) (request last : Request) :
    Folds fieldStep entries request last ↔
      ((Folds (sets Prod.fst 1 fun entry rpId => rpIdWord rpId entry.2) entries request.rpId last.rpId ∧
          Folds (sets Prod.fst 2 fun entry hash => clientHashWord hash entry.2) entries
            request.clientHash last.clientHash) ∧
        Folds (sets Prod.fst 3 fun entry allow => descList false allow entry.2) entries request.allow
            last.allow ∧
          Folds (fun entry flag next => ∃ up, asksUnsupported entry up ∧ next = (flag || up)) entries
            request.unsupportedOption last.unsupportedOption) ∧ ∀ entry ∈ entries, allowed entry := by
  have names := folds_prod (sets Prod.fst 1 fun (entry : Field) rpId => rpIdWord rpId entry.2)
    (sets Prod.fst 2 fun (entry : Field) hash => clientHashWord hash entry.2) entries
    (request.rpId, request.clientHash) (last.rpId, last.clientHash)
  have lists := folds_prod (sets Prod.fst 3 fun (entry : Field) allow => descList false allow entry.2)
    (fun entry flag next => ∃ up, asksUnsupported entry up ∧ next = (flag || up)) entries
    (request.allow, request.unsupportedOption) (last.allow, last.unsupportedOption)
  rw [← names, ← lists]
  refine Iff.trans (folds_where _ allowed entries request last) (and_congr_left fun _ => ?_)
  refine folds_split (f := fun request => (request.rpId, request.clientHash))
    (g := fun request => (request.allow, request.unsupportedOption))
    (fun first second => Request.mk first.1 first.2 second.1 second.2) (fun _ _ => rfl)
    (fun _ _ => rfl) (fun _ => rfl) ?_ entries request last
  intro entry state next
  rfl

theorem asksUnsupported_false (entry : Field) :
    asksUnsupported entry false ↔
      (entry.1 = 5 → supportedOptions upText false entry.2) ∧ entry.1 ≠ 6 ∧ entry.1 ≠ 7 := by
  rw [asksUnsupported]
  by_cases five : entry.1 = 5
  · rw [if_pos five, supportedOptions_iff false (by decide), five]
    simp
  rw [if_neg five]
  by_cases six : entry.1 = 6
  · simp [six]
  rw [if_neg six]
  by_cases seven : entry.1 = 7
  · simp [seven]
  · simp [five, six, seven]

theorem entries_allowed {entries : List Field} (zero : Absent Prod.fst 0 entries) :
    ((∀ entry ∈ entries, asksUnsupported entry false) ∧ ∀ entry ∈ entries, allowed entry) ↔
      Every 4 ignoredMap entries ∧ Every 5 (supportedOptions upText false) entries ∧
        Absent Prod.fst 6 entries ∧ Absent Prod.fst 7 entries ∧
        ∀ entry ∈ entries, 7 < entry.1 → Strict 0 entry.2 := by
  rw [absent_iff] at zero
  simp only [asksUnsupported_false, allowed, Every, absent_iff]
  constructor
  · rintro ⟨asked, allowed⟩
    exact ⟨fun entry member => (allowed entry member).1, fun entry member => (asked entry member).1,
      fun entry member => (asked entry member).2.1, fun entry member => (asked entry member).2.2,
      fun entry member far => (allowed entry member).2 (Or.inr far)⟩
  · rintro ⟨extensions, options, six, seven, others⟩
    refine ⟨fun entry member => ⟨options entry member, six entry member, seven entry member⟩,
      fun entry member => ⟨extensions entry member, ?_⟩⟩
    rintro (none | far)
    · exact absurd none (zero entry member)
    · exact others entry member far

theorem folds_request {entries : List Field} (once : KeysOnce entries) (parsed : Request) :
    (∀ key ∈ keysSeen 0x03, ¬ Absent Prod.fst key entries) ∧
        Folds fieldStep entries ⟨[], [], [], false⟩ parsed ∧ parsed.unsupportedOption = false ↔
      IsRequest entries parsed := by
  have needed : ∀ key, key ∈ keysSeen 0x03 ↔ 0 < key ∧ key ≤ 2 :=
    fun key => mem_keysSeen_low rfl (by decide)
  rcases parsed with ⟨rpId, hash, allow, unsupported⟩
  simp only [needed, folds_parts, once.folds_sets (show 1 ≤ 32 by decide),
    once.folds_sets (show 2 ≤ 32 by decide), once.folds_sets (show 3 ≤ 32 by decide)]
  constructor
  · rintro ⟨required, ⟨⟨⟨rpId, hash⟩, allow, flags⟩, allowed⟩, rfl⟩
    rw [folds_raised] at flags
    have conditions := (entries_allowed once.zero).mp ⟨flags.2, allowed⟩
    exact {
      keys := once
      rpId := rpId.held (required 1 (by decide))
      clientHash := hash.held (required 2 (by decide))
      allow := allow
      extensions := conditions.1
      options := conditions.2.1
      pinAuth := conditions.2.2.1
      pinProtocol := conditions.2.2.2.1
      others := conditions.2.2.2.2
      supported := rfl }
  · intro request
    have supported : unsupported = false := request.supported
    subst supported
    have conditions := (entries_allowed once.zero).mpr ⟨request.extensions, request.options,
      request.pinAuth, request.pinProtocol, request.others⟩
    refine ⟨?_, ⟨⟨⟨Or.inr request.rpId, Or.inr request.clientHash⟩, request.allow,
      (folds_raised _ _ _).mpr ⟨rfl, conditions.1⟩⟩, conditions.2⟩, rfl⟩
    intro key bounds
    have cases' : key = 1 ∨ key = 2 := by omega
    rcases cases' with rfl | rfl
    · exact request.rpId.present
    · exact request.clientHash.present

theorem readRequest_ok (data : List UInt8) (parsed : Request) :
    readRequest data = .ok parsed ↔
      readWhole readField 0x03 ⟨[], [], [], false⟩ data = .ok parsed ∧
        parsed.unsupportedOption = false := by
  rw [readRequest]
  cases readWhole readField 0x03 ⟨[], [], [], false⟩ data with
  | error status => simp [bind, Except.bind]
  | ok found =>
      change (if found.unsupportedOption then Except.error Refusal.unsupportedOption
        else Except.ok found) = Except.ok parsed ↔ Except.ok found = Except.ok parsed ∧ _
      rw [Except.ok.injEq]
      constructor
      · intro accepted
        split at accepted
        · cases accepted
        · rename_i supported
          cases accepted
          exact ⟨rfl, Bool.eq_false_iff.mpr supported⟩
      · rintro ⟨rfl, supported⟩
        rw [supported]
        rfl

theorem IsRequest.accepted {entries : List Field} {parsed : Request} (request : IsRequest entries parsed)
    {data : List UInt8} (map : IsRequestMap entries data) (small : data.length ≤ maxBytes) :
    readRequest data = .ok parsed := by
  rw [readRequest_ok, readWhole_iff readField_parses _ _ _ small]
  rcases (folds_request request.keys parsed).mpr request with ⟨needed, folds, supported⟩
  exact ⟨⟨entries, map, request.keys, needed, folds⟩, supported⟩

/-- A request is accepted if and only if it is spelled by the grammar, and what is parsed is what
its entries mean. -/
theorem assertion_accepted_iff (data : List UInt8) (small : data.length ≤ maxBytes)
    (parsed : Request) :
    readRequest data = .ok parsed ↔
      ∃ entries, IsRequestMap entries data ∧ IsRequest entries parsed := by
  constructor
  · rw [readRequest_ok, readWhole_iff readField_parses _ _ _ small]
    rintro ⟨⟨entries, map, once, needed, folds⟩, supported⟩
    exact ⟨entries, map, (folds_request once parsed).mp ⟨needed, folds, supported⟩⟩
  · rintro ⟨entries, map, request⟩
    exact request.accepted map small

def reversedRequest : List UInt8 :=
  [0xa2, 0x02, 0x58, 0x20] ++ List.replicate 32 0x05 ++ [0x01, 0x61, 0x61]

theorem reversed_request_is_accepted :
    readRequest reversedRequest = .ok ⟨[0x61], List.replicate 32 0x05, [], false⟩ ∧
      ∃ entries, IsRequestMap entries reversedRequest ∧
        IsRequest entries ⟨[0x61], List.replicate 32 0x05, [], false⟩ := by
  have read : readRequest reversedRequest = .ok ⟨[0x61], List.replicate 32 0x05, [], false⟩ := by
    decide
  exact ⟨read, (assertion_accepted_iff reversedRequest (by decide) _).mp read⟩

end P4Key.Ctap.GetAssertion
