import P4Key.Ctap.Presence

/-! The exclude list says nothing before consent.

A run makes the same calls whether or not an entry opens, and without consent it
ends in the same way. Only behind a granted presence check does the result tell
whether the device knows one of the entries. -/

namespace P4Key.Ctap

open Memory CallProgram

namespace MakeCredential

/-- The entries that `check_exclude` hands to `cred_open`. -/
def eligible (item : Desc) : Bool := item.publicKey && decide (item.id.length = credIdLen)

def tried (rpHash : Bytes 32) (items : List Desc) : List Call :=
  (items.filter eligible).map (fun item => .credOpen rpHash item.id)

/-- `cred_open` knows the entry or does not; it reports no other error. -/
def Settled : Event Reply → Prop
  | ⟨.credOpen _ _, (error, _)⟩ => error = credOk ∨ error = credErrMismatch
  | _ => True

theorem checkExclude_tries (rpHash : Bytes 32) (items : List Desc) (excluded : Bool) :
    Ensures Settled [] (checkExclude rpHash items excluded) (fun events result =>
      events.map Sigma.fst = tried rpHash items ∧
      ∃ found, result = .ok found ∧ (found = false ↔ excluded = false ∧ NoOpen events)) := by
  induction items generalizing excluded with
  | nil => exact ⟨rfl, excluded, rfl, by simp [NoOpen]⟩
  | cons item rest ih =>
      rw [checkExclude]
      split
      · rename_i skipped
        have ineligible : eligible item = false := by
          simpa [eligible, ← Bool.not_eq_true, ← imp_iff_not_or] using skipped
        simpa only [tried, List.filter_cons, ineligible, Bool.false_eq_true, if_false] using
          ih excluded
      · rename_i used
        have chosen : eligible item = true := by
          simpa [eligible, not_or] using used
        have calls : tried rpHash (item :: rest) =
            .credOpen rpHash item.id :: tried rpHash rest := by
          simp only [tried, List.filter_cons, chosen, if_true, List.map_cons]
        rw [calls]
        simp only [credOpen, Program.perform_bind, ensures_call, List.nil_append]
        rintro ⟨error, scalar⟩ settled
        by_cases ok : error = credOk
        · subst ok
          rw [if_pos rfl]
          refine (ensures_shift _ _).mpr ((ih true).imp ?_)
          rintro events result ⟨same, found, rfl, opened⟩
          have known : found = true := by simpa using opened
          refine ⟨by simp [same], found, rfl, ?_⟩
          subst known
          constructor
          · intro impossible
            cases impossible
          · rintro ⟨-, none⟩
            exact absurd List.mem_cons_self (none rpHash item.id scalar)
        · have missed : error = credErrMismatch := settled.resolve_left ok
          rw [if_neg ok, if_neg (by simpa using missed)]
          refine (ensures_shift _ _).mpr ((ih excluded).imp ?_)
          rintro events result ⟨same, found, rfl, opened⟩
          refine ⟨by simp [same], found, rfl, ?_⟩
          rw [opened]
          simp [NoOpen, Ne.symm ok]

def presenceResult (result : Int) : Except Refusal Unit :=
  if result = pressOk then .ok ()
  else if result = pressCancel then .error .keepaliveCancel
  else if result = pressTimeout then .error .userActionTimeout
  else .error .operationDenied

theorem presenceStatus_eq (cid : UInt32) :
    presenceStatus cid = .call (.pressWait cid) (fun result => .done (presenceResult result)) := rfl

theorem presenceResult_ok (result : Int) : presenceResult result = .ok () ↔ result = pressOk := by
  unfold presenceResult
  by_cases granted : result = pressOk
  · simp [granted]
  · rw [if_neg granted]
    constructor
    · intro impossible
      split at impossible
      · cases impossible
      · split at impossible <;> cases impossible
    · intro ok
      exact absurd ok granted

def asks : Call → Bool
  | .credOpen _ _ => true
  | .pressWait _ => true
  | _ => false

def asked (events : Calls) : List Call := (events.map Sigma.fst).filter asks

def NoKey (events : Calls) : Prop := ∀ reply, (⟨.p256Make, reply⟩ : Event Reply) ∉ events

def Quiet (events : Calls) : Prop := ∀ event ∈ events, asks event.1 = false

theorem Quiet.asked {events : Calls} (quiet : Quiet events) : asked events = [] := by
  rw [MakeCredential.asked, List.filter_eq_nil_iff]
  intro call member
  obtain ⟨event, present, rfl⟩ := List.mem_map.mp member
  simp [quiet event present]

theorem Quiet.of_late {events : Calls} (late : ∀ event ∈ events, ¬ Early event.1) :
    Quiet events := by
  rintro ⟨call, reply⟩ member
  have kind := late _ member
  cases call with
  | credOpen rpHash id => exact absurd trivial kind
  | pressWait cid => exact absurd trivial kind
  | _ => rfl

structure Concluded (response : List UInt8) (excluded : Bool) (result : Int) (rest : Calls)
    (outcome : Outcome) : Prop where
  quiet : Quiet rest
  denied : ∀ refusal, presenceResult result = .error refusal → outcome = .stop refusal response
  granted : result = pressOk →
    ((outcome.code = .refused .credentialExcluded ∧ NoKey rest) ↔ excluded = true)

/-- A run after the request is parsed: no hash, or every eligible entry tried and the user asked. -/
inductive Registration (cid : UInt32) (parsed : Request) (response : List UInt8) :
    Calls → Outcome → Prop where
  | unhashed (error : Int) (rpHash : Bytes 32) : error ≠ cryptoOk →
      Registration cid parsed response [⟨.sha256Sum parsed.rpId, (error, rpHash)⟩]
        (.stop .other response)
  | answered (rpHash : Bytes 32) (opens : Calls) (excluded : Bool) (result : Int) (rest : Calls)
      (outcome : Outcome) :
      opens.map Sigma.fst = tried rpHash parsed.exclude →
      (excluded = false ↔ NoOpen opens) →
      Concluded response excluded result rest outcome →
      Registration cid parsed response
        (⟨.sha256Sum parsed.rpId, (cryptoOk, rpHash)⟩ ::
          (opens ++ ⟨.pressWait cid, result⟩ :: rest)) outcome

theorem register_registration (cid : UInt32) (parsed : Request) (response : List UInt8)
    (responseCap : Nat) :
    Ensures Settled [] (register cid parsed response responseCap)
      (Registration cid parsed response) := by
  simp only [register, sha256Sum, Program.perform_bind, ensures_call, List.nil_append]
  rintro ⟨hashError, rpHash⟩ _
  by_cases hashed : hashError = cryptoOk
  swap
  · simp only [ne_eq, hashed, not_false_eq_true, if_true, Program.pure_eq, ensures_done]
    exact .unhashed hashError rpHash hashed
  subst hashed
  simp only [ne_eq, not_true_eq_false, if_false]
  refine (ensures_bind _ _ _).mpr ((ensures_shift _ _).mpr
    ((checkExclude_tries rpHash parsed.exclude false).imp ?_))
  rintro opens _ ⟨calls, excluded, rfl, none⟩
  have none : excluded = false ↔ NoOpen opens := by simpa using none
  simp only [presenceStatus_eq, Program.call_bind, ensures_call]
  intro result _
  have whole : ∀ rest outcome, Concluded response excluded result rest outcome →
      Registration cid parsed response
        ([⟨.sha256Sum parsed.rpId, (cryptoOk, rpHash)⟩] ++ opens ++
          [⟨.pressWait cid, result⟩] ++ rest) outcome := by
    intro rest outcome concluded
    simpa using @Registration.answered cid parsed response rpHash opens excluded result rest outcome
      calls none concluded
  refine (ensures_shift _ _).mpr (Ensures.imp ?_ whole)
  cases status : presenceResult result with
  | error refusal =>
      refine ⟨by simp [Quiet], ?_, ?_⟩
      · intro same equal
        rw [status] at equal
        cases equal
        rfl
      · intro granted
        rw [(presenceResult_ok result).mpr granted] at status
        cases status
  | ok _ =>
      have willing : ∀ refusal, presenceResult result ≠ .error refusal := by
        intro refusal equal
        rw [status] at equal
        cases equal
      cases excluded with
      | true =>
          refine ⟨by simp [Quiet], fun refusal equal => absurd equal (willing refusal), ?_⟩
          intro _
          exact ⟨fun _ => rfl, fun _ => ⟨rfl, by simp [NoKey]⟩⟩
      | false =>
          refine ((registerKey_ensures cid rpHash response responseCap).strengthen
            fun _ _ => trivial).imp ?_
          intro rest outcome registered
          refine ⟨.of_late registered.late, fun refusal equal => absurd equal (willing refusal), ?_⟩
          intro _
          exact ⟨fun refused => absurd refused.1 registered.unexcluded,
            fun impossible => by cases impossible⟩

/-- Equal replies, except that `cred_open` may answer either way. -/
def SameButOpen : (c : Call) → Reply c → Reply c → Prop
  | .credOpen _ _, _, _ => True
  | _, reply, reply' => reply = reply'

theorem asked_registration {rpHash : Bytes 32} {items : List Desc} {opens rest : Calls}
    (calls : opens.map Sigma.fst = tried rpHash items) (quiet : Quiet rest) (input : List UInt8)
    (hash : Int × Bytes 32) (cid : UInt32) (result : Int) :
    asked (⟨.sha256Sum input, hash⟩ :: (opens ++ ⟨.pressWait cid, result⟩ :: rest)) =
      tried rpHash items ++ [.pressWait cid] := by
  have all : asked opens = tried rpHash items := by
    rw [asked, calls, List.filter_eq_self]
    intro call member
    obtain ⟨item, -, rfl⟩ := List.mem_map.mp member
    rfl
  have front : asked (⟨.sha256Sum input, hash⟩ :: (opens ++ ⟨.pressWait cid, result⟩ :: rest)) =
      asked opens ++ .pressWait cid :: asked rest := by
    simp [asked, asks, List.filter_cons]
  rw [front, all, quiet.asked]

/-- Two runs that differ only in which entries open ask for the same, and without consent they
end in the same way. -/
theorem Registration.aligned {cid : UInt32} {parsed : Request} {response : List UInt8}
    {first second : Calls} {outcome outcome' : Outcome}
    (run : Registration cid parsed response first outcome)
    (run' : Registration cid parsed response second outcome')
    (aligned : Aligned SameButOpen first second) :
    asked first = asked second ∧ (asked first).count (.pressWait cid) ≤ 1 ∧
      ((⟨.pressWait cid, pressOk⟩ : Event Reply) ∉ first → outcome = outcome') := by
  cases run with
  | unhashed error rpHash failed =>
      cases run' with
      | unhashed error' rpHash' failed' => exact ⟨rfl, Nat.zero_le 1, fun _ => rfl⟩
      | answered rpHash' =>
          have same : (error, rpHash) = (cryptoOk, rpHash') := aligned.cons.1
          exact absurd (Prod.mk.inj same).1 failed
  | answered rpHash opens excluded result rest _ calls none concluded =>
      cases run' with
      | unhashed error' rpHash' failed' =>
          have same : (cryptoOk, rpHash) = (error', rpHash') := aligned.cons.1
          exact absurd (Prod.mk.inj same).1.symm failed'
      | answered rpHash' opens' excluded' result' rest' _ calls' none' concluded' =>
          have sameHash : (cryptoOk, rpHash) = (cryptoOk, rpHash') := aligned.cons.1
          obtain rfl : rpHash = rpHash' := (Prod.mk.inj sameHash).2
          have later := Aligned.drop (calls.trans calls'.symm) aligned.cons.2
          obtain rfl : result = result' := later.cons.1
          rw [asked_registration calls concluded.quiet, asked_registration calls' concluded'.quiet]
          refine ⟨rfl, ?_, ?_⟩
          · have untried : (tried rpHash parsed.exclude).count (.pressWait cid) = 0 := by
              simp [tried, List.count_eq_zero]
            simp [List.count_append, untried]
          · intro denied
            cases status : presenceResult result with
            | ok _ =>
                rw [(presenceResult_ok result).mp status] at denied
                exact absurd (by simp) denied
            | error refusal =>
                rw [concluded.denied refusal status, concluded'.denied refusal status]

def EntryOpened (parsed : Request) (events : Calls) : Prop :=
  ∃ item ∈ parsed.exclude, item.publicKey = true ∧ item.id.length = credIdLen ∧
    ∃ rpHash scalar, (⟨.credOpen rpHash item.id, (credOk, scalar)⟩ : Event Reply) ∈ events

theorem Registration.granted {cid : UInt32} {parsed : Request} {response : List UInt8}
    {events : Calls} {outcome : Outcome} (run : Registration cid parsed response events outcome)
    (consent : (⟨.pressWait cid, pressOk⟩ : Event Reply) ∈ events) :
    (outcome.code = .refused .credentialExcluded ∧ NoKey events) ↔ EntryOpened parsed events := by
  cases run with
  | unhashed error rpHash failed => simp at consent
  | answered rpHash opens excluded result rest _ calls none concluded =>
      have entry : ∀ event ∈ opens, ∃ item ∈ parsed.exclude, eligible item = true ∧
          event.1 = .credOpen rpHash item.id := by
        intro event member
        have present : event.1 ∈ tried rpHash parsed.exclude := by
          rw [← calls]
          exact List.mem_map_of_mem member
        obtain ⟨item, chosen, same⟩ := List.mem_map.mp present
        obtain ⟨listed, eligible⟩ := List.mem_filter.mp chosen
        exact ⟨item, listed, eligible, same.symm⟩
      have willing : result = pressOk := by
        simp only [List.mem_cons, List.mem_append] at consent
        rcases consent with impossible | member | same | member
        · cases impossible
        · obtain ⟨item, -, -, impossible⟩ := entry _ member
          cases impossible
        · cases same
          rfl
        · exact absurd (concluded.quiet _ member) Bool.true_eq_false.mp
      have unmade : NoKey (⟨.sha256Sum parsed.rpId, (cryptoOk, rpHash)⟩ ::
          (opens ++ ⟨.pressWait cid, result⟩ :: rest)) ↔ NoKey rest := by
        constructor
        · intro none reply member
          exact none reply (by simp [member])
        · intro none reply member
          simp only [List.mem_cons, List.mem_append] at member
          rcases member with impossible | member | impossible | member
          · cases impossible
          · obtain ⟨item, -, -, impossible⟩ := entry _ member
            cases impossible
          · cases impossible
          · exact none reply member
      rw [unmade, concluded.granted willing]
      constructor
      · intro known
        have opened : ¬ NoOpen opens := by
          rw [← none, known]
          decide
        simp only [NoOpen, not_forall, not_not] at opened
        obtain ⟨rpHash', id, scalar, member⟩ := opened
        obtain ⟨item, listed, usable, same⟩ := entry _ member
        cases same
        simp only [eligible, Bool.and_eq_true, decide_eq_true_eq] at usable
        exact ⟨item, listed, usable.1, usable.2, rpHash, scalar, by simp [member]⟩
      · rintro ⟨item, -, -, -, rpHash', scalar, member⟩
        have inside : (⟨.credOpen rpHash' item.id, (credOk, scalar)⟩ : Event Reply) ∈ opens := by
          simp only [List.mem_cons, List.mem_append] at member
          rcases member with impossible | member | impossible | member
          · cases impossible
          · exact member
          · cases impossible
          · exact absurd (concluded.quiet _ member) Bool.true_eq_false.mp
        cases excluded with
        | true => rfl
        | false => exact absurd inside (none.mp rfl rpHash' item.id scalar)

end MakeCredential

open MakeCredential

/-- With consent, the answer tells whether an entry of the request opened. -/
def RevealedBy (cid : UInt32) (request : List UInt8) (events : Calls) (outcome : Outcome) : Prop :=
  (⟨.pressWait cid, pressOk⟩ : Event Reply) ∈ events →
    ((outcome.code = .refused .credentialExcluded ∧ NoKey events) ↔
      ∃ parsed, readRequest request = .ok parsed ∧ EntryOpened parsed events)

/-- Two runs of a registration that differ only in which entries of the exclude list open. -/
theorem exclude_list_hidden_before_consent (cid : UInt32) (request response : List UInt8)
    (responseCap : Nat) (first second : Calls) (outcome outcome' : Outcome)
    (run : Execution (makeCredential cid request response responseCap) first outcome)
    (run' : Execution (makeCredential cid request response responseCap) second outcome')
    (settled : ∀ event ∈ first ++ second, Settled event)
    (aligned : Aligned SameButOpen first second) :
    asked first = asked second ∧ (asked first).count (.pressWait cid) ≤ 1 ∧
      ((⟨.pressWait cid, pressOk⟩ : Event Reply) ∉ first → outcome = outcome') ∧
      RevealedBy cid request first outcome ∧ RevealedBy cid request second outcome' := by
  have refused : ∀ final : Outcome,
      makeCredential cid request response responseCap = .done final →
      asked first = asked second ∧ (asked first).count (.pressWait cid) ≤ 1 ∧
        ((⟨.pressWait cid, pressOk⟩ : Event Reply) ∉ first → outcome = outcome') ∧
        RevealedBy cid request first outcome ∧ RevealedBy cid request second outcome' := by
    intro final same
    rw [same] at run run'
    cases run
    cases run'
    exact ⟨rfl, Nat.zero_le 1, fun _ => rfl, by simp [RevealedBy], by simp [RevealedBy]⟩
  by_cases small : responseCap < responseLen
  · exact refused ⟨.error .small, response, 0⟩ (by rw [makeCredential, if_pos small]; rfl)
  cases accepted : readRequest request with
  | error refusal =>
      exact refused (.stop refusal response) (by rw [makeCredential, if_neg small, accepted]; rfl)
  | ok parsed =>
      have same : makeCredential cid request response responseCap =
          register cid parsed response responseCap := by
        rw [makeCredential, if_neg small, accepted]
      have shaped := (ensures_iff _ _).mp (register_registration cid parsed response responseCap)
      rw [same] at run run'
      have whole : Registration cid parsed response first outcome :=
        shaped first outcome run (List.forall_mem_append.mp settled).1
      have whole' : Registration cid parsed response second outcome' :=
        shaped second outcome' run' (List.forall_mem_append.mp settled).2
      obtain ⟨sameCalls, once, denied⟩ := whole.aligned whole' aligned
      have revealed : ∀ events final, Registration cid parsed response events final →
          RevealedBy cid request events final := by
        intro events final shape consent
        rw [shape.granted consent]
        constructor
        · intro opened
          exact ⟨parsed, accepted, opened⟩
        · rintro ⟨parsed', accepted', opened⟩
          rw [accepted] at accepted'
          cases accepted'
          exact opened
      exact ⟨sameCalls, once, denied, revealed _ _ whole, revealed _ _ whole'⟩

def excludeReplies (error press : Int) : (c : Call) → Reply c
  | .credOpen _ _ => (error, List.Vector.replicate 32 0)
  | .pressWait _ => press
  | c => consentingReplies c

def sampleExcluding : List UInt8 :=
  [0xa5] ++ sampleRegistration.drop 1 ++ [5, 0x81, 0xa2, 0x64] ++ typeText ++ [0x6a] ++
    publicKeyText ++ [0x62] ++ idText ++ [0x58, 100] ++ zeros 100

def excludedRegistration : Command Outcome := makeCredential 5 sampleExcluding (zeros 300) 300

theorem excludeReplies_settled (error press : Int)
    (known : error = credOk ∨ error = credErrMismatch) (program : Command Outcome) :
    ∀ event ∈ program.trace (excludeReplies error press), Settled event := by
  apply trace_allowed
  intro c
  cases c with
  | credOpen rpHash id => exact known
  | _ => trivial

theorem excludeReplies_aligned (error error' press : Int) (program : Command Outcome) :
    Aligned SameButOpen (program.trace (excludeReplies error press))
      (program.trace (excludeReplies error' press)) := by
  apply aligned_trace
  intro c
  cases c with
  | credOpen rpHash id => trivial
  | _ => rfl

set_option maxRecDepth 10000 in
theorem timeout_hides_known_entry :
    (excludedRegistration.value (excludeReplies credOk pressTimeout) =
      excludedRegistration.value (excludeReplies credErrMismatch pressTimeout)) ∧
    (excludedRegistration.value (excludeReplies credOk pressOk)).code =
      .refused .credentialExcluded := by
  constructor
  · have hidden := exclude_list_hidden_before_consent 5 sampleExcluding (zeros 300) 300 _ _ _ _
      (execution_value (excludeReplies credOk pressTimeout) _)
      (execution_value (excludeReplies credErrMismatch pressTimeout) _)
      (List.forall_mem_append.mpr ⟨excludeReplies_settled credOk pressTimeout (by decide) _,
        excludeReplies_settled credErrMismatch pressTimeout (by decide) _⟩)
      (excludeReplies_aligned credOk credErrMismatch pressTimeout _)
    apply hidden.2.2.1
    have unasked : ∀ event ∈ excludedRegistration.trace (excludeReplies credOk pressTimeout),
        event ≠ ⟨.pressWait 5, pressOk⟩ := by
      apply trace_allowed
      intro c same
      cases c with
      | pressWait cid => simp [excludeReplies, pressTimeout, pressOk] at same
      | _ => cases same
    intro member
    exact unasked _ member rfl
  · decide +kernel

end P4Key.Ctap
