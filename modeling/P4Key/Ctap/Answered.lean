import P4Key.Ctap.Presence
import P4Key.Ctap.Responses

/-! What a successful assertion answers.

Its calls are fixed from the first to the last one, and the response holds what they returned: the
id that opened, the authenticator data that was hashed and the signature over that hash. -/

namespace P4Key.Ctap

open Memory CallProgram Cbor

namespace GetAssertion

def usable (item : Desc) : Bool := item.publicKey && decide (item.id.length = credIdLen)

def Missed (rpHash : Bytes 32) (items : List Desc) (events : Calls) : Prop :=
  List.Forall₂ (fun item event =>
      ∃ scalar, event = (⟨.credOpen rpHash item.id, (credErrMismatch, scalar)⟩ : Event Reply))
    (items.filter usable) events

/-- `find_cred` opens the first usable entry that opens, and every earlier one is a mismatch. -/
theorem findCred_first (rpHash : Bytes 32) (items : List Desc) :
    Ensures anyReply [] (findCred rpHash items) (fun events result =>
      ∀ id scalar, result = .ok (id, scalar) →
        ∃ earlier item later misses, items = earlier ++ item :: later ∧
          item.publicKey = true ∧ item.id.length = credIdLen ∧ item.id = id ∧
          Missed rpHash earlier misses ∧
          events = misses ++ [⟨.credOpen rpHash id, (credOk, scalar)⟩]) := by
  induction items with
  | nil =>
      intro id scalar impossible
      cases impossible
  | cons item rest ih =>
      rw [findCred]
      by_cases foreign : !item.publicKey ∨ item.id.length ≠ credIdLen
      · rw [if_pos foreign]
        have skipped : usable item = false := by
          rw [usable, Bool.and_eq_false_iff]
          simpa using foreign
        refine ih.imp fun events result found => ?_
        intro id scalar opened
        obtain ⟨earlier, first, later, misses, rfl, usable⟩ := found id scalar opened
        refine ⟨item :: earlier, first, later, misses, rfl, ?_⟩
        rw [Missed, List.filter_cons_of_neg (by simp [skipped])]
        exact usable
      · rw [if_neg foreign]
        simp only [not_or, Bool.not_eq_true', Bool.not_eq_false, ne_eq, not_not] at foreign
        simp only [credOpen, Program.perform_bind, ensures_call, List.nil_append]
        rintro ⟨error, scalar⟩ _
        by_cases ok : error = credOk
        · simp only [ok, if_true, Program.pure_eq, ensures_done]
          intro id scalar' same
          cases same
          exact ⟨[], item, rest, [], rfl, foreign.1, foreign.2, rfl, .nil, rfl⟩
        · simp only [if_neg ok]
          split
          · intro id scalar' impossible
            cases impossible
          · rename_i mismatch
            refine (ensures_shift _ _).mpr (ih.imp fun events result found => ?_)
            intro id scalar' opened
            obtain ⟨earlier, first, later, misses, rfl, key, size, same, missed, rfl⟩ :=
              found id scalar' opened
            rw [not_not] at mismatch
            subst mismatch
            refine ⟨item :: earlier, first, later, _ :: misses, rfl, key, size, same, ?_, rfl⟩
            rw [Missed, List.filter_cons_of_pos (by simp [usable, foreign])]
            exact .cons ⟨scalar, rfl⟩ missed

theorem assertion_ok_ne_stop {refusal : Refusal} {response : List UInt8} :
    (Outcome.stop refusal response).code ≠ .ok := by
  intro impossible
  cases impossible

def Signature.sent (signature : Signature) : List UInt8 := signature.bytes.toList.take signature.len

theorem Signature.length_sent (signature : Signature) (short : signature.len ≤ 72) :
    (Signature.sent signature).length = signature.len := by
  rw [Signature.sent, List.length_take, List.Vector.toList_length, Nat.min_eq_left short]

def signingCalls (cid : UInt32) (rpHash scalar digest : Bytes 32) (clientHash : List UInt8)
    (signature : Signature) : Calls :=
  [⟨.pressCancelled cid, false⟩,
    ⟨.sha256Sum (authData rpHash ++ clientHash), (cryptoOk, digest)⟩,
    ⟨.pressCancelled cid, false⟩,
    ⟨.p256SignHash scalar digest, (cryptoOk, signature)⟩,
    ⟨.pressCancelled cid, false⟩,
    ⟨.pressCancelled cid, false⟩]

def answer (rpHash : Bytes 32) (credentialId : List UInt8) (signature : Signature)
    (response : List UInt8) : Outcome :=
  let encoded := encodings (assertionItems credentialId (authData rpHash) (Signature.sent signature))
  ⟨.ok, store response 0 encoded, encoded.length⟩

section Signing

variable (cid : UInt32) (rpHash : Bytes 32) (credentialId : List UInt8)
  (size : credentialId.length = credIdLen) (response : List UInt8) (responseCap : Nat)
  (room : responseMax ≤ responseCap) (small : responseCap ≤ maxBytes)
  (backed : responseCap ≤ response.length)

include size room small backed

theorem respond_answers (signature : Signature) (short : signature.len ≤ 72) :
    Ensures anyReply [] (respond cid rpHash credentialId signature response responseCap)
      (fun events outcome => outcome.code = .ok →
        events = [⟨.pressCancelled cid, false⟩, ⟨.pressCancelled cid, false⟩] ∧
        outcome = answer rpHash credentialId signature response) := by
  have put := putResponse_eq credentialId (Signature.sent signature) rpHash size
    (by rw [Signature.length_sent signature short]; exact short) response responseCap room small
    backed
  rw [Signature.sent] at put
  simp only [respond, pressCancelled, put, Program.perform_bind, ensures_call, List.nil_append]
  intro first _
  cases first with
  | true => exact fun ok => absurd ok assertion_ok_ne_stop
  | false =>
      simp only [Bool.false_eq_true, if_false, Bool.not_true, ensures_call]
      intro second _
      cases second with
      | true => exact fun ok => absurd ok assertion_ok_ne_stop
      | false => exact fun _ => ⟨rfl, rfl⟩

theorem signAssertion_answers (parsed : Request) (client : parsed.clientHash.length = 32)
    (scalar : Bytes 32) :
    Ensures anyReply [] (signAssertion cid parsed rpHash credentialId scalar response responseCap)
      (fun events outcome => outcome.code = .ok → ∃ digest signature,
        0 < signature.len ∧ signature.len ≤ 72 ∧
        events = signingCalls cid rpHash scalar digest parsed.clientHash signature ∧
        outcome = answer rpHash credentialId signature response) := by
  simp only [signAssertion, pressCancelled, sha256Sum, p256SignHash, Program.perform_bind,
    ensures_call, List.nil_append]
  intro first _
  cases first with
  | true => exact fun ok => absurd ok assertion_ok_ne_stop
  | false =>
      simp only [Bool.false_eq_true, if_false, ensures_call]
      rintro ⟨hashError, digest⟩ _
      by_cases hashed : hashError = cryptoOk
      swap
      · simp only [ne_eq, hashed, not_false_eq_true, if_true, Program.pure_eq, ensures_done]
        exact fun ok => absurd ok assertion_ok_ne_stop
      subst hashed
      simp only [ne_eq, not_true_eq_false, if_false, ensures_call]
      intro second _
      cases second with
      | true => exact fun ok => absurd ok assertion_ok_ne_stop
      | false =>
          simp only [Bool.false_eq_true, if_false, ensures_call]
          rintro ⟨signError, signature⟩ _
          split
          · exact fun ok => absurd ok assertion_ok_ne_stop
          · rename_i good
            simp only [not_or, not_not] at good
            obtain ⟨rfl, positive, short⟩ := good
            refine (ensures_shift _ _).mpr ((respond_answers cid rpHash credentialId size response
              responseCap room small backed signature (by omega)).imp fun events outcome done => ?_)
            intro ok
            obtain ⟨rfl, rfl⟩ := done ok
            refine ⟨digest, signature, by omega, by omega, ?_, rfl⟩
            rw [signingCalls, ← signInput_eq rpHash parsed.clientHash client]
            rfl

end Signing

/-- What the run of an assertion that answers was: its calls and its outcome, in terms of the
parsed request and of what the functions returned. -/
structure AnsweredBy (cid : UInt32) (parsed : Request) (response : List UInt8) (rpHash : Bytes 32)
    (earlier : List Desc) (item : Desc) (scalar digest : Bytes 32) (signature : Signature)
    (events : Calls) (outcome : Outcome) : Prop where
  listed : ∃ later, parsed.allow = earlier ++ item :: later
  publicKey : item.publicKey = true
  idSize : item.id.length = credIdLen
  signatureSize : 0 < signature.len ∧ signature.len ≤ 72
  calls : ∃ misses, Missed rpHash earlier misses ∧
    events = ⟨.sha256Sum parsed.rpId, (cryptoOk, rpHash)⟩ ::
      (misses ++ ⟨.credOpen rpHash item.id, (credOk, scalar)⟩ :: ⟨.pressWait cid, pressOk⟩ ::
        signingCalls cid rpHash scalar digest parsed.clientHash signature)
  outcome : outcome = answer rpHash item.id signature response

theorem getAssertion_answers (cid : UInt32) (request response : List UInt8) (responseCap : Nat)
    (room : responseMax ≤ responseCap) (small : responseCap ≤ maxBytes)
    (backed : responseCap ≤ response.length) :
    Ensures anyReply [] (getAssertion cid request response responseCap) (fun events outcome =>
      outcome.code = .ok → ∃ parsed rpHash earlier item scalar digest signature,
        readRequest request = .ok parsed ∧
        AnsweredBy cid parsed response rpHash earlier item scalar digest signature events
          outcome) := by
  rw [getAssertion, if_neg (by omega)]
  cases accepted : readRequest request with
  | error refusal => exact fun ok => absurd ok assertion_ok_ne_stop
  | ok parsed =>
      have client := readRequest_clientHash request parsed accepted
      simp only [assertCredential, sha256Sum, Program.perform_bind, ensures_call, List.nil_append]
      rintro ⟨hashError, rpHash⟩ _
      by_cases hashed : hashError = cryptoOk
      swap
      · simp only [ne_eq, hashed, not_false_eq_true, if_true, Program.pure_eq, ensures_done]
        exact fun ok => absurd ok assertion_ok_ne_stop
      subst hashed
      simp only [ne_eq, not_true_eq_false, if_false]
      refine (ensures_bind _ _ _).mpr ((ensures_shift _ _).mpr
        ((findCred_first rpHash parsed.allow).imp fun events found opened => ?_))
      cases found with
      | error refusal => exact fun ok => absurd ok assertion_ok_ne_stop
      | ok pair =>
          obtain ⟨id, scalar⟩ := pair
          obtain ⟨earlier, item, later, misses, listed, key, size, rfl, missed, rfl⟩ :=
            opened id scalar rfl
          refine (ensures_bind _ _ _).mpr ((ensures_shift _ _).mpr
            ((presenceStatus_calls cid).imp fun asked status granted => ?_))
          cases status with
          | error refusal => exact fun ok => absurd ok assertion_ok_ne_stop
          | ok _ =>
              obtain ⟨reply, rfl, pressed⟩ := granted
              obtain rfl := pressed rfl
              refine (ensures_shift _ _).mpr ((signAssertion_answers cid rpHash item.id size response
                responseCap room small backed parsed client scalar).imp fun signing outcome done ok => ?_)
              obtain ⟨digest, signature, positive, short, rfl, rfl⟩ := done ok
              refine ⟨parsed, rpHash, earlier, item, scalar, digest, signature, rfl,
                ⟨later, listed⟩, key, size, ⟨positive, short⟩, ⟨misses, missed, ?_⟩, rfl⟩
              simp

def assertionKinds : List Kind :=
  [.map, .uint, .map, .text, .bytes, .text, .text, .uint, .bytes, .uint, .bytes]

theorem answer_decodes (rpHash : Bytes 32) (credentialId : List UInt8)
    (size : credentialId.length = credIdLen) (signature : Signature) (short : signature.len ≤ 72)
    (response : List UInt8) (backed : responseMax ≤ response.length) :
    decode assertionKinds ((answer rpHash credentialId signature response).response.take
        (answer rpHash credentialId signature response).responseLen) =
      some (assertionItems credentialId (authData rpHash) (Signature.sent signature)) ∧
    (answer rpHash credentialId signature response).responseLen ≤ responseMax := by
  have sent : (Signature.sent signature).length ≤ 72 := by
    rw [Signature.length_sent signature short]
    exact short
  have valid := assertionItems_valid credentialId (Signature.sent signature) rpHash size sent
  have bound := length_assertion credentialId (Signature.sent signature) rpHash size sent
  have fits : (encodings (assertionItems credentialId (authData rpHash)
      (Signature.sent signature))).length ≤ response.length := Nat.le_trans bound backed
  constructor
  · simp only [answer]
    rw [take_store _ _ fits]
    exact decode_encodings _ valid (Nat.le_trans bound (by decide))
  · exact bound

end GetAssertion

open GetAssertion in
/-- A successful assertion says exactly what was signed: its response decodes to the first id that
opened, to the authenticator data whose hash, taken together with the client data hash, was signed,
and to that signature. In this range of capacities `put_response` does not fail. -/
theorem assertion_answers_what_was_signed (cid : UInt32) (request response : List UInt8)
    (responseCap : Nat) (room : 239 ≤ responseCap) (small : responseCap ≤ 2048)
    (backed : responseCap ≤ response.length) :
    (∀ events outcome, Execution (getAssertion cid request response responseCap) events outcome →
      outcome.code = .ok →
      ∃ parsed rpHash earlier item scalar digest signature,
        readRequest request = .ok parsed ∧
        AnsweredBy cid parsed response rpHash earlier item scalar digest signature events outcome ∧
        authData rpHash = rpHash.toList ++ [0x01] ++ zeros 4 ∧
        decode assertionKinds (outcome.response.take outcome.responseLen) =
          some (assertionItems item.id (authData rpHash) (Signature.sent signature)) ∧
        outcome.responseLen ≤ 239) ∧
    ∀ credentialId rpHash signature, credentialId.length = credIdLen → signature.length ≤ 72 →
      (putResponse credentialId (authData rpHash) signature response responseCap).1 = true := by
  constructor
  · intro events outcome run ok
    have answers := (ensures_iff _ _).mp
      (getAssertion_answers cid request response responseCap room small backed) events outcome run
      (fun _ _ => trivial) ok
    obtain ⟨parsed, rpHash, earlier, item, scalar, digest, signature, accepted, answered⟩ := answers
    have decoded := answer_decodes rpHash item.id answered.idSize signature answered.signatureSize.2
      response (Nat.le_trans room backed)
    rw [← answered.outcome] at decoded
    exact ⟨parsed, rpHash, earlier, item, scalar, digest, signature, accepted, answered,
      authData_eq rpHash, decoded⟩
  · intro credentialId rpHash signature size short
    rw [putResponse_eq credentialId signature rpHash size short response responseCap room small
      backed]

open GetAssertion in
set_option maxRecDepth 10000 in
theorem sample_assertion_answered :
    ∃ parsed rpHash earlier item scalar digest signature,
      readRequest sampleAssertion = .ok parsed ∧
      AnsweredBy 5 parsed (zeros 300) rpHash earlier item scalar digest signature
        ((getAssertion 5 sampleAssertion (zeros 300) 300).trace consentingReplies)
        ((getAssertion 5 sampleAssertion (zeros 300) 300).value consentingReplies) := by
  have answers := (assertion_answers_what_was_signed 5 sampleAssertion (zeros 300) 300 (by decide)
    (by decide) (by decide)).1 _ _ (execution_value consentingReplies _) (by decide +kernel)
  obtain ⟨parsed, rpHash, earlier, item, scalar, digest, signature, accepted, answered, -⟩ := answers
  exact ⟨parsed, rpHash, earlier, item, scalar, digest, signature, accepted, answered⟩

end P4Key.Ctap
