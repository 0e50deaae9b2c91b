import P4Key.Ctap.Presence

/-! Right before a key is made, wrapped or used, a command has looked for a cancellation.

Together with the granted wait this leaves a cancellation no gap but the one call itself. -/

namespace P4Key.Ctap

open Memory CallProgram

def UsesKey : Call → Prop
  | .p256Make => True
  | .credWrap _ _ => True
  | .p256SignHash _ _ => True
  | _ => False

/-- The wait was granted, and the last call has found no cancellation. -/
def Consented (cid : UInt32) (before : Calls) : Prop :=
  (⟨.pressWait cid, pressOk⟩ : Event Reply) ∈ before ∧
    ∃ front, before = front ++ [⟨.pressCancelled cid, false⟩]

def consentRule (cid : UInt32) (before : Calls) (event : Event Reply) : Prop :=
  UsesKey event.1 → Consented cid before

def Keyless (events : Calls) : Prop := ∀ event ∈ events, ¬UsesKey event.1

theorem Preliminary.keyless {events : Calls} (early : Preliminary events) : Keyless events := by
  rintro ⟨call, reply⟩ member used
  have kind := early _ member
  cases call with
  | p256Make => exact kind
  | credWrap _ _ => exact kind
  | p256SignHash _ _ => exact kind
  | _ => exact used

theorem Keyless.guarded {events : Calls} (keyless : Keyless events)
    (rule : Calls → Event Reply → Prop)
    (free : ∀ before event, ¬UsesKey event.1 → rule before event) : Guarded rule events :=
  guarded_of_forall rule events fun before event member => free before event (keyless event member)

variable {cid : UInt32}

theorem Keyless.consents {events : Calls} (keyless : Keyless events) (place : Calls → Calls) :
    Guarded (fun before => consentRule cid (place before)) events :=
  keyless.guarded _ fun _ _ unused used => absurd used unused

theorem GetAssertion.respond_keyless (rpHash : Bytes 32) (credentialId : List UInt8)
    (signature : Signature) (response : List UInt8) (responseCap : Nat) :
    Ensures anyReply [] (respond cid rpHash credentialId signature response responseCap)
      (fun events _ => Keyless events) := by
  simp only [respond, pressCancelled, Program.perform_bind, ensures_call, List.nil_append]
  intro first _
  cases first with
  | true => simp [Keyless, UsesKey]
  | false =>
      rcases putResponse credentialId (authData rpHash)
        (signature.bytes.toList.take signature.len) response responseCap with ⟨ok, built, len⟩
      cases ok with
      | false => simp [Keyless, UsesKey]
      | true =>
          simp only [Bool.false_eq_true, if_false, Bool.not_true, ensures_call]
          intro second _
          cases second <;> simp [Keyless, UsesKey]

theorem MakeCredential.respond_keyless (rpHash : Bytes 32) (keys : KeyPair)
    (credentialId : Bytes 100) (response : List UInt8) (responseCap : Nat) :
    Ensures anyReply [] (respond cid rpHash keys credentialId response responseCap)
      (fun events _ => Keyless events) := by
  simp only [respond, pressCancelled, Program.perform_bind, ensures_call, List.nil_append]
  intro first _
  cases first with
  | true => simp [Keyless, UsesKey]
  | false =>
      rcases putCose keys (authDataHead rpHash credentialId) with ⟨okCose, authData⟩
      cases okCose with
      | false => simp [Keyless, UsesKey]
      | true =>
          rcases putResponse authData response responseCap with ⟨ok, built, len⟩
          cases ok with
          | false => simp [Keyless, UsesKey]
          | true =>
              simp only [Bool.false_eq_true, if_false, Bool.not_true, ensures_call]
              intro second _
              cases second <;> simp [Keyless, UsesKey]

/-- The signature is the third call from the presence check on, and follows a look. -/
theorem GetAssertion.signAssertion_consents (parsed : Request) (rpHash : Bytes 32)
    (credentialId : List UInt8) (privateScalar : Bytes 32) (response : List UInt8)
    (responseCap : Nat) (granted : Calls)
    (wait : (⟨.pressWait cid, pressOk⟩ : Event Reply) ∈ granted) :
    Ensures anyReply []
      (signAssertion cid parsed rpHash credentialId privateScalar response responseCap)
      (fun events _ => Guarded (fun before => consentRule cid (granted ++ before)) events) := by
  simp only [signAssertion, pressCancelled, sha256Sum, p256SignHash, Program.perform_bind,
    ensures_call, List.nil_append]
  intro first _
  cases first with
  | true => simp [consentRule, UsesKey]
  | false =>
      simp only [Bool.false_eq_true, if_false, ensures_call]
      rintro ⟨hashError, digest⟩ _
      by_cases hashed : hashError = cryptoOk
      swap
      · simp [hashed, consentRule, UsesKey]
      simp only [hashed, ne_eq, not_true_eq_false, if_false, ensures_call]
      intro second _
      cases second with
      | true => simp [consentRule, UsesKey]
      | false =>
          simp only [Bool.false_eq_true, if_false, ensures_call]
          rintro ⟨signError, signature⟩ _
          have guarded : Guarded (fun before => consentRule cid (granted ++ before))
              ([⟨.pressCancelled cid, false⟩] ++
                [⟨.sha256Sum (signInput rpHash parsed.clientHash), (cryptoOk, digest)⟩] ++
                [⟨.pressCancelled cid, false⟩] ++
                [⟨.p256SignHash privateScalar digest, (signError, signature)⟩]) := by
            have here : Consented cid (granted ++ [⟨.pressCancelled cid, false⟩,
                ⟨.sha256Sum (signInput rpHash parsed.clientHash), (cryptoOk, digest)⟩,
                ⟨.pressCancelled cid, false⟩]) :=
              ⟨List.mem_append_left _ wait, granted ++ [⟨.pressCancelled cid, false⟩,
                ⟨.sha256Sum (signInput rpHash parsed.clientHash), (cryptoOk, digest)⟩], by simp⟩
            simpa [consentRule, UsesKey] using here
          split
          · exact guarded
          · refine (ensures_shift _ _).mpr ((respond_keyless rpHash credentialId signature response
              responseCap).imp ?_)
            intro events outcome keyless
            exact (guarded_append _ _ _).mpr ⟨guarded, keyless.consents _⟩

theorem MakeCredential.registerKey_consents (rpHash : Bytes 32) (response : List UInt8)
    (responseCap : Nat) (granted : Calls)
    (wait : (⟨.pressWait cid, pressOk⟩ : Event Reply) ∈ granted) :
    Ensures anyReply [] (registerKey cid rpHash response responseCap)
      (fun events _ => Guarded (fun before => consentRule cid (granted ++ before)) events) := by
  have look : ∀ front, Consented cid (granted ++ (front ++ [⟨.pressCancelled cid, false⟩])) :=
    fun front => ⟨List.mem_append_left _ wait, granted ++ front, by simp⟩
  simp only [registerKey, pressCancelled, p256Make, credWrap, Program.perform_bind, ensures_call,
    List.nil_append]
  intro first _
  cases first with
  | true => simp [consentRule, UsesKey]
  | false =>
      simp only [Bool.false_eq_true, if_false, ensures_call]
      rintro ⟨makeError, keys⟩ _
      have making : Consented cid (granted ++ [⟨.pressCancelled cid, false⟩]) := look []
      by_cases made : makeError = cryptoOk
      swap
      · simpa [made, consentRule, UsesKey] using making
      simp only [made, ne_eq, not_true_eq_false, if_false, ensures_call]
      intro second _
      cases second with
      | true => simpa [consentRule, UsesKey] using making
      | false =>
          simp only [Bool.false_eq_true, if_false, ensures_call]
          rintro ⟨wrapError, credentialId⟩ _
          have guarded : Guarded (fun before => consentRule cid (granted ++ before))
              ([⟨.pressCancelled cid, false⟩] ++ [⟨.p256Make, (cryptoOk, keys)⟩] ++
                [⟨.pressCancelled cid, false⟩] ++
                [⟨.credWrap rpHash keys.scalar, (wrapError, credentialId)⟩]) := by
            have wrapping := look [⟨.pressCancelled cid, false⟩, ⟨.p256Make, (cryptoOk, keys)⟩]
            simpa [consentRule, UsesKey] using ⟨making, wrapping⟩
          split
          · exact guarded
          · refine (ensures_shift _ _).mpr ((respond_keyless rpHash keys credentialId response
              responseCap).imp ?_)
            intro events outcome keyless
            exact (guarded_append _ _ _).mpr ⟨guarded, keyless.consents _⟩

theorem GetAssertion.assertCredential_consents (parsed : Request) (response : List UInt8)
    (responseCap : Nat) :
    Ensures anyReply [] (assertCredential cid parsed response responseCap)
      (fun events _ => Guarded (consentRule cid) events) := by
  have stopped : ∀ events : Calls, Preliminary events → Guarded (consentRule cid) events :=
    fun events early => early.keyless.consents id
  simp only [assertCredential, sha256Sum, Program.perform_bind, ensures_call, List.nil_append]
  rintro ⟨hashError, rpHash⟩ _
  by_cases hashed : hashError = cryptoOk
  swap
  · simp only [hashed, ne_eq, not_false_eq_true, if_true, Program.pure_eq, ensures_done]
    exact stopped _ (by simp [Preliminary])
  simp only [hashed, ne_eq, not_true_eq_false, if_false]
  refine (ensures_bind _ _ _).mpr ((ensures_shift _ _).mpr
    ((findCred_ensures rpHash parsed.allow).imp ?_))
  rintro opened result ⟨earlyOpen, -⟩
  have early : Preliminary ([⟨.sha256Sum parsed.rpId, (cryptoOk, rpHash)⟩] ++ opened) :=
    Preliminary.append (by simp [Preliminary]) earlyOpen
  rcases result with refusal | ⟨credentialId, privateScalar⟩
  · exact stopped _ early
  · refine (ensures_bind _ _ _).mpr ((ensures_shift _ _).mpr ((presenceStatus_ensures cid).imp ?_))
    rintro asked status ⟨earlyPresence, -, granted⟩
    have earlier := Preliminary.append early earlyPresence
    cases status with
    | error refusal => exact stopped _ earlier
    | ok _ =>
        have wait := List.mem_append_right
          ([⟨.sha256Sum parsed.rpId, (cryptoOk, rpHash)⟩] ++ opened) (granted rfl)
        refine (ensures_shift _ _).mpr ((signAssertion_consents parsed rpHash credentialId
          privateScalar response responseCap _ wait).imp ?_)
        intro events outcome guarded
        exact (guarded_append _ _ _).mpr ⟨stopped _ earlier, guarded⟩

theorem MakeCredential.register_consents (parsed : Request) (response : List UInt8)
    (responseCap : Nat) :
    Ensures anyReply [] (register cid parsed response responseCap)
      (fun events _ => Guarded (consentRule cid) events) := by
  have stopped : ∀ events : Calls, Preliminary events → Guarded (consentRule cid) events :=
    fun events early => early.keyless.consents id
  simp only [register, sha256Sum, Program.perform_bind, ensures_call, List.nil_append]
  rintro ⟨hashError, rpHash⟩ _
  by_cases hashed : hashError = cryptoOk
  swap
  · simp only [hashed, ne_eq, not_false_eq_true, if_true, Program.pure_eq, ensures_done]
    exact stopped _ (by simp [Preliminary])
  simp only [hashed, ne_eq, not_true_eq_false, if_false]
  refine (ensures_bind _ _ _).mpr ((ensures_shift _ _).mpr
    ((checkExclude_ensures rpHash parsed.exclude false).imp ?_))
  rintro opened result ⟨earlyOpen, -⟩
  have early : Preliminary ([⟨.sha256Sum parsed.rpId, (cryptoOk, rpHash)⟩] ++ opened) :=
    Preliminary.append (by simp [Preliminary]) earlyOpen
  cases result with
  | error refusal => exact stopped _ early
  | ok excluded =>
      refine (ensures_bind _ _ _).mpr ((ensures_shift _ _).mpr ((presenceStatus_ensures cid).imp ?_))
      rintro asked status ⟨earlyPresence, -, granted⟩
      have earlier := Preliminary.append early earlyPresence
      cases status with
      | error refusal => exact stopped _ earlier
      | ok _ =>
          simp only
          split
          · exact stopped _ earlier
          · have wait := List.mem_append_right
              ([⟨.sha256Sum parsed.rpId, (cryptoOk, rpHash)⟩] ++ opened) (granted rfl)
            refine (ensures_shift _ _).mpr ((registerKey_consents rpHash response responseCap _
              wait).imp ?_)
            intro events outcome guarded
            exact (guarded_append _ _ _).mpr ⟨stopped _ earlier, guarded⟩

theorem dispatch_consents (request response : List UInt8) (responseCap : Nat) :
    Ensures anyReply [] (dispatch cid request response responseCap)
      (fun events _ => Guarded (consentRule cid) events) := by
  have silent : Guarded (consentRule cid) [] := guarded_nil _
  have assertion : ∀ body memory cap, Ensures anyReply [] (getAssertion cid body memory cap)
      (fun events _ => Guarded (consentRule cid) events) := by
    intro body memory cap
    unfold getAssertion
    split
    · exact silent
    · cases GetAssertion.readRequest body with
      | error refusal => exact silent
      | ok parsed => exact GetAssertion.assertCredential_consents parsed memory cap
  have registration : ∀ body memory cap, Ensures anyReply [] (makeCredential cid body memory cap)
      (fun events _ => Guarded (consentRule cid) events) := by
    intro body memory cap
    unfold makeCredential
    split
    · exact silent
    · cases MakeCredential.readRequest body with
      | error refusal => exact silent
      | ok parsed => exact MakeCredential.register_consents parsed memory cap
  unfold dispatch
  split
  · exact silent
  split
  · exact silent
  cases request with
  | nil => exact silent
  | cons command body =>
      dsimp only
      split
      · exact (ensures_bind _ _ _).mpr (registration _ _ _)
      split
      · exact (ensures_bind _ _ _).mpr (assertion _ _ _)
      split
      · exact silent
      split
      · exact silent
      split <;> exact silent

end P4Key.Ctap
