import P4Key.Ctap.AssertionPresence
import P4Key.Ctap.RegistrationPresence
import P4Key.Ctap.Dispatch

/-! No credential is used without user presence.

The signing key of an assertion and the new key of a registration are reached
only behind a granted presence check, whatever the called functions return. -/

namespace P4Key.Ctap

open Memory CallProgram

theorem getAssertion_ensures (cid : UInt32) (request response : List UInt8) (responseCap : Nat) :
    Ensures anyReply [] (getAssertion cid request response responseCap) (fun events outcome =>
      Guarded (signRule cid request) events ∧
      (outcome.code = .ok → NotCancelled events ∧
        ∃ scalar digest signature,
          (⟨.p256SignHash scalar digest, (cryptoOk, signature)⟩ : Event Reply) ∈ events)) := by
  unfold getAssertion
  split
  · exact ⟨guarded_nil _, by intro impossible; cases impossible⟩
  · cases accepted : GetAssertion.readRequest request with
    | error refusal => exact ⟨guarded_nil _, by intro impossible; cases impossible⟩
    | ok parsed =>
        exact GetAssertion.assertCredential_ensures cid request parsed accepted response responseCap

theorem makeCredential_ensures (cid : UInt32) (request response : List UInt8) (responseCap : Nat) :
    Ensures anyReply [] (makeCredential cid request response responseCap) (fun events outcome =>
      Guarded (keyRule cid request) events ∧
      (outcome.code = .ok → NotCancelled events ∧
        ∃ rpHash keys id, (⟨.p256Make, (cryptoOk, keys)⟩ : Event Reply) ∈ events ∧
          (⟨.credWrap rpHash keys.scalar, (credOk, id)⟩ : Event Reply) ∈ events)) := by
  unfold makeCredential
  split
  · exact ⟨guarded_nil _, by intro impossible; cases impossible⟩
  · cases accepted : MakeCredential.readRequest request with
    | error refusal => exact ⟨guarded_nil _, by intro impossible; cases impossible⟩
    | ok parsed =>
        exact MakeCredential.register_ensures cid request parsed accepted response responseCap

theorem Answer.ofOutcome_ok (response : List UInt8) (outcome : Outcome)
    (accepted : (Answer.ofOutcome response outcome).error = none)
    (status : (Answer.ofOutcome response outcome).response.head? = some statusOk) :
    outcome.code = .ok := by
  unfold Answer.ofOutcome at accepted status
  cases code : outcome.code with
  | error error => simp [code] at accepted
  | ok => rfl
  | refused refusal =>
      simp only [code, Answer.refuse] at status
      exact absurd (head_store_zero _ _ _ status).symm refusal.code_ne_ok

/-- An answer with status OK comes from an execution of the command that succeeded. -/
theorem answered_ok (command : Command Outcome) (response : List UInt8) (events : Calls)
    (answer : Answer)
    (run : Execution (command >>= fun outcome => pure (Answer.ofOutcome response outcome)) events answer)
    (accepted : answer.error = none) (status : answer.response.head? = some statusOk) :
    ∃ outcome, Execution command events outcome ∧ outcome.code = .ok := by
  obtain ⟨before, after, outcome, rfl, first, last⟩ := execution_bind run
  cases last
  rw [List.append_nil]
  exact ⟨outcome, first, Answer.ofOutcome_ok response outcome accepted status⟩

theorem dispatch_getAssertion_ok (cid : UInt32) (body response : List UInt8) (responseCap : Nat)
    (events : Calls) (answer : Answer)
    (run : Execution (dispatch cid (cmdGetAssertion :: body) response responseCap) events answer)
    (accepted : answer.error = none) (status : answer.response.head? = some statusOk) :
    ∃ memory cap outcome, Execution (getAssertion cid body memory cap) events outcome ∧
      outcome.code = .ok := by
  unfold dispatch at run
  split at run
  · cases run
    cases accepted
  split at run
  · cases run
    cases accepted
  dsimp only at run
  rw [if_neg (by decide), if_pos rfl] at run
  exact ⟨_, _, answered_ok _ response events answer run accepted status⟩

theorem dispatch_makeCredential_ok (cid : UInt32) (body response : List UInt8) (responseCap : Nat)
    (events : Calls) (answer : Answer)
    (run : Execution (dispatch cid (cmdMakeCredential :: body) response responseCap) events answer)
    (accepted : answer.error = none) (status : answer.response.head? = some statusOk) :
    ∃ memory cap outcome, Execution (makeCredential cid body memory cap) events outcome ∧
      outcome.code = .ok := by
  unfold dispatch at run
  split at run
  · cases run
    cases accepted
  split at run
  · cases run
    cases accepted
  dsimp only at run
  rw [if_pos rfl] at run
  exact ⟨_, _, answered_ok _ response events answer run accepted status⟩

theorem getAssertion_presence (cid : UInt32) (request response : List UInt8) (responseCap : Nat)
    (events : Calls) (outcome : Outcome)
    (run : Execution (getAssertion cid request response responseCap) events outcome) :
    Guarded (signRule cid request) events ∧
    (outcome.code = .ok → NotCancelled events ∧
      ∃ scalar digest signature,
        (⟨.p256SignHash scalar digest, (cryptoOk, signature)⟩ : Event Reply) ∈ events) := by
  simpa using (ensures_iff _ _).mp (getAssertion_ensures cid request response responseCap)
    events outcome run (fun _ _ => trivial)

theorem makeCredential_presence (cid : UInt32) (request response : List UInt8) (responseCap : Nat)
    (events : Calls) (outcome : Outcome)
    (run : Execution (makeCredential cid request response responseCap) events outcome) :
    Guarded (keyRule cid request) events ∧
    (outcome.code = .ok → NotCancelled events ∧
      ∃ rpHash keys id, (⟨.p256Make, (cryptoOk, keys)⟩ : Event Reply) ∈ events ∧
        (⟨.credWrap rpHash keys.scalar, (credOk, id)⟩ : Event Reply) ∈ events) := by
  simpa using (ensures_iff _ _).mp (makeCredential_ensures cid request response responseCap)
    events outcome run (fun _ _ => trivial)

/-- A second signature would have the first one before it. -/
theorem noSignature_after {cid : UInt32} {request : List UInt8} {before after : Calls}
    {scalar digest : Bytes 32} {reply : Int × Signature}
    (guarded : Guarded (signRule cid request)
      (before ++ ⟨.p256SignHash scalar digest, reply⟩ :: after)) : NoSignature after := by
  intro scalar' digest' reply' member
  obtain ⟨middle, rest, rfl⟩ := List.append_of_mem member
  obtain ⟨_, _, _, -, -, -, -, -, -, -, fresh⟩ :=
    guarded (before ++ ⟨.p256SignHash scalar digest, reply⟩ :: middle)
      ⟨.p256SignHash scalar' digest', reply'⟩ rest (by simp)
  exact fresh scalar digest reply (by simp)

def KeyUse : Call → Prop
  | .p256Make => True
  | .credWrap _ _ => True
  | _ => False

/-- Credentials are used, and new ones made, only with the user present. -/
theorem credential_use_requires_presence (cid : UInt32) (request response : List UInt8)
    (responseCap : Nat) :
    (∀ events outcome, Execution (getAssertion cid request response responseCap) events outcome →
      ∀ before scalar digest reply after,
        events = before ++ ⟨.p256SignHash scalar digest, reply⟩ :: after →
          SignAuthorised cid request before scalar digest ∧ NoSignature after) ∧
    (∀ events outcome, Execution (makeCredential cid request response responseCap) events outcome →
      ∀ before event after, events = before ++ event :: after → KeyUse event.1 →
        KeyAuthorised cid request before) ∧
    (∀ events answer,
      Execution (dispatch cid (cmdGetAssertion :: request) response responseCap) events answer →
      answer.error = none → answer.response.head? = some statusOk →
        NotCancelled events ∧ ∃ before scalar digest reply after,
          events = before ++ ⟨.p256SignHash scalar digest, reply⟩ :: after ∧
          SignAuthorised cid request before scalar digest ∧ NoSignature after) ∧
    (∀ events answer,
      Execution (dispatch cid (cmdMakeCredential :: request) response responseCap) events answer →
      answer.error = none → answer.response.head? = some statusOk →
        NotCancelled events ∧ ∃ rpHash keys id,
          (⟨.p256Make, (cryptoOk, keys)⟩ : Event Reply) ∈ events ∧
          (⟨.credWrap rpHash keys.scalar, (credOk, id)⟩ : Event Reply) ∈ events ∧
          ∀ before event after, events = before ++ event :: after → KeyUse event.1 →
            KeyAuthorised cid request before) := by
  have keyUse : ∀ {events : Calls}, Guarded (keyRule cid request) events →
      ∀ before event after, events = before ++ event :: after → KeyUse event.1 →
        KeyAuthorised cid request before := by
    rintro events guarded before ⟨call, reply⟩ after split used
    have rule := guarded before _ after split
    cases call with
    | p256Make => exact rule
    | credWrap _ _ => exact rule
    | _ => exact absurd used id
  refine ⟨?_, ?_, ?_, ?_⟩
  · rintro events outcome run before scalar digest reply after rfl
    have guarded := (getAssertion_presence cid request response responseCap _ outcome run).1
    exact ⟨guarded before _ after rfl, noSignature_after guarded⟩
  · intro events outcome run
    exact keyUse (makeCredential_presence cid request response responseCap events outcome run).1
  · intro events answer run accepted status
    obtain ⟨memory, cap, outcome, command, ok⟩ :=
      dispatch_getAssertion_ok cid request response responseCap events answer run accepted status
    obtain ⟨guarded, success⟩ := getAssertion_presence cid request memory cap events outcome command
    obtain ⟨calm, scalar, digest, signature, member⟩ := success ok
    obtain ⟨before, after, rfl⟩ := List.append_of_mem member
    exact ⟨calm, before, scalar, digest, _, after, rfl, guarded before _ after rfl,
      noSignature_after guarded⟩
  · intro events answer run accepted status
    obtain ⟨memory, cap, outcome, command, ok⟩ :=
      dispatch_makeCredential_ok cid request response responseCap events answer run accepted status
    obtain ⟨guarded, success⟩ := makeCredential_presence cid request memory cap events outcome command
    obtain ⟨calm, rpHash, keys, id, made, wrapped⟩ := success ok
    exact ⟨calm, rpHash, keys, id, made, wrapped, keyUse guarded⟩

def consentingReplies : (c : Call) → Reply c
  | .sha256Sum _ => (cryptoOk, List.Vector.replicate 32 7)
  | .credOpen _ _ => (credOk, List.Vector.replicate 32 1)
  | .credWrap _ _ => (credOk, List.Vector.replicate 100 3)
  | .pressWait _ => pressOk
  | .pressCancelled _ => false
  | .p256Make => (cryptoOk, ⟨List.Vector.replicate 32 1, List.Vector.replicate 32 2, List.Vector.replicate 32 4⟩)
  | .p256SignHash _ _ => (cryptoOk, ⟨List.Vector.replicate 72 9, 70⟩)

def sampleAssertion : List UInt8 :=
  [0xa3, 1, 0x61, 0x61, 2, 0x58, 32] ++ zeros 32 ++ [3, 0x81, 0xa2, 0x64] ++ typeText ++ [0x6a] ++
    publicKeyText ++ [0x62] ++ idText ++ [0x58, 100] ++ zeros 100

def sampleRegistration : List UInt8 :=
  [0xa4, 1, 0x58, 32] ++ zeros 32 ++ [2, 0xa1, 0x62] ++ idText ++ [0x61, 0x61, 3, 0xa1, 0x62] ++
    idText ++ [0x41, 1, 4, 0x81, 0xa2, 0x64] ++ typeText ++ [0x6a] ++ publicKeyText ++ [0x63] ++
    algText ++ [0x26]

set_option maxRecDepth 10000 in
theorem credential_use_with_consent :
    (∃ before scalar digest reply after,
      (dispatch 5 (cmdGetAssertion :: sampleAssertion) (zeros 300) 300).trace consentingReplies =
        before ++ ⟨.p256SignHash scalar digest, reply⟩ :: after ∧
      SignAuthorised 5 sampleAssertion before scalar digest ∧ NoSignature after) ∧
    (∃ rpHash, ∃ keys : KeyPair, ∃ id,
      (⟨.credWrap rpHash keys.scalar, (credOk, id)⟩ : Event Reply) ∈
        (dispatch 5 (cmdMakeCredential :: sampleRegistration) (zeros 300) 300).trace
          consentingReplies) := by
  have assertion := (credential_use_requires_presence 5 sampleAssertion (zeros 300) 300).2.2.1 _ _
    (execution_value consentingReplies _) (by decide +kernel) (by decide +kernel)
  have registration := (credential_use_requires_presence 5 sampleRegistration (zeros 300) 300).2.2.2
    _ _ (execution_value consentingReplies _) (by decide +kernel) (by decide +kernel)
  refine ⟨assertion.2, ?_⟩
  obtain ⟨-, rpHash, keys, id, -, wrapped, -⟩ := registration
  exact ⟨rpHash, keys, id, wrapped⟩

end P4Key.Ctap
