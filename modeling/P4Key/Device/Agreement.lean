import P4Key.Cred.RoundTrip
import P4Key.Ctap.Presence
import P4Key.Device.Assertion
import P4Key.Device.Registration
import P4Key.Library.Linking

/-! Registration and assertion agree.

The id that a registration returned is signed for at its own RP by the key that
the registration returned, and is unknown at every other RP. -/

namespace P4Key.Device

open Memory CallProgram Cbor Ctap

variable {outside : Outside}

theorem link_calls {α : Type} {command : Command α} {events : List (Event Reply)} {value : α}
    (run : Execution (link command) events value) (sound : ∀ event ∈ events, Sound outside event) :
    ∃ calls, Execution command calls value ∧ Expansion body calls events ∧
      ∀ event ∈ calls, CommandSound outside event := by
  obtain ⟨calls, upper, expansion⟩ := execution_interpret run
  refine ⟨calls, upper, expansion, ?_⟩
  rintro ⟨call, reply⟩ member
  obtain ⟨before, segment, after, rfl, inside⟩ := expansion.of_mem member
  exact (ensures_iff _ _).mp (@body_sound outside [] call) segment reply inside fun event own =>
    sound event (List.mem_append_left _ (List.mem_append_right _ own))

theorem p256Make_linked {calls : List (Event Ctap.Reply)} {events : List (Event Reply)}
    (expansion : Expansion body calls events) {reply : Int × KeyPair}
    (made : ⟨.p256Make, reply⟩ ∈ calls) : (⟨.p256Make, reply⟩ : Event Reply) ∈ events := by
  obtain ⟨before, segment, after, rfl, inside⟩ := expansion.of_mem made
  cases inside with
  | call tail =>
      cases tail
      simp

theorem link_granted {α : Type} {command : Command α} {post : α → Prop}
    (holds : Ensures (Granted outside) [] command (fun _ value => post value))
    {events : List (Event Reply)} {value : α} (run : Execution (link command) events value)
    (granted : ∀ event ∈ events, Sound outside event ∧ Succeeds event) : post value := by
  have linked := ensures_interpret body (fun call before => body_succeeds call) command post [] holds
  exact (ensures_iff _ _).mp linked events value run granted

def attestationKinds : List Kind := [.map, .uint, .text, .uint, .bytes, .uint, .map]

def coseKinds : List Kind :=
  [.map, .uint, .uint, .uint, .int, .int, .uint, .int, .bytes, .int, .bytes]

def assertionKinds : List Kind :=
  [.map, .uint, .map, .text, .bytes, .text, .text, .uint, .bytes, .uint, .bytes]

theorem registration_and_assertion_agree (outside : Outside) (cid : UInt32)
    (request response : List UInt8) (responseCap : Nat) (backed : responseCap ≤ response.length)
    (events : List (Event Reply)) (outcome : Outcome)
    (run : Execution (link (makeCredential cid request response responseCap)) events outcome)
    (sound : ∀ event ∈ events, Sound outside event) (registered : outcome.code = .ok) :
    ∃ (parsed : MakeCredential.Request) (keys : KeyPair) (id : Bytes 100)
      (cose authData : List UInt8),
      MakeCredential.readRequest request = .ok parsed ∧
      ⟨.p256Make, (cryptoOk, keys)⟩ ∈ events ∧ IsKeyPair outside keys ∧
      decode coseKinds cose = some [.map 5, .uint 1, .uint 2, .uint 3, .int (-7), .int (-1), .uint 1,
        .int (-2), .bytes keys.x.toList, .int (-3), .bytes keys.y.toList] ∧
      authData = (outside.hash parsed.rpId).toList ++ [0x41] ++ zeros 4 ++ aaguid ++ [0x00, 0x64] ++
        id.toList ++ cose ∧ authData.length = 232 ∧
      outcome.responseLen = 244 ∧
      decode attestationKinds (outcome.response.take 244) = some [.map 3, .uint 1,
        .text MakeCredential.noneText, .uint 2, .bytes authData, .uint 3, .map 0] ∧
      ∀ (cid' : UInt32) (request' response' : List UInt8) (responseCap' : Nat)
        (parsed' : GetAssertion.Request), GetAssertion.readRequest request' = .ok parsed' →
        OnlyCredential parsed'.allow id.toList → 239 ≤ responseCap' → responseCap' ≤ 2048 →
        responseCap' ≤ response'.length → ∀ events' outcome',
        Execution (link (getAssertion cid' request' response' responseCap')) events' outcome' →
        (∀ event ∈ events', Sound outside event ∧ Succeeds event) →
          (outside.hash parsed'.rpId = outside.hash parsed.rpId →
            outcome'.code = .ok ∧ ∃ authData' signature,
              authData' = (outside.hash parsed'.rpId).toList ++ [0x01] ++ zeros 4 ∧
              decode assertionKinds (outcome'.response.take outcome'.responseLen) =
                some [.map 3, .uint 1, .map 2, .text idText, .bytes id.toList, .text typeText,
                  .text publicKeyText, .uint 2, .bytes authData', .uint 3, .bytes signature] ∧
              outside.verifies (keys.x, keys.y) (outside.hash (authData' ++ parsed'.clientHash))
                signature) ∧
          (outside.hash parsed'.rpId ≠ outside.hash parsed.rpId →
            outcome'.code = .refused .noCredentials) := by
  obtain ⟨calls, upper, expansion, commandSound⟩ := link_calls run sound
  obtain ⟨parsed, accepted, keys, id, made, pair, credential, len, space, memory⟩ :=
    (ensures_iff _ _).mp (@makeCredential_registers outside [] cid request response responseCap
      backed) calls outcome upper commandSound registered
  have authSize := MakeCredential.length_authDataBytes (outside.hash parsed.rpId) id keys.x keys.y
  have cose := decode_encodings _ (MakeCredential.coseItems_valid keys.x keys.y)
    (by rw [MakeCredential.length_cose]; decide)
  have attested := decode_encodings _ (MakeCredential.attestationItems_valid _ authSize)
    (by rw [MakeCredential.length_attestation _ authSize]; decide)
  refine ⟨parsed, keys, id, _, _, accepted, p256Make_linked expansion made, pair, cose, rfl,
    authSize, len, ?_, ?_⟩
  · have size : (encodings (MakeCredential.attestationItems (MakeCredential.authDataBytes
        (outside.hash parsed.rpId) id keys.x keys.y))).length = 244 :=
      MakeCredential.length_attestation _ authSize
    rw [memory, ← size, take_store _ _ (by rw [size]; exact space)]
    exact attested
  · intro cid' request' response' responseCap' parsed' accepted' only room small backed' events'
      outcome' run' granted
    have answers := link_granted (getAssertion_answers cid' request' response' id.toList responseCap'
      parsed' accepted' id.toList_length only room small backed') run' granted
    constructor
    · intro same
      rw [same] at answers ⊢
      obtain ⟨code, signature, verified, positive, short, len', memory'⟩ :=
        answers.1 keys.scalar credential
      have valid := GetAssertion.assertionItems_valid id.toList signature (outside.hash parsed.rpId)
        id.toList_length short
      have bound := GetAssertion.length_assertion id.toList signature (outside.hash parsed.rpId)
        id.toList_length short
      rw [pair.2] at verified
      refine ⟨code, _, signature, GetAssertion.authData_eq (outside.hash parsed.rpId), ?_, ?_⟩
      · rw [len', memory', take_store _ _ (by
          simp only [GetAssertion.responseMax] at bound
          omega)]
        exact decode_encodings _ valid (by
          simp only [GetAssertion.responseMax, maxBytes] at bound ⊢
          omega)
      · exact verified
    · intro differs
      rw [answers.2 (fun scalar credential' => differs (credential'.unique credential).1)]
      rfl

/-- A device whose hash is the front of its input, and whose signatures are the digest followed by
the public coordinate. -/
def sampleOutside : Outside where
  hash input := load 32 input 0
  publicKey scalar := (scalar, scalar)
  verifies key digest signature := signature = digest.toList ++ key.1.toList
  scheme := Cred.plainScheme
  root := Cred.plainRoot

def sampleKeys : KeyPair :=
  ⟨List.Vector.replicate 32 1, List.Vector.replicate 32 1, List.Vector.replicate 32 1⟩

def sampleReplies : (call : Call) → Reply call
  | .sha256Sum input => (cryptoOk, sampleOutside.hash input)
  | .pressWait _ => pressOk
  | .pressCancelled _ => false
  | .p256Make => (cryptoOk, sampleKeys)
  | .p256SignHash scalar digest =>
    (cryptoOk, ⟨load 72 (digest.toList ++ scalar.toList ++ zeros 8) 0, 64⟩)
  | .cred call => Cred.plainReplies call

theorem sampleReplies_granted (call : Call) :
    Sound sampleOutside ⟨call, sampleReplies call⟩ ∧ Succeeds ⟨call, sampleReplies call⟩ := by
  cases call with
  | sha256Sum input => exact ⟨fun _ => rfl, rfl⟩
  | pressWait cid => exact ⟨trivial, rfl⟩
  | pressCancelled cid => exact ⟨trivial, rfl⟩
  | p256Make => exact ⟨fun _ => ⟨by decide, rfl⟩, trivial⟩
  | p256SignHash scalar digest =>
      refine ⟨fun _ _ => ⟨Nat.succ_pos 63, Nat.le_add_right 64 8, ?_⟩, rfl⟩
      have size : (digest.toList ++ scalar.toList ++ zeros 8).length = 72 := by simp
      have whole : (load 72 (digest.toList ++ scalar.toList ++ zeros 8) 0).toList =
          digest.toList ++ scalar.toList ++ zeros 8 := by
        rw [load_toList _ _ _ (by rw [size]), slice, List.drop_zero, ← size, List.take_length]
      change List.take 64 (load 72 (digest.toList ++ scalar.toList ++ zeros 8) 0).toList =
        digest.toList ++ scalar.toList
      rw [whole]
      exact List.take_left' (by simp)
  | cred call => exact Cred.plainReplies_ideal call

def sampleRegistered : Outcome :=
  (link (makeCredential 5 sampleRegistration (zeros 300) 300)).value sampleReplies

theorem sampleRegistered_run :
    Execution (link (makeCredential 5 sampleRegistration (zeros 300) 300))
      ((link (makeCredential 5 sampleRegistration (zeros 300) 300)).trace sampleReplies)
      sampleRegistered := execution_value sampleReplies _

def registeredId : List UInt8 := slice sampleRegistered.response 65 100

def sampleSignedRequest (rp : UInt8) : List UInt8 :=
  [0xa3, 1, 0x61, rp, 2, 0x58, 32] ++ zeros 32 ++ [3, 0x81, 0xa2, 0x64] ++ typeText ++ [0x6a] ++
    publicKeyText ++ [0x62] ++ idText ++ [0x58, 100] ++ registeredId

def sampleAsserted (rp : UInt8) : Outcome :=
  (link (getAssertion 6 (sampleSignedRequest rp) (zeros 300) 300)).value sampleReplies

theorem sampleAsserted_run (rp : UInt8) :
    Execution (link (getAssertion 6 (sampleSignedRequest rp) (zeros 300) 300))
      ((link (getAssertion 6 (sampleSignedRequest rp) (zeros 300) 300)).trace sampleReplies)
      (sampleAsserted rp) := execution_value sampleReplies _

theorem sample_granted (command : Command Outcome) :
    ∀ event ∈ (link command).trace sampleReplies,
      Sound sampleOutside event ∧ Succeeds event := by
  let allowed := fun event => Sound sampleOutside event ∧ Succeeds event
  have granted : ∀ c, allowed ⟨c, sampleReplies c⟩ := sampleReplies_granted
  exact trace_allowed sampleReplies granted (link command)

set_option maxRecDepth 10000 in
theorem sampleSignedRequest_parsed : GetAssertion.readRequest (sampleSignedRequest 0x61) =
    .ok ⟨[0x61], zeros 32, [⟨registeredId, true⟩], false⟩ := by
  decide +kernel

set_option maxRecDepth 10000 in
theorem foreignRequest_parsed : GetAssertion.readRequest (sampleSignedRequest 0x62) =
    .ok ⟨[0x62], zeros 32, [⟨registeredId, true⟩], false⟩ := by
  decide +kernel

set_option maxRecDepth 10000 in
theorem sampleRegistered_decoded : decode attestationKinds (sampleRegistered.response.take 244) =
    some [.map 3, .uint 1, .text MakeCredential.noneText, .uint 2,
      .bytes (slice sampleRegistered.response 10 232), .uint 3, .map 0] := by
  decide +kernel

set_option maxRecDepth 10000 in
theorem sampleRegistration_accepted :
    MakeCredential.readRequest sampleRegistration = .ok ⟨[0x61], [], true, false⟩ := by
  decide +kernel

set_option maxRecDepth 10000 in
/-- The id is signed for at its RP by the key that was made, and is unknown at another RP. -/
theorem registered_id_is_signed_for :
    ((sampleAsserted 0x61).code = .ok ∧ ∃ authData signature,
      sampleOutside.verifies (sampleKeys.x, sampleKeys.y) (sampleOutside.hash (authData ++ zeros 32))
        signature) ∧
      (sampleAsserted 0x62).code = .refused .noCredentials := by
  obtain ⟨parsed, keys, id, cose, authData, accepted, made, -, -, layout, -, -, decoded, later⟩ :=
    registration_and_assertion_agree sampleOutside 5 sampleRegistration (zeros 300) 300 (by decide)
      _ _ sampleRegistered_run (fun event member => (sample_granted _ event member).1)
      (by decide +kernel)
  cases sampleRegistration_accepted.symm.trans accepted
  have told : (cryptoOk, keys) = sampleReplies .p256Make :=
    @trace_allowed _ _ _ (fun event => event.2 = sampleReplies event.1) sampleReplies
      (fun _ => rfl) _ _ made
  have own : keys = sampleKeys := (Prod.mk.inj told).2
  -- the id in the response is the id that the theorem speaks of
  have sameData : slice sampleRegistered.response 10 232 = authData := by
    rw [sampleRegistered_decoded] at decoded
    simp only [Option.some.injEq, List.cons.injEq, Item.bytes.injEq] at decoded
    exact decoded.2.2.2.2.1
  have sameId : id.toList = registeredId := by
    have field := slice_append ((sampleOutside.hash [0x61]).toList ++ [0x41] ++ zeros 4 ++
      aaguid ++ [0x00, 0x64]) id.toList cose 55 100 (by simp [aaguid]) (by simp)
    rw [← List.append_assoc, ← layout, ← sameData] at field
    rw [← field]
    decide +kernel
  have only : OnlyCredential [⟨registeredId, true⟩] id.toList := by
    rw [sameId]
    exact onlyCredential_singleton registeredId
  have answers := later 6 (sampleSignedRequest 0x61) (zeros 300) 300 _ sampleSignedRequest_parsed only
    (by decide) (by decide) (by decide) _ _ (sampleAsserted_run 0x61) (sample_granted _)
  have foreign := later 6 (sampleSignedRequest 0x62) (zeros 300) 300 _ foreignRequest_parsed only
    (by decide) (by decide) (by decide) _ _ (sampleAsserted_run 0x62) (sample_granted _)
  obtain ⟨code, authData', signature, -, -, verified⟩ := answers.1 rfl
  rw [own] at verified
  exact ⟨⟨code, authData', signature, verified⟩, foreign.2 (by decide)⟩

end P4Key.Device
