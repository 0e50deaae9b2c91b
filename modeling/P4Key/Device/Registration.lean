import P4Key.Ctap.Responses
import P4Key.Device.Linked

/-! What a registration leaves behind when it succeeds. -/

namespace P4Key.Device

open Memory CallProgram Cbor Ctap Ctap.MakeCredential

variable {outside : Outside} {before : List (Event Ctap.Reply)}

def IsKeyPair (outside : Outside) (keys : KeyPair) : Prop :=
  Crypto.scalarValid keys.scalar.toList = true ∧ outside.publicKey keys.scalar = (keys.x, keys.y)

def Registered (outside : Outside) (rpHash : Bytes 32) (response : List UInt8)
    (events : List (Event Ctap.Reply)) (outcome : Outcome) : Prop :=
  ∃ keys : KeyPair, ∃ id : Bytes 100, ⟨.p256Make, (cryptoOk, keys)⟩ ∈ events ∧
    IsKeyPair outside keys ∧
    Cred.IsCredential outside.scheme outside.root rpHash keys.scalar id.toList ∧
    outcome.responseLen = responseLen ∧ responseLen ≤ response.length ∧
    outcome.response =
      store response 0 (encodings (attestationItems (authDataBytes rpHash id keys.x keys.y)))

theorem respond_registers (cid : UInt32) (rpHash : Bytes 32) (keys : KeyPair) (id : Bytes 100)
    (response : List UInt8) (responseCap : Nat) (room : responseLen ≤ responseCap)
    (backed : responseCap ≤ response.length) (made : ⟨.p256Make, (cryptoOk, keys)⟩ ∈ before)
    (pair : IsKeyPair outside keys)
    (credential : Cred.IsCredential outside.scheme outside.root rpHash keys.scalar id.toList) :
    Ensures (CommandSound outside) before
      (respond cid rpHash keys id response responseCap)
      (fun events outcome => outcome.code = .ok →
        Registered outside rpHash response events outcome) := by
  simp only [respond, Ctap.pressCancelled, Program.perform_bind, ensures_call]
  intro first _
  cases first with
  | true => exact fun impossible => by cases impossible
  | false =>
      simp only [Bool.false_eq_true, if_false, putCose_eq, Bool.not_true]
      have built := putResponse_ok (authDataBytes rpHash id keys.x keys.y) response responseCap
        (length_authDataBytes rpHash id keys.x keys.y) backed room
      rcases put : putResponse (authDataBytes rpHash id keys.x keys.y) response responseCap with
        ⟨ok, memory, len⟩
      cases ok with
      | false => exact fun impossible => by cases impossible
      | true =>
          rcases built memory len put with ⟨rfl, rfl⟩
          simp only [Bool.not_true, Bool.false_eq_true, if_false, ensures_call]
          intro second _
          cases second with
          | true => exact fun impossible => by cases impossible
          | false =>
              exact fun _ => ⟨keys, id, by simp [made], pair, credential, rfl, by omega, rfl⟩

theorem registerKey_registers (cid : UInt32) (rpHash : Bytes 32) (response : List UInt8)
    (responseCap : Nat) (room : responseLen ≤ responseCap)
    (backed : responseCap ≤ response.length) :
    Ensures (CommandSound outside) before (registerKey cid rpHash response responseCap)
      (fun events outcome => outcome.code = .ok →
        Registered outside rpHash response events outcome) := by
  simp only [registerKey, Ctap.pressCancelled, Ctap.p256Make, Ctap.credWrap, Program.perform_bind,
    ensures_call]
  intro first _
  cases first with
  | true => exact fun impossible => by cases impossible
  | false =>
      simp only [Bool.false_eq_true, if_false, ensures_call]
      intro made sound
      have pair : made.1 = cryptoOk → IsKeyPair outside made.2 := sound
      by_cases ok : made.1 = cryptoOk
      swap
      · simp only [ne_eq, ok, not_false_eq_true, if_true, Program.pure_eq, ensures_done]
        exact fun impossible => by cases impossible
      simp only [ne_eq, ok, not_true_eq_false, if_false, ensures_call]
      intro second _
      cases second with
      | true => exact fun impossible => by cases impossible
      | false =>
          simp only [Bool.false_eq_true, if_false, ensures_call]
          intro wrapped sound
          have credential : wrapped.1 = credOk → Cred.IsCredential outside.scheme outside.root
              rpHash made.2.scalar wrapped.2.toList := sound
          by_cases stored : wrapped.1 = credOk
          · simp only [stored, not_true_eq_false, if_false]
            refine respond_registers cid rpHash made.2 wrapped.2 response responseCap room backed ?_
              (pair ok) (credential stored)
            simp [← ok]
          · simp only [stored, not_false_eq_true, if_true, Program.pure_eq, ensures_done]
            exact fun impossible => by cases impossible

/-- A registration that succeeds wrote a credential of its RP and of a fresh key pair. -/
theorem makeCredential_registers (cid : UInt32) (request response : List UInt8)
    (responseCap : Nat) (backed : responseCap ≤ response.length) :
    Ensures (CommandSound outside) before (makeCredential cid request response responseCap)
      (fun events outcome => outcome.code = .ok → ∃ parsed, readRequest request = .ok parsed ∧
        Registered outside (outside.hash parsed.rpId) response events outcome) := by
  unfold makeCredential
  split
  · exact fun impossible => by cases impossible
  rename_i room
  cases accepted : readRequest request with
  | error refusal => exact fun impossible => by cases impossible
  | ok parsed =>
      simp only [register, Ctap.sha256Sum, Program.perform_bind, ensures_call]
      intro hashed sound
      have digest : hashed.1 = cryptoOk → hashed.2 = outside.hash parsed.rpId := sound
      by_cases ok : hashed.1 = cryptoOk
      swap
      · simp only [ne_eq, ok, not_false_eq_true, if_true, Program.pure_eq, ensures_done]
        exact fun impossible => by cases impossible
      simp only [ne_eq, ok, not_true_eq_false, if_false]
      rw [digest ok]
      apply (ensures_bind _ _ _).mpr
      apply (ensures_true _).imp
      intro events result _
      cases result with
      | error refusal => exact fun impossible => by cases impossible
      | ok excluded =>
          apply (ensures_bind _ _ _).mpr
          apply (ensures_true _).imp
          intro events status _
          cases status with
          | error refusal => exact fun impossible => by cases impossible
          | ok granted =>
              cases excluded with
              | true => exact fun impossible => by cases impossible
              | false =>
                  apply (registerKey_registers cid (outside.hash parsed.rpId) response responseCap
                    (by omega) backed).imp
                  intro events outcome registered success
                  exact ⟨parsed, rfl, registered success⟩

end P4Key.Device
