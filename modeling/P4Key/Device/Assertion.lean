import P4Key.Ctap.Responses
import P4Key.Device.Linked

/-! What an assertion answers when the library works and the user consents. -/

namespace P4Key.Device

open Memory CallProgram Cbor Ctap Ctap.GetAssertion

variable {outside : Outside} {before : List (Event Ctap.Reply)}

/-- The allow list names `id`, and no other id that could be a credential. -/
def OnlyCredential (allow : List Desc) (id : List UInt8) : Prop :=
  (∃ item ∈ allow, item.publicKey = true ∧ item.id = id) ∧
    ∀ item ∈ allow, item.publicKey = true → item.id.length = credIdLen → item.id = id

theorem onlyCredential_singleton (id : List UInt8) : OnlyCredential [⟨id, true⟩] id := by
  constructor
  · exact ⟨⟨id, true⟩, List.mem_singleton_self _, rfl, rfl⟩
  · intro item member _ _
    rw [List.mem_singleton.mp member]

abbrev Granted (outside : Outside) (event : Event Ctap.Reply) : Prop :=
  CommandSound outside event ∧ CommandSucceeds event

/-- The search ends at the credential, or finds that none of the entries is one. -/
theorem findCred_finds (rpHash : Bytes 32) (id : List UInt8) (size : id.length = credIdLen)
    (items : List Desc)
    (only : ∀ item ∈ items, item.publicKey = true → item.id.length = credIdLen → item.id = id) :
    Ensures (Granted outside) before (findCred rpHash items) (fun _ result =>
      (∀ scalar, Cred.IsCredential outside.scheme outside.root rpHash scalar id →
        (∃ item ∈ items, item.publicKey = true ∧ item.id = id) → result = .ok (id, scalar)) ∧
      ((∀ scalar, ¬ Cred.IsCredential outside.scheme outside.root rpHash scalar id) →
        result = .error .noCredentials)) := by
  induction items generalizing before with
  | nil =>
      refine ⟨?_, fun _ => rfl⟩
      intro scalar _ named
      rcases named with ⟨item, member, -⟩
      cases member
  | cons item rest ih =>
      have others := @ih before
        (fun other member => only other (List.mem_cons_of_mem _ member))
      rw [findCred]
      by_cases foreign : !item.publicKey ∨ item.id.length ≠ credIdLen
      · rw [if_pos foreign]
        apply others.imp
        intro events result found
        refine ⟨?_, found.2⟩
        intro scalar credential named
        apply found.1 scalar credential
        rcases named with ⟨other, member, key, same⟩
        rcases List.mem_cons.mp member with rfl | member
        · rw [key, same, size] at foreign
          simp at foreign
        · exact ⟨other, member, key, same⟩
      · rw [if_neg foreign]
        simp only [Bool.not_eq_eq_eq_not, Bool.not_true, not_or, Bool.not_eq_false,
          ne_eq, not_not] at foreign
        have same := only item List.mem_cons_self foreign.1 foreign.2
        simp only [Ctap.credOpen, Program.perform_bind, ensures_call]
        intro reply legal
        have sound : (reply.1 = credOk ∧
            Cred.IsCredential outside.scheme outside.root rpHash reply.2 item.id) ∨
            reply.1 = credErrMismatch ∧
            ∀ scalar, ¬ Cred.IsCredential outside.scheme outside.root rpHash scalar item.id := legal.1
        rw [same] at sound ⊢
        rcases sound with ⟨opened, credential⟩ | ⟨denied, none⟩
        · simp only [opened, if_true, Program.pure_eq, ensures_done]
          refine ⟨?_, fun none => absurd credential (none reply.2)⟩
          intro scalar credential' _
          rw [(credential.unique credential').2]
        · have failed : ¬ credErrMismatch = credOk := by decide
          simp only [denied, failed, if_false, ne_eq, not_true_eq_false]
          apply (ih (fun other member => only other (List.mem_cons_of_mem _ member))).imp
          intro events result found
          exact ⟨fun scalar credential _ => absurd credential (none scalar), found.2⟩

/-- The response of an assertion by the key of `scalar`, in memory that was `response`. -/
def Asserted (outside : Outside) (scalar : Bytes 32) (id : List UInt8) (rpHash : Bytes 32)
    (clientHash response : List UInt8) (outcome : Outcome) : Prop :=
  outcome.code = .ok ∧ ∃ signature,
    outside.verifies (outside.publicKey scalar)
      (outside.hash (authData rpHash ++ clientHash)) signature ∧
    0 < signature.length ∧ signature.length ≤ 72 ∧
    outcome.responseLen = (encodings (assertionItems id (authData rpHash) signature)).length ∧
    outcome.response = store response 0 (encodings (assertionItems id (authData rpHash) signature))

theorem signAssertion_asserts (cid : UInt32) (parsed : Request) (rpHash scalar : Bytes 32)
    (id response : List UInt8) (responseCap : Nat) (size : id.length = credIdLen)
    (client : parsed.clientHash.length = 32) (valid : Crypto.scalarValid scalar.toList = true)
    (room : responseMax ≤ responseCap) (small : responseCap ≤ maxBytes)
    (backed : responseCap ≤ response.length) :
    Ensures (Granted outside) before
      (signAssertion cid parsed rpHash id scalar response responseCap)
      (fun _ outcome => Asserted outside scalar id rpHash parsed.clientHash response outcome) := by
  simp only [signAssertion, respond, Ctap.pressCancelled, Ctap.sha256Sum, Ctap.p256SignHash,
    Program.perform_bind, ensures_call]
  intro first legal
  have calm : first = false := legal.2
  simp only [calm, Bool.false_eq_true, if_false, ensures_call]
  intro hashed legal
  have hashOk : hashed.1 = cryptoOk := legal.2
  have digest : hashed.1 = cryptoOk →
      hashed.2 = outside.hash (signInput rpHash parsed.clientHash) := legal.1
  simp only [hashOk, ne_eq, not_true_eq_false, if_false, ensures_call]
  intro second legal
  have calm : second = false := legal.2
  simp only [calm, Bool.false_eq_true, if_false, ensures_call]
  intro signed legal
  have signOk : signed.1 = cryptoOk := legal.2
  have right : signed.1 = cryptoOk → Crypto.scalarValid scalar.toList = true →
      0 < signed.2.len ∧ signed.2.len ≤ 72 ∧ outside.verifies (outside.publicKey scalar) hashed.2
        (signed.2.bytes.toList.take signed.2.len) := legal.1
  rcases right signOk valid with ⟨positive, short, verified⟩
  have length : (signed.2.bytes.toList.take signed.2.len).length = signed.2.len := by
    rw [List.length_take, List.Vector.toList_length, Nat.min_eq_left short]
  have accepted : ¬ (signed.1 ≠ cryptoOk ∨ signed.2.len = 0 ∨ signed.2.len > 72) := by
    rw [signOk]
    omega
  have put := putResponse_eq id (signed.2.bytes.toList.take signed.2.len) rpHash size
    (by rw [length]; exact short) response responseCap room small backed
  rw [if_neg accepted]
  simp only [ensures_call]
  intro third legal
  have calm : third = false := legal.2
  simp only [calm, Bool.false_eq_true, if_false, put, Bool.not_true, ensures_call]
  intro fourth legal
  have calm : fourth = false := legal.2
  simp only [calm, Bool.false_eq_true, if_false, Program.pure_eq, ensures_done]
  rw [digest hashOk, signInput_eq rpHash parsed.clientHash client] at verified
  exact ⟨rfl, _, verified, by rw [length]; exact positive, by rw [length]; exact short, rfl, rfl⟩

/-- An assertion at an RP for which the id is a credential is signed by its key; at any other RP
there is no credential. -/
theorem getAssertion_answers (cid : UInt32) (request response id : List UInt8) (responseCap : Nat)
    (parsed : Request) (accepted : readRequest request = .ok parsed)
    (size : id.length = credIdLen) (only : OnlyCredential parsed.allow id)
    (room : responseMax ≤ responseCap) (small : responseCap ≤ maxBytes)
    (backed : responseCap ≤ response.length) :
    Ensures (Granted outside) before (getAssertion cid request response responseCap)
      (fun _ outcome =>
        (∀ scalar, Cred.IsCredential outside.scheme outside.root (outside.hash parsed.rpId) scalar id →
          Asserted outside scalar id (outside.hash parsed.rpId) parsed.clientHash response outcome) ∧
        ((∀ scalar, ¬ Cred.IsCredential outside.scheme outside.root (outside.hash parsed.rpId)
          scalar id) → outcome = .stop .noCredentials response)) := by
  have client := readRequest_clientHash request parsed accepted
  rw [getAssertion, if_neg (by omega), accepted]
  simp only [assertCredential, Ctap.sha256Sum, Program.perform_bind, ensures_call]
  intro hashed legal
  have hashOk : hashed.1 = cryptoOk := legal.2
  have digest : hashed.1 = cryptoOk → hashed.2 = outside.hash parsed.rpId := legal.1
  simp only [hashOk, ne_eq, not_true_eq_false, if_false]
  rw [digest hashOk]
  apply (ensures_bind _ _ _).mpr
  apply (findCred_finds (outside.hash parsed.rpId) id size parsed.allow only.2).imp
  intro events result found
  by_cases usable : ∃ scalar, Cred.IsCredential outside.scheme outside.root
      (outside.hash parsed.rpId) scalar id
  · rcases usable with ⟨scalar, credential⟩
    rw [found.1 scalar credential only.1]
    apply (ensures_bind _ _ _).mpr
    simp only [presenceStatus, Ctap.pressWait, Program.perform_bind, ensures_call, Program.pure_eq,
      ensures_done]
    intro result legal
    have pressed : result = pressOk := legal.2
    simp only [pressed, if_true]
    apply (signAssertion_asserts cid parsed (outside.hash parsed.rpId) scalar id response
      responseCap size client credential.1 room small backed).imp
    intro events outcome asserted
    refine ⟨?_, fun none => absurd credential (none scalar)⟩
    intro scalar' credential'
    rw [← (credential.unique credential').2]
    exact asserted
  · have none : ∀ scalar, ¬ Cred.IsCredential outside.scheme outside.root
        (outside.hash parsed.rpId) scalar id := not_exists.mp usable
    rw [found.2 none]
    exact ⟨fun scalar credential => absurd credential (none scalar), fun _ => rfl⟩

end P4Key.Device
