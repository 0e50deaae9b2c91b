import P4Key.Cbor.Within
import P4Key.Ctap.GetAssertion
import P4Key.Ctap.MakeCredential

/-! The two responses, as items of the CBOR reader. -/

namespace P4Key.Ctap

open Memory Cbor

namespace MakeCredential

/-- `{1: "none", 2: authData, 3: {}}`. -/
def attestationItems (authData : List UInt8) : List Item :=
  [.map 3, .uint 1, .text noneText, .uint 2, .bytes authData, .uint 3, .map 0]

/-- `{1: 2, 3: -7, -1: 1, -2: x, -3: y}`. -/
def coseItems (x y : List UInt8) : List Item :=
  [.map 5, .uint 1, .uint 2, .uint 3, .int (-7), .int (-1), .uint 1, .int (-2), .bytes x,
    .int (-3), .bytes y]

/-- The fields of the authenticator data in front of the public key. -/
def attestedFields (rpHash : Bytes 32) (credentialId : Bytes 100) : List UInt8 :=
  rpHash.toList ++ [0x41] ++ zeros 4 ++ aaguid ++ [0x00, 0x64] ++ credentialId.toList

def authDataBytes (rpHash : Bytes 32) (credentialId : Bytes 100) (x y : Bytes 32) : List UInt8 :=
  attestedFields rpHash credentialId ++ encodings (coseItems x.toList y.toList)

@[simp] theorem length_attestedFields (rpHash : Bytes 32) (credentialId : Bytes 100) :
    (attestedFields rpHash credentialId).length = coseOffset := by
  simp [attestedFields, aaguid, coseOffset]

theorem putAttestation_eq (authData : List UInt8) :
    putAttestation authData = putItems (attestationItems authData) := by
  simp only [attestationItems, putItems_cons_cons, putItems_singleton]
  rfl

theorem putCoseKey_eq (x y : List UInt8) : putCoseKey x y = putItems (coseItems x y) := by
  simp only [coseItems, putItems_cons_cons, putItems_singleton]
  rfl

theorem coseItems_valid (x y : Bytes 32) : ∀ item ∈ coseItems x.toList y.toList, item.Valid := by
  simp [coseItems, Item.Valid, maxBytes, maxContainerItems]

theorem length_cose (x y : Bytes 32) : (encodings (coseItems x.toList y.toList)).length = coseLen := by
  simp [encodings, coseItems, Item.encoding, headBytes, coseLen]

theorem attestationItems_valid (authData : List UInt8) (size : authData.length = authDataLen) :
    ∀ item ∈ attestationItems authData, item.Valid := by
  simp [attestationItems, Item.Valid, maxBytes, maxContainerItems, size, authDataLen, noneText, text]

theorem length_attestation (authData : List UInt8) (size : authData.length = authDataLen) :
    (encodings (attestationItems authData)).length = responseLen := by
  simp [encodings, attestationItems, Item.encoding, headBytes, responseLen, size, authDataLen,
    noneText, text]

@[simp] theorem length_authDataBytes (rpHash : Bytes 32) (credentialId : Bytes 100)
    (x y : Bytes 32) : (authDataBytes rpHash credentialId x y).length = authDataLen := by
  rw [authDataBytes, List.length_append, length_attestedFields, length_cose]
  rfl

theorem authDataHead_eq (rpHash : Bytes 32) (credentialId : Bytes 100) :
    authDataHead rpHash credentialId = attestedFields rpHash credentialId ++ zeros coseLen := by
  have hash := store_zeros [] rpHash.toList 0 authDataLen rfl (by simp [authDataLen])
  have flags := store_zeros rpHash.toList [0x41] 32 200 (by simp) (by simp)
  have counter : rpHash.toList ++ [0x41] ++ zeros 199 =
      (rpHash.toList ++ [0x41] ++ zeros 4) ++ zeros 195 := by
    simp [zeros]
  have model := store_zeros (rpHash.toList ++ [0x41] ++ zeros 4) aaguid 37 195
    (by simp) (by simp [aaguid])
  have size := store_zeros (rpHash.toList ++ [0x41] ++ zeros 4 ++ aaguid) [0x00, 0x64] 53 179
    (by simp [aaguid]) (by simp)
  have id := store_zeros (rpHash.toList ++ [0x41] ++ zeros 4 ++ aaguid ++ [0x00, 0x64])
    credentialId.toList 55 177 (by simp [aaguid]) (by simp)
  rw [List.nil_append, List.nil_append, List.Vector.toList_length] at hash
  rw [List.Vector.toList_length] at id
  rw [authDataHead, hash]
  simp only [authDataLen, Nat.reduceSub]
  rw [flags]
  simp only [List.length_singleton, Nat.reduceSub]
  rw [counter, model]
  exact (congrArg (store · 55 credentialId.toList) size).trans id

theorem putCose_eq (keys : KeyPair) (rpHash : Bytes 32) (credentialId : Bytes 100) :
    putCose keys (authDataHead rpHash credentialId) =
      (true, authDataBytes rpHash credentialId keys.x keys.y) := by
  have size := length_attestedFields rpHash credentialId
  have cose := length_cose keys.x keys.y
  have tail : (authDataHead rpHash credentialId).drop coseOffset = zeros coseLen := by
    rw [authDataHead_eq, ← size, List.drop_left]
  have put := putItems_init (coseItems keys.x.toList keys.y.toList)
    (coseItems_valid keys.x keys.y) (zeros coseLen) coseLen (by decide) (by simp) (by rw [cose])
  have nothing : zeros 0 = [] := rfl
  have written := store_zeros [] (encodings (coseItems keys.x.toList keys.y.toList)) 0 coseLen rfl
    (by rw [cose])
  rw [List.nil_append, List.nil_append, cose, Nat.sub_self, nothing, List.append_nil] at written
  have whole := store_zeros (attestedFields rpHash credentialId)
    (encodings (coseItems keys.x.toList keys.y.toList)) coseOffset coseLen size.symm (by rw [cose])
  rw [cose, Nat.sub_self, nothing, List.append_nil] at whole
  rw [putCose, putCoseKey_eq, tail, put]
  simp only [writerLen, writerOk, cose, written, authDataHead_eq, whole, authDataBytes]
  simp

theorem putResponse_eq (authData response : List UInt8) (responseCap : Nat)
    (size : authData.length = authDataLen) (backed : responseCap ≤ response.length)
    (room : responseLen ≤ responseCap) (small : responseCap ≤ maxBytes) :
    putResponse authData response responseCap =
      (true, store response 0 (encodings (attestationItems authData)), responseLen) := by
  have encoded := length_attestation authData size
  rw [putResponse, putAttestation_eq, putItems_init _ (attestationItems_valid authData size) response
    responseCap small backed (by rw [encoded]; exact room)]
  simp [writerLen, writerOk, encoded]

theorem putResponse_cases (authData response : List UInt8) (responseCap : Nat)
    (size : authData.length = authDataLen) (backed : responseCap ≤ response.length)
    (room : responseLen ≤ responseCap) :
    putResponse authData response responseCap =
        (true, store response 0 (encodings (attestationItems authData)), responseLen) ∨
      ∃ len, putResponse authData response responseCap = (false, response, len) := by
  by_cases small : responseCap ≤ maxBytes
  · exact Or.inl (putResponse_eq authData response responseCap size backed room small)
  · right
    rcases putItems_wide (.map 3) [.uint 1, .text noneText, .uint 2, .bytes authData, .uint 3, .map 0]
      response responseCap (Nat.lt_of_not_le small) with ⟨writer, whole, kept⟩
    rw [putResponse, putAttestation_eq]
    exact ⟨writerLen writer, by simp only [attestationItems, whole, kept, Bool.false_and]⟩

theorem putResponse_ok (authData response : List UInt8) (responseCap : Nat)
    (size : authData.length = authDataLen) (backed : responseCap ≤ response.length)
    (room : responseLen ≤ responseCap) (built : List UInt8) (len : Nat)
    (put : putResponse authData response responseCap = (true, built, len)) :
    len = responseLen ∧ built = store response 0 (encodings (attestationItems authData)) := by
  rcases putResponse_cases authData response responseCap size backed room with
    whole | ⟨other, nothing⟩
  · rw [whole] at put
    cases put
    exact ⟨rfl, rfl⟩
  · rw [nothing] at put
    cases put

end MakeCredential

namespace GetAssertion

/-- `{1: {"id": credentialId, "type": "public-key"}, 2: authData, 3: signature}`. -/
def assertionItems (credentialId authData signature : List UInt8) : List Item :=
  [.map 3, .uint 1, .map 2, .text idText, .bytes credentialId, .text typeText,
    .text publicKeyText, .uint 2, .bytes authData, .uint 3, .bytes signature]

theorem authData_eq (rpHash : Bytes 32) :
    authData rpHash = rpHash.toList ++ [0x01] ++ zeros 4 := by
  have hash := store_zeros [] rpHash.toList 0 authDataLen rfl (by simp [authDataLen])
  have flags := store_zeros rpHash.toList [0x01] 32 5 (by simp) (by simp)
  rw [List.nil_append, List.nil_append, List.Vector.toList_length] at hash
  rw [authData, hash]
  exact flags

@[simp] theorem length_authData (rpHash : Bytes 32) : (authData rpHash).length = authDataLen := by
  simp [authData_eq, authDataLen]

theorem putAssertion_eq (credentialId authData signature : List UInt8) :
    putAssertion credentialId authData signature =
      putItems (assertionItems credentialId authData signature) := by
  simp only [assertionItems, putItems_cons_cons, putItems_singleton]
  simp only [putAssertion, putCredential, Put.andThen_assoc]
  rfl

section Bounds

variable (credentialId signature : List UInt8) (rpHash : Bytes 32)
  (id : credentialId.length = credIdLen) (short : signature.length ≤ 72)

include id short

theorem assertionItems_valid :
    ∀ item ∈ assertionItems credentialId (authData rpHash) signature, item.Valid := by
  have bound : signature.length ≤ 2048 := by omega
  simp [assertionItems, Item.Valid, maxContainerItems, id, bound, credIdLen, maxBytes, authDataLen,
    idText, typeText, publicKeyText, text]

theorem length_assertion :
    (encodings (assertionItems credentialId (authData rpHash) signature)).length ≤ responseMax := by
  have head : (headBytes 2 signature.length).length ≤ 2 := by
    rw [headBytes]
    split
    · simp
    · rw [if_pos (by omega)]
      simp
  have fields : (encodings (assertionItems credentialId (authData rpHash) signature)).length =
      165 + (headBytes 2 signature.length).length + signature.length := by
    simp [encodings, assertionItems, Item.encoding, id, credIdLen, authDataLen,
      idText, typeText, publicKeyText, text, headBytes]
    omega
  rw [fields, responseMax]
  omega

theorem putResponse_eq (response : List UInt8) (responseCap : Nat)
    (room : responseMax ≤ responseCap) (small : responseCap ≤ maxBytes)
    (backed : responseCap ≤ response.length) :
    putResponse credentialId (authData rpHash) signature response responseCap =
      (true, store response 0 (encodings (assertionItems credentialId (authData rpHash) signature)),
        (encodings (assertionItems credentialId (authData rpHash) signature)).length) := by
  have fits := length_assertion credentialId signature rpHash id short
  rw [putResponse, putAssertion_eq, putItems_init _
    (assertionItems_valid credentialId signature rpHash id short) response responseCap small backed
    (by omega)]
  rfl

end Bounds

theorem putResponse_wide (credentialId authData signature response : List UInt8)
    (responseCap : Nat) (wide : maxBytes < responseCap) :
    ∃ len, putResponse credentialId authData signature response responseCap =
      (false, response, len) := by
  rcases putItems_wide (.map 3) [.uint 1, .map 2, .text idText, .bytes credentialId, .text typeText,
    .text publicKeyText, .uint 2, .bytes authData, .uint 3, .bytes signature] response responseCap wide
    with ⟨writer, whole, kept⟩
  rw [putResponse, putAssertion_eq]
  exact ⟨writerLen writer, by simp only [assertionItems, whole, kept]⟩

end GetAssertion

end P4Key.Ctap
