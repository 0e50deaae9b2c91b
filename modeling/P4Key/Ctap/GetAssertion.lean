import P4Key.Ctap.Calls

/-! p4_get_assertion.c. -/

namespace P4Key.Ctap.GetAssertion

open Memory CallProgram Cbor

def authDataLen : Nat := 37
def signInputLen : Nat := 69
def responseMax : Nat := 239

structure Request where
  rpId : List UInt8
  clientHash : List UInt8
  allow : List Desc
  unsupportedOption : Bool
  deriving DecidableEq, Repr

def readAllow : Parse (List Desc) := readDescs false

def readField (key : Nat) (request : Request) : Parse Request :=
  if key = 1 then do
    let rpId ← expect getText .cborUnexpectedType
    if rpId.length = 0 then throw .invalidParameter else pure { request with rpId }
  else if key = 2 then do
    let clientHash ← expect getBytes .cborUnexpectedType
    if clientHash.length ≠ 32 then throw .invalidParameter else pure { request with clientHash }
  else if key = 3 then do
    let allow ← readAllow
    pure { request with allow }
  else if key = 4 then do
    readIgnoredMap
    pure request
  else if key = 5 then do
    let unsupported ← readOptions upText false
    pure { request with unsupportedOption := request.unsupportedOption || unsupported }
  else if key = 6 then do
    let _ ← expect getBytes .cborUnexpectedType
    pure { request with unsupportedOption := true }
  else if key = 7 then do
    let _ ← expect getUint .cborUnexpectedType
    pure { request with unsupportedOption := true }
  else do
    expect skip .invalidCbor
    pure request

def readRequest (data : List UInt8) : Except Refusal Request := do
  let request ← readWhole readField 0x03 ⟨[], [], [], false⟩ data
  if request.unsupportedOption then throw .unsupportedOption else pure request

/-- Field 2 is the only one that stores the client hash, and it stores 32 bytes. -/
theorem readField_clientHash (key : Nat) (request request' : Request) (reader reader' : Reader)
    (read : readField key request reader = .ok (request', reader')) :
    if key = 2 then request'.clientHash.length = 32
    else request'.clientHash = request.clientHash := by
  unfold readField at read
  by_cases one : key = 1
  · rw [if_pos one] at read
    simp only [parse_bind_ok, expect_ok] at read
    obtain ⟨rpId, middle, -, rest⟩ := read
    rw [if_neg (by omega)]
    split at rest
    · exact absurd rest (parse_throw_ok _ _ _)
    · rw [parse_pure_ok] at rest
      cases rest
      rfl
  rw [if_neg one] at read
  by_cases two : key = 2
  · rw [if_pos two] at read
    simp only [parse_bind_ok, expect_ok] at read
    obtain ⟨clientHash, middle, -, rest⟩ := read
    rw [if_pos two]
    split at rest
    · exact absurd rest (parse_throw_ok _ _ _)
    · rename_i size
      rw [parse_pure_ok] at rest
      cases rest
      rw [ne_eq, not_not] at size
      exact size
  rw [if_neg two] at read
  rw [if_neg two]
  -- the remaining fields rebuild the record around the old hash
  repeat' split at read
  all_goals
    simp only [parse_bind_ok, parse_pure_ok, Prod.mk.injEq] at read
    obtain ⟨_, _, _, rfl, -⟩ := read
    rfl

theorem readRequest_clientHash (data : List UInt8) (request : Request)
    (parsed : readRequest data = .ok request) : request.clientHash.length = 32 := by
  unfold readRequest at parsed
  cases whole : readWhole readField 0x03 ⟨[], [], [], false⟩ data with
  | error status =>
      rw [whole] at parsed
      cases parsed
  | ok result =>
      rw [whole] at parsed
      change (if _ then _ else _) = _ at parsed
      have same : result = request := by
        split at parsed
        · cases parsed
        · cases parsed
          rfl
      subst same
      obtain ⟨keys, required, holds⟩ := readWhole_invariant readField
        (fun keys request => 2 ∈ keys → request.clientHash.length = 32) (by
          intro keys key request reader request' reader' before read member
          have field := readField_clientHash key request request' reader reader' read
          by_cases two : key = 2
          · rw [if_pos two] at field
            exact field
          · rw [if_neg two] at field
            rw [field]
            apply before
            split at member
            · exact (Set.mem_insert_iff.mp member).resolve_left (fun same => two same.symm)
            · exact member) 0x03 _ _ _ (fun impossible => absurd impossible (Set.notMem_empty 2)) whole
      exact holds (required ⟨by decide, by decide, by decide⟩)

def findCred (rpHash : Bytes 32) : List Desc → Command (Except Refusal (List UInt8 × Bytes 32))
  | [] => pure (.error .noCredentials)
  | item :: rest =>
    if !item.publicKey ∨ item.id.length ≠ credIdLen then findCred rpHash rest
    else do
      let (error, privateScalar) ← credOpen rpHash item.id
      if error = credOk then pure (.ok (item.id, privateScalar))
      else if error ≠ credErrMismatch then pure (.error .other)
      else findCred rpHash rest

def authData (rpHash : Bytes 32) : List UInt8 :=
  store (store (zeros authDataLen) 0 rpHash.toList) 32 [0x01]

def signInput (rpHash : Bytes 32) (clientHash : List UInt8) : List UInt8 :=
  store (store (zeros signInputLen) 0 (authData rpHash)) authDataLen clientHash

theorem signInput_eq (rpHash : Bytes 32) (clientHash : List UInt8) (size : clientHash.length = 32) :
    signInput rpHash clientHash = authData rpHash ++ clientHash := by
  have data : (authData rpHash).length = authDataLen := by
    simp [authData, authDataLen]
  have first : store (zeros signInputLen) 0 (authData rpHash) =
      authData rpHash ++ zeros 32 := by
    rw [store_fits _ _ _ (by rw [data, length_zeros]; decide), data]
    rfl
  rw [signInput, first, ← data, store_prefix _ _ _ (by rw [size, length_zeros]), size]
  simp [zeros]

def putCredential (credentialId : List UInt8) : Put :=
  (putMap 2).andThen <| (putText idText).andThen <| (putBytes credentialId).andThen <|
    (putText typeText).andThen (putText publicKeyText)

def putAssertion (credentialId authData signature : List UInt8) : Put :=
  (putMap 3).andThen <| (putUint 1).andThen <| (putCredential credentialId).andThen <|
    (putUint 2).andThen <| (putBytes authData).andThen <|
    (putUint 3).andThen (putBytes signature)

/-- `put_response`: its result, the response memory and `*response_len`. -/
def putResponse (credentialId authData signature response : List UInt8) (responseCap : Nat) :
    Bool × List UInt8 × Nat :=
  let (ok, writer) := putAssertion credentialId authData signature (writerInit response responseCap)
  (ok, writer.data, writerLen writer)

/-- From the signature on: the response is built, and wiped if a cancel comes after it. -/
def respond (cid : UInt32) (rpHash : Bytes 32) (credentialId : List UInt8) (signature : Signature)
    (response : List UInt8) (responseCap : Nat) : Command Outcome := do
  if ← pressCancelled cid then pure (.stop .keepaliveCancel response)
  else
    let (ok, built, len) := putResponse credentialId (authData rpHash)
      (signature.bytes.toList.take signature.len) response responseCap
    if !ok then pure (.stop .other built)
    else if ← pressCancelled cid then
      pure (.stop .keepaliveCancel (clear built len))
    else pure ⟨.ok, built, len⟩

def signAssertion (cid : UInt32) (parsed : Request) (rpHash : Bytes 32)
    (credentialId : List UInt8) (privateScalar : Bytes 32)
    (response : List UInt8) (responseCap : Nat) : Command Outcome := do
  if ← pressCancelled cid then pure (.stop .keepaliveCancel response)
  else
    let (hashError, digest) ← sha256Sum (signInput rpHash parsed.clientHash)
    if hashError ≠ cryptoOk then pure (.stop .other response)
    else if ← pressCancelled cid then pure (.stop .keepaliveCancel response)
    else
      let (signError, signature) ← p256SignHash privateScalar digest
      if signError ≠ cryptoOk ∨ signature.len = 0 ∨ signature.len > 72 then
        pure (.stop .other response)
      else respond cid rpHash credentialId signature response responseCap

def assertCredential (cid : UInt32) (parsed : Request) (response : List UInt8)
    (responseCap : Nat) : Command Outcome := do
  let (hashError, rpHash) ← sha256Sum parsed.rpId
  if hashError ≠ cryptoOk then pure (.stop .other response)
  else
    match ← findCred rpHash parsed.allow with
    | .error refusal => pure (.stop refusal response)
    | .ok (credentialId, privateScalar) =>
      match ← presenceStatus cid with
      | .error refusal => pure (.stop refusal response)
      | .ok () => signAssertion cid parsed rpHash credentialId privateScalar response responseCap

end GetAssertion

open GetAssertion in
/-- `p4_ctap_get_assertion` with pointers that are not NULL. -/
def getAssertion (cid : UInt32) (request response : List UInt8) (responseCap : Nat) :
    Command Outcome :=
  if responseCap < responseMax then pure ⟨.error .small, response, 0⟩
  else
    match readRequest request with
    | .error refusal => pure (.stop refusal response)
    | .ok parsed => assertCredential cid parsed response responseCap

end P4Key.Ctap
