import P4Key.Ctap.Calls

/-! p4_make_credential.c. -/

namespace P4Key.Ctap

namespace MakeCredential

open Memory CallProgram Cbor

def coseOffset : Nat := 155
def coseLen : Nat := 77
def authDataLen : Nat := 232
def responseLen : Nat := 244

def noneText : List UInt8 := text ['n', 'o', 'n', 'e']

structure Request where
  rpId : List UInt8
  exclude : List Desc
  es256 : Bool
  unsupportedOption : Bool
  deriving DecidableEq, Repr

def readRp : Parse (List UInt8) := readIdMap getText

def readUser : Parse (List UInt8) := readIdMap getBytes

def readAlgEntry (key : List UInt8) (found : Option Bool × Option Int) :
    Parse (Option Bool × Option Int) :=
  if key = typeText then
    if found.1.isSome then throw .invalidCbor
    else do
      let type ← expect getText .cborUnexpectedType
      pure (some (decide (type = publicKeyText)), found.2)
  else if key = algText then
    if found.2.isSome then throw .invalidCbor
    else do
      let algorithm ← expect getInt .cborUnexpectedType
      pure (found.1, some algorithm)
  else do
    expect skip .invalidCbor
    pure found

def readAlg : Parse Bool := do
  match ← readTextMap readAlgEntry (none, none) with
  | (some publicKey, some algorithm) => pure (publicKey && decide (algorithm = -7))
  | _ => throw .missingParameter

def readAlgs : Parse Bool := do
  let count ← expect getArray .cborUnexpectedType
  if count = 0 then throw .invalidParameter
  else do
    let entries ← readItems readAlg count
    pure (entries.any id)

def readExclude : Parse (List Desc) := readDescs true

def readField (key : Nat) (request : Request) : Parse Request :=
  if key = 1 then do
    let clientHash ← expect getBytes .cborUnexpectedType
    if clientHash.length ≠ 32 then throw .invalidParameter else pure request
  else if key = 2 then do
    let rpId ← readRp
    pure { request with rpId }
  else if key = 3 then do
    let _ ← readUser
    pure request
  else if key = 4 then do
    let es256 ← readAlgs
    pure { request with es256 := request.es256 || es256 }
  else if key = 5 then do
    let exclude ← readExclude
    pure { request with exclude }
  else if key = 6 then do
    readIgnoredMap
    pure request
  else if key = 7 then do
    let unsupported ← readOptions rkText true
    pure { request with unsupportedOption := request.unsupportedOption || unsupported }
  else if key = 8 then do
    let _ ← expect getBytes .cborUnexpectedType
    pure { request with unsupportedOption := true }
  else if key = 9 ∨ key = 10 then do
    let _ ← expect getUint .cborUnexpectedType
    pure { request with unsupportedOption := true }
  else do
    expect skip .invalidCbor
    pure request

def readRequest (data : List UInt8) : Except Refusal Request := do
  let request ← readWhole readField 0x0f ⟨[], [], false, false⟩ data
  if request.unsupportedOption then throw .unsupportedOption
  else if request.es256 then pure request
  else throw .unsupportedAlgorithm

/-- Whether an entry opens. Every entry is tried, whatever the earlier ones gave. -/
def checkExclude (rpHash : Bytes 32) : List Desc → Bool → Command (Except Refusal Bool)
  | [], excluded => pure (.ok excluded)
  | item :: rest, excluded =>
    if !item.publicKey ∨ item.id.length ≠ credIdLen then checkExclude rpHash rest excluded
    else do
      let (error, _) ← credOpen rpHash item.id
      if error = credOk then checkExclude rpHash rest true
      else if error ≠ credErrMismatch then pure (.error .other)
      else checkExclude rpHash rest excluded

def putCoseKey (x y : List UInt8) : Put :=
  (putMap 5).andThen <| (putUint 1).andThen <| (putUint 2).andThen <|
    (putUint 3).andThen <| (putInt (-7)).andThen <| (putInt (-1)).andThen <|
    (putUint 1).andThen <| (putInt (-2)).andThen <| (putBytes x).andThen <|
    (putInt (-3)).andThen (putBytes y)

/-- `put_cose`, which writes the key into the tail of the authenticator data. -/
def putCose (keys : KeyPair) (authData : List UInt8) : Bool × List UInt8 :=
  let (ok, writer) := putCoseKey keys.x.toList keys.y.toList
    (writerInit (authData.drop coseOffset) coseLen)
  (ok && decide (writerLen writer = coseLen), store authData coseOffset writer.data)

def putAttestation (authData : List UInt8) : Put :=
  (putMap 3).andThen <| (putUint 1).andThen <| (putText noneText).andThen <|
    (putUint 2).andThen <| (putBytes authData).andThen <|
    (putUint 3).andThen (putMap 0)

/-- `put_response`: its result, the response memory and `*response_len`. -/
def putResponse (authData response : List UInt8) (responseCap : Nat) : Bool × List UInt8 × Nat :=
  let (ok, writer) := putAttestation authData (writerInit response responseCap)
  (ok && decide (writerLen writer = responseLen), writer.data, writerLen writer)

def authDataHead (rpHash : Bytes 32) (credentialId : Bytes 100) : List UInt8 :=
  let authData := store (zeros authDataLen) 0 rpHash.toList
  let authData := store authData 32 [0x41]
  let authData := store authData 37 aaguid
  let authData := store authData 53 [UInt8.ofNat (credIdLen >>> 8), UInt8.ofNat credIdLen]
  store authData 55 credentialId.toList

/-- From the wrapped credential on: the response is built, and wiped if a cancel comes after it. -/
def respond (cid : UInt32) (rpHash : Bytes 32) (keys : KeyPair) (credentialId : Bytes 100)
    (response : List UInt8) (responseCap : Nat) : Command Outcome := do
  if ← pressCancelled cid then pure (.stop .keepaliveCancel response)
  else
    let (okCose, authData) := putCose keys (authDataHead rpHash credentialId)
    if !okCose then pure (.stop .other response)
    else
      let (ok, built, len) := putResponse authData response responseCap
      if !ok then pure (.stop .other built)
      else if ← pressCancelled cid then pure (.stop .keepaliveCancel (clear built len))
      else pure ⟨.ok, built, len⟩

def registerKey (cid : UInt32) (rpHash : Bytes 32) (response : List UInt8) (responseCap : Nat) :
    Command Outcome := do
  if ← pressCancelled cid then pure (.stop .keepaliveCancel response)
  else
    let (makeError, keys) ← p256Make
    if makeError ≠ cryptoOk then pure (.stop .other response)
    else if ← pressCancelled cid then pure (.stop .keepaliveCancel response)
    else
      let (wrapError, credentialId) ← credWrap rpHash keys.scalar
      if wrapError ≠ credOk then pure (.stop .other response)
      else respond cid rpHash keys credentialId response responseCap

def register (cid : UInt32) (parsed : Request) (response : List UInt8) (responseCap : Nat) :
    Command Outcome := do
  let (hashError, rpHash) ← sha256Sum parsed.rpId
  if hashError ≠ cryptoOk then pure (.stop .other response)
  else
    match ← checkExclude rpHash parsed.exclude false with
    | .error refusal => pure (.stop refusal response)
    | .ok excluded =>
      match ← presenceStatus cid with
      | .error refusal => pure (.stop refusal response)
      | .ok () =>
        if excluded then pure (.stop .credentialExcluded response)
        else registerKey cid rpHash response responseCap

end MakeCredential

open MakeCredential in
/-- `p4_ctap_make_credential` with pointers that are not NULL. -/
def makeCredential (cid : UInt32) (request response : List UInt8) (responseCap : Nat) :
    Command Outcome :=
  if responseCap < responseLen then pure ⟨.error .small, response, 0⟩
  else
    match readRequest request with
    | .error refusal => pure (.stop refusal response)
    | .ok parsed => register cid parsed response responseCap

end P4Key.Ctap
