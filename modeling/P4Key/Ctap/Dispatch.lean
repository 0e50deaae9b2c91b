import P4Key.Ctap.GetAssertion
import P4Key.Ctap.MakeCredential

/-! p4_get_info.c and p4_ctap.c. -/

namespace P4Key.Ctap

open Memory CallProgram Cbor

namespace GetInfo

def fidoText : List UInt8 := text ['F', 'I', 'D', 'O', '_', '2', '_', '0']
def usbText : List UInt8 := text ['u', 's', 'b']

def putVersions : Put :=
  (putUint 1).andThen <| (putArray 1).andThen (putText fidoText)

def putOptions : Put :=
  (putUint 4).andThen <| (putMap 2).andThen <| (putText rkText).andThen <|
    (putBool false).andThen <| (putText upText).andThen (putBool true)

def putLimits : Put :=
  (putUint 5).andThen <| (putUint maxMessage).andThen <|
    (putUint 7).andThen <| (putUint maxCredentialsInList).andThen <|
    (putUint 8).andThen (putUint maxCredentialIdLen)

def putAlgorithms : Put :=
  (putUint 10).andThen <| (putArray 1).andThen <| (putMap 2).andThen <|
    (putText algText).andThen <| (putInt (-7)).andThen <|
    (putText typeText).andThen (putText publicKeyText)

def putInfo : Put :=
  (putMap 8).andThen <| putVersions.andThen <|
    (putUint 3).andThen <| (putBytes aaguid).andThen <|
    putOptions.andThen <| putLimits.andThen <|
    (putUint 9).andThen <| (putArray 1).andThen <| (putText usbText).andThen putAlgorithms

end GetInfo

open GetInfo in
/-- `p4_ctap_get_info` with pointers that are not NULL: its result, the response memory
and `*response_len`. -/
def getInfo (response : List UInt8) (responseCap : Nat) : Option Error × List UInt8 × Nat :=
  if responseCap > maxBytes then (some .arg, response, 0)
  else
    let (ok, writer) := putInfo (writerInit response responseCap)
    if ok && writerOk writer then (none, writer.data, writerLen writer)
    else (some .small, writer.data, 0)

/-- What `p4_ctap_dispatch` leaves behind; `error` is `none` for `P4_CTAP_OK`. -/
structure Answer where
  error : Option Error
  response : List UInt8
  responseLen : Nat
  deriving DecidableEq, Repr

def Answer.refuse (refusal : Refusal) (response : List UInt8) : Answer :=
  ⟨none, store response 0 [refusal.code], 1⟩

/-- The part of `p4_ctap_dispatch` after a command returned; the command wrote behind the
status byte. -/
def Answer.ofOutcome (response : List UInt8) (outcome : Outcome) : Answer :=
  let response := store response 1 outcome.response
  match outcome.code with
  | .error error => ⟨some error, response, 0⟩
  | .ok => ⟨none, store response 0 [statusOk], outcome.responseLen + 1⟩
  | .refused refusal => .refuse refusal response

def cmdMakeCredential : UInt8 := 0x01
def cmdGetAssertion : UInt8 := 0x02
def cmdGetInfo : UInt8 := 0x04

/-- `p4_ctap_dispatch` with pointers that are not NULL. -/
def dispatch (cid : UInt32) (request response : List UInt8) (responseCap : Nat) :
    Command Answer :=
  if request.length > maxMessage then pure ⟨some .arg, response, 0⟩
  else if responseCap < 1 then pure ⟨some .small, response, 0⟩
  else
    match request with
    | [] => pure (.refuse .invalidLength response)
    | command :: body =>
      let cborCap := min (responseCap - 1) (maxMessage - 1)
      if command = cmdMakeCredential then do
        let outcome ← makeCredential cid body (response.drop 1) cborCap
        pure (.ofOutcome response outcome)
      else if command = cmdGetAssertion then do
        let outcome ← getAssertion cid body (response.drop 1) cborCap
        pure (.ofOutcome response outcome)
      else if command ≠ cmdGetInfo then pure (.refuse .invalidCommand response)
      else if request.length ≠ 1 then pure (.refuse .invalidCbor response)
      else
        match getInfo (response.drop 1) cborCap with
        | (some error, built, _) => pure ⟨some error, store response 1 built, 0⟩
        | (none, built, len) =>
          pure ⟨none, store (store response 1 built) 0 [statusOk], len + 1⟩

end P4Key.Ctap
