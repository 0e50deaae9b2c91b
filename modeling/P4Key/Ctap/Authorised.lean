import P4Key.Ctap.GetAssertion
import P4Key.Ctap.MakeCredential

/-! What must precede the use of a private key in the calls of one command. -/

namespace P4Key.Ctap

open Memory CallProgram

abbrev Calls : Type := List (Event Reply)

def anyReply : Event Reply → Prop := fun _ => True

def NotCancelled (events : Calls) : Prop :=
  ∀ cid, (⟨.pressCancelled cid, true⟩ : Event Reply) ∉ events

def NoSignature (events : Calls) : Prop :=
  ∀ scalar digest reply, (⟨.p256SignHash scalar digest, reply⟩ : Event Reply) ∉ events

def NoOpen (events : Calls) : Prop :=
  ∀ rpHash id scalar, (⟨.credOpen rpHash id, (credOk, scalar)⟩ : Event Reply) ∉ events

theorem NotCancelled.append {first second : Calls} (left : NotCancelled first)
    (right : NotCancelled second) : NotCancelled (first ++ second) := by
  intro cid member
  rcases List.mem_append.mp member with member | member
  · exact left cid member
  · exact right cid member

theorem NoSignature.append {first second : Calls} (left : NoSignature first)
    (right : NoSignature second) : NoSignature (first ++ second) := by
  intro scalar digest reply member
  rcases List.mem_append.mp member with member | member
  · exact left scalar digest reply member
  · exact right scalar digest reply member

theorem NoOpen.append {first second : Calls} (left : NoOpen first) (right : NoOpen second) :
    NoOpen (first ++ second) := by
  intro rpHash id scalar member
  rcases List.mem_append.mp member with member | member
  · exact left rpHash id scalar member
  · exact right rpHash id scalar member

/-- What precedes a signature: the request's own RP opened one of its entries to this scalar,
presence was granted, and the digest is that of the authenticator data and the client hash. -/
def SignAuthorised (cid : UInt32) (request : List UInt8) (before : Calls)
    (scalar digest : Bytes 32) : Prop :=
  ∃ parsed rpHash item,
    GetAssertion.readRequest request = .ok parsed ∧
    (⟨.sha256Sum parsed.rpId, (cryptoOk, rpHash)⟩ : Event Reply) ∈ before ∧
    item ∈ parsed.allow ∧
    (⟨.credOpen rpHash item.id, (credOk, scalar)⟩ : Event Reply) ∈ before ∧
    (⟨.pressWait cid, pressOk⟩ : Event Reply) ∈ before ∧
    (⟨.sha256Sum (GetAssertion.authData rpHash ++ parsed.clientHash), (cryptoOk, digest)⟩ :
      Event Reply) ∈ before ∧
    NotCancelled before ∧ NoSignature before

def KeyAuthorised (cid : UInt32) (request : List UInt8) (before : Calls) : Prop :=
  ∃ parsed rpHash,
    MakeCredential.readRequest request = .ok parsed ∧
    (⟨.sha256Sum parsed.rpId, (cryptoOk, rpHash)⟩ : Event Reply) ∈ before ∧
    (⟨.pressWait cid, pressOk⟩ : Event Reply) ∈ before ∧
    NoOpen before ∧ NotCancelled before

def signRule (cid : UInt32) (request : List UInt8) (before : Calls) : Event Reply → Prop
  | ⟨.p256SignHash scalar digest, _⟩ => SignAuthorised cid request before scalar digest
  | _ => True

def keyRule (cid : UInt32) (request : List UInt8) (before : Calls) : Event Reply → Prop
  | ⟨.p256Make, _⟩ => KeyAuthorised cid request before
  | ⟨.credWrap _ _, _⟩ => KeyAuthorised cid request before
  | _ => True

/-- The calls made before anything is signed or made: hashing, opening and presence. -/
@[simp] def Early : Call → Prop
  | .sha256Sum _ | .credOpen _ _ | .pressWait _ => True
  | _ => False

def Preliminary (events : Calls) : Prop := ∀ event ∈ events, Early event.1

theorem Preliminary.append {first second : Calls} (left : Preliminary first)
    (right : Preliminary second) : Preliminary (first ++ second) :=
  List.forall_mem_append.mpr ⟨left, right⟩

theorem Preliminary.notCancelled {events : Calls} (early : Preliminary events) :
    NotCancelled events := by
  intro cid member
  exact early _ member

theorem Preliminary.noSignature {events : Calls} (early : Preliminary events) :
    NoSignature events := by
  intro scalar digest reply member
  exact early _ member

theorem Preliminary.guarded {events : Calls} (early : Preliminary events)
    (rule : Calls → Event Reply → Prop)
    (free : ∀ before event, Early event.1 → rule before event) : Guarded rule events :=
  guarded_of_forall rule events (fun before event member => free before event (early event member))

/-- The one call of the presence check, and the only reply to it that grants. -/
theorem presenceStatus_calls (cid : UInt32) :
    Ensures anyReply [] (presenceStatus cid) (fun events status =>
      ∃ result, events = [⟨.pressWait cid, result⟩] ∧ (status = .ok () → result = pressOk)) := by
  simp only [presenceStatus, pressWait, Program.perform_bind, ensures_call, Program.pure_eq,
    ensures_done, List.nil_append]
  intro result _
  refine ⟨result, rfl, ?_⟩
  intro granted
  by_cases pressed : result = pressOk
  · exact pressed
  · rw [if_neg pressed] at granted
    split at granted
    · cases granted
    · split at granted <;> cases granted

theorem presenceStatus_ensures (cid : UInt32) :
    Ensures anyReply [] (presenceStatus cid) (fun events status =>
      Preliminary events ∧ NoOpen events ∧
        (status = .ok () → (⟨.pressWait cid, pressOk⟩ : Event Reply) ∈ events)) := by
  refine (presenceStatus_calls cid).imp ?_
  rintro events status ⟨result, rfl, granted⟩
  refine ⟨by simp [Preliminary], by simp [NoOpen], ?_⟩
  intro ok
  rw [granted ok]
  exact List.mem_singleton.mpr rfl

end P4Key.Ctap
