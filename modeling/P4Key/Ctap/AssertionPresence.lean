import P4Key.Ctap.Authorised

/-! An assertion signs only behind an opened credential and a granted presence check. -/

namespace P4Key.Ctap

open Memory CallProgram

namespace GetAssertion

theorem findCred_ensures (rpHash : Bytes 32) (items : List Desc) :
    Ensures anyReply [] (findCred rpHash items) (fun events result =>
      Preliminary events ∧ ∀ id scalar, result = .ok (id, scalar) →
        ∃ item ∈ items, item.id = id ∧
          (⟨.credOpen rpHash item.id, (credOk, scalar)⟩ : Event Reply) ∈ events) := by
  induction items with
  | nil => exact ⟨by simp [Preliminary], by intro id scalar impossible; cases impossible⟩
  | cons item rest ih =>
      rw [findCred]
      split
      · refine ih.imp ?_
        rintro events result ⟨early, found⟩
        refine ⟨early, ?_⟩
        intro id scalar opened
        obtain ⟨other, member, same, called⟩ := found id scalar opened
        exact ⟨other, List.mem_cons_of_mem _ member, same, called⟩
      · simp only [credOpen, Program.perform_bind, ensures_call, List.nil_append]
        rintro ⟨error, scalar⟩ _
        by_cases ok : error = credOk
        · simp only [ok, if_true, Program.pure_eq, ensures_done]
          refine ⟨by simp [Preliminary], ?_⟩
          intro id scalar' same
          cases same
          exact ⟨item, List.mem_cons_self, rfl, List.mem_cons_self⟩
        · simp only [if_neg ok]
          split
          · exact ⟨by simp [Preliminary], by intro id scalar' impossible; cases impossible⟩
          · refine (ensures_shift _ _).mpr (ih.imp ?_)
            rintro events result ⟨early, found⟩
            refine ⟨Preliminary.append (by simp [Preliminary]) early, ?_⟩
            intro id scalar' opened
            obtain ⟨other, member, same, called⟩ := found id scalar' opened
            exact ⟨other, List.mem_cons_of_mem _ member, same, List.mem_append_right _ called⟩

theorem respond_ensures (cid : UInt32) (rpHash : Bytes 32) (credentialId : List UInt8)
    (signature : Signature) (response : List UInt8) (responseCap : Nat) :
    Ensures anyReply [] (respond cid rpHash credentialId signature response responseCap)
      (fun events outcome => NoSignature events ∧ (outcome.code = .ok → NotCancelled events)) := by
  simp only [respond, pressCancelled, Program.perform_bind, ensures_call, List.nil_append]
  intro first _
  cases first with
  | true =>
      exact ⟨by simp [NoSignature], by intro impossible; cases impossible⟩
  | false =>
      rcases putResponse credentialId (authData rpHash)
        (signature.bytes.toList.take signature.len) response responseCap with ⟨ok, built, len⟩
      cases ok with
      | false => exact ⟨by simp [NoSignature], by intro impossible; cases impossible⟩
      | true =>
          simp only [Bool.false_eq_true, if_false, Bool.not_true, ensures_call]
          intro second _
          cases second with
          | true => exact ⟨by simp [NoSignature], by intro impossible; cases impossible⟩
          | false => exact ⟨by simp [NoSignature], by intro _; simp [NotCancelled]⟩

/-- The rule of `signRule` from the presence check on, where the scalar is known. -/
def tailRule (rpHash : Bytes 32) (clientHash : List UInt8) (privateScalar : Bytes 32)
    (before : Calls) : Event Reply → Prop
  | ⟨.p256SignHash scalar digest, _⟩ =>
    scalar = privateScalar ∧
      (⟨.sha256Sum (signInput rpHash clientHash), (cryptoOk, digest)⟩ : Event Reply) ∈ before ∧
      NotCancelled before ∧ NoSignature before
  | _ => True

theorem tailRule_of_noSignature {rpHash : Bytes 32} {clientHash : List UInt8}
    {privateScalar : Bytes 32} {events : Calls} (none : NoSignature events) (first : Calls) :
    Guarded (fun before => tailRule rpHash clientHash privateScalar (first ++ before)) events := by
  apply guarded_of_forall
  rintro before ⟨call, reply⟩ member
  cases call with
  | p256SignHash scalar digest => exact absurd member (none scalar digest reply)
  | _ => trivial

theorem signAssertion_ensures (cid : UInt32) (parsed : Request) (rpHash : Bytes 32)
    (credentialId : List UInt8) (privateScalar : Bytes 32) (response : List UInt8)
    (responseCap : Nat) :
    Ensures anyReply []
      (signAssertion cid parsed rpHash credentialId privateScalar response responseCap)
      (fun events outcome =>
        Guarded (tailRule rpHash parsed.clientHash privateScalar) events ∧
        (outcome.code = .ok → NotCancelled events ∧
          ∃ digest signature,
            (⟨.p256SignHash privateScalar digest, (cryptoOk, signature)⟩ : Event Reply) ∈ events)) := by
  simp only [signAssertion, pressCancelled, sha256Sum, p256SignHash, Program.perform_bind,
    ensures_call, List.nil_append]
  intro first _
  cases first with
  | true => exact ⟨by simp [tailRule], by intro impossible; cases impossible⟩
  | false =>
      simp only [Bool.false_eq_true, if_false, ensures_call]
      rintro ⟨hashError, digest⟩ _
      by_cases hashed : hashError = cryptoOk
      swap
      · simp only [ne_eq, hashed, not_false_eq_true, if_true, Program.pure_eq, ensures_done]
        exact ⟨by simp [tailRule], by intro impossible; cases impossible⟩
      subst hashed
      simp only [ne_eq, not_true_eq_false, if_false, ensures_call]
      intro second _
      cases second with
      | true => exact ⟨by simp [tailRule], by intro impossible; cases impossible⟩
      | false =>
          simp only [Bool.false_eq_true, if_false, ensures_call]
          rintro ⟨signError, signature⟩ _
          -- the four calls so far: the signature is the last of them
          have guarded : Guarded (tailRule rpHash parsed.clientHash privateScalar)
              ([⟨.pressCancelled cid, false⟩] ++
                [⟨.sha256Sum (signInput rpHash parsed.clientHash), (cryptoOk, digest)⟩] ++
                [⟨.pressCancelled cid, false⟩] ++
                [⟨.p256SignHash privateScalar digest, (signError, signature)⟩]) := by
            simp [tailRule, NotCancelled, NoSignature]
          split
          · exact ⟨guarded, by intro impossible; cases impossible⟩
          · rename_i good
            simp only [not_or, not_not] at good
            refine (ensures_shift _ _).mpr ((respond_ensures cid rpHash credentialId signature
              response responseCap).imp ?_)
            rintro events outcome ⟨none, calm⟩
            refine ⟨(guarded_append _ _ _).mpr ⟨guarded, tailRule_of_noSignature none _⟩, ?_⟩
            intro success
            refine ⟨?_, digest, signature, by simp [good.1]⟩
            exact NotCancelled.append (by simp [NotCancelled]) (calm success)

theorem assertCredential_ensures (cid : UInt32) (request : List UInt8) (parsed : Request)
    (accepted : readRequest request = .ok parsed) (response : List UInt8) (responseCap : Nat) :
    Ensures anyReply [] (assertCredential cid parsed response responseCap) (fun events outcome =>
      Guarded (signRule cid request) events ∧
      (outcome.code = .ok → NotCancelled events ∧
        ∃ scalar digest signature,
          (⟨.p256SignHash scalar digest, (cryptoOk, signature)⟩ : Event Reply) ∈ events)) := by
  have free : ∀ before event, Early event.1 → signRule cid request before event := by
    rintro before ⟨call, reply⟩ kind
    cases call with
    | p256SignHash scalar digest => exact absurd kind id
    | _ => trivial
  have stopped : ∀ (events : Calls) (refusal : Refusal), Preliminary events →
      Guarded (signRule cid request) events ∧
      ((Outcome.stop refusal response).code = .ok → NotCancelled events ∧
        ∃ scalar digest signature,
          (⟨.p256SignHash scalar digest, (cryptoOk, signature)⟩ : Event Reply) ∈ events) := by
    intro events refusal early
    exact ⟨early.guarded _ free, by intro impossible; cases impossible⟩
  simp only [assertCredential, sha256Sum, Program.perform_bind, ensures_call, List.nil_append]
  rintro ⟨hashError, rpHash⟩ _
  by_cases hashed : hashError = cryptoOk
  swap
  · simp only [ne_eq, hashed, not_false_eq_true, if_true, Program.pure_eq, ensures_done]
    exact stopped _ _ (by simp [Preliminary])
  subst hashed
  simp only [ne_eq, not_true_eq_false, if_false]
  refine (ensures_bind _ _ _).mpr ((ensures_shift _ _).mpr
    ((findCred_ensures rpHash parsed.allow).imp ?_))
  rintro opened result ⟨earlyOpen, found⟩
  have early : Preliminary
      ([⟨.sha256Sum parsed.rpId, (cryptoOk, rpHash)⟩] ++ opened) :=
    Preliminary.append (by simp [Preliminary]) earlyOpen
  cases result with
  | error refusal => exact stopped _ _ early
  | ok pair =>
      obtain ⟨credentialId, privateScalar⟩ := pair
      obtain ⟨item, inList, -, called⟩ := found credentialId privateScalar rfl
      refine (ensures_bind _ _ _).mpr ((ensures_shift _ _).mpr ((presenceStatus_ensures cid).imp ?_))
      rintro asked status ⟨earlyPresence, -, granted⟩
      have earlier := Preliminary.append early earlyPresence
      cases status with
      | error refusal => exact stopped _ _ earlier
      | ok _ =>
          refine (ensures_shift _ _).mpr ((signAssertion_ensures cid parsed rpHash credentialId
            privateScalar response responseCap).imp ?_)
          rintro events outcome ⟨guarded, success⟩
          refine ⟨(guarded_append _ _ _).mpr ⟨earlier.guarded _ free, ?_⟩, ?_⟩
          · rintro before ⟨call, reply⟩ after split
            have rule := guarded before _ after split
            cases call with
            | p256SignHash scalar digest =>
                obtain ⟨rfl, digested, calm, fresh⟩ := rule
                refine ⟨parsed, rpHash, item, accepted, ?_, inList, ?_, ?_, ?_,
                  earlier.notCancelled.append calm, earlier.noSignature.append fresh⟩
                · simp
                · simp [called]
                · simp [granted rfl]
                · rw [← signInput_eq rpHash _ (readRequest_clientHash request parsed accepted)]
                  simp [digested]
            | _ => trivial
          · intro done
            obtain ⟨calm, digest, signature, member⟩ := success done
            exact ⟨earlier.notCancelled.append calm, privateScalar, digest, signature,
              List.mem_append_right _ member⟩

end GetAssertion

end P4Key.Ctap
