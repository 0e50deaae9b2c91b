import P4Key.Ctap.Authorised

/-! A registration makes and wraps a key only behind a granted presence check. -/

namespace P4Key.Ctap

open Memory CallProgram

namespace MakeCredential

theorem checkExclude_ensures (rpHash : Bytes 32) (items : List Desc) (excluded : Bool) :
    Ensures anyReply [] (checkExclude rpHash items excluded) (fun events result =>
      Preliminary events ∧ (result = .ok false → excluded = false ∧ NoOpen events)) := by
  induction items generalizing excluded with
  | nil => exact ⟨by simp [Preliminary], by intro same; cases same; simp [NoOpen]⟩
  | cons item rest ih =>
      rw [checkExclude]
      split
      · exact ih excluded
      · simp only [credOpen, Program.perform_bind, ensures_call, List.nil_append]
        rintro ⟨error, scalar⟩ _
        by_cases ok : error = credOk
        · simp only [if_pos ok]
          refine (ensures_shift _ _).mpr ((ih true).imp ?_)
          rintro events result ⟨early, none⟩
          exact ⟨Preliminary.append (by simp [Preliminary]) early,
            fun same => absurd (none same).1 (by decide)⟩
        · simp only [if_neg ok]
          split
          · exact ⟨by simp [Preliminary], by intro impossible; cases impossible⟩
          · refine (ensures_shift _ _).mpr ((ih excluded).imp ?_)
            rintro events result ⟨early, none⟩
            refine ⟨Preliminary.append (by simp [Preliminary]) early, ?_⟩
            intro same
            refine ⟨(none same).1, NoOpen.append ?_ (none same).2⟩
            simp [NoOpen, Ne.symm ok]

def Closing (events : Calls) : Prop :=
  ∀ event ∈ events, match event.1 with
    | .pressCancelled _ => True
    | _ => False

theorem Closing.late {events : Calls} (closing : Closing events) :
    ∀ event ∈ events, ¬ Early event.1 := by
  rintro ⟨call, reply⟩ member
  have kind := closing _ member
  cases call with
  | pressCancelled cid => exact id
  | _ => exact absurd kind id

theorem stop_unexcluded {refusal : Refusal} (other : refusal ≠ .credentialExcluded)
    (response : List UInt8) : (Outcome.stop refusal response).code ≠ .refused .credentialExcluded := by
  intro same
  exact other (Code.refused.inj same)

structure Responded (events : Calls) (outcome : Outcome) : Prop where
  closing : Closing events
  calm : outcome.code = .ok → NotCancelled events
  unexcluded : outcome.code ≠ .refused .credentialExcluded

theorem Responded.stop {events : Calls} (closing : Closing events) {refusal : Refusal}
    (other : refusal ≠ .credentialExcluded) (response : List UInt8) :
    Responded events (.stop refusal response) :=
  ⟨closing, (by intro impossible; cases impossible), stop_unexcluded other response⟩

theorem respond_ensures (cid : UInt32) (rpHash : Bytes 32) (keys : KeyPair)
    (credentialId : Bytes 100) (response : List UInt8) (responseCap : Nat) :
    Ensures anyReply [] (respond cid rpHash keys credentialId response responseCap)
      Responded := by
  simp only [respond, pressCancelled, Program.perform_bind, ensures_call, List.nil_append]
  intro first _
  cases first with
  | true => exact .stop (by simp [Closing]) (by decide) response
  | false =>
      rcases putCose keys (authDataHead rpHash credentialId) with ⟨okCose, authData⟩
      rcases putResponse authData response responseCap with ⟨ok, built, len⟩
      cases okCose with
      | false => exact .stop (by simp [Closing]) (by decide) response
      | true =>
          cases ok with
          | false => exact .stop (by simp [Closing]) (by decide) built
          | true =>
              simp only [Bool.false_eq_true, if_false, Bool.not_true, ensures_call]
              intro second _
              cases second with
              | true => exact .stop (by simp [Closing]) (by decide) (clear built len)
              | false =>
                  exact ⟨by simp [Closing], fun _ => by simp [NotCancelled],
                    fun impossible => by cases impossible⟩

/-- The rule of `keyRule` from the presence check on. -/
def tailRule (before : Calls) : Event Reply → Prop
  | ⟨.p256Make, _⟩ => NoOpen before ∧ NotCancelled before
  | ⟨.credWrap _ _, _⟩ => NoOpen before ∧ NotCancelled before
  | _ => True

theorem tailRule_of_closing {events : Calls} (closing : Closing events) (first : Calls) :
    Guarded (fun before => tailRule (first ++ before)) events := by
  apply guarded_of_forall
  rintro before ⟨call, reply⟩ member
  have kind := closing _ member
  cases call with
  | pressCancelled cid => trivial
  | _ => exact absurd kind id

structure KeyRegistered (rpHash : Bytes 32) (events : Calls) (outcome : Outcome) : Prop where
  guarded : Guarded tailRule events
  success : outcome.code = .ok → NotCancelled events ∧
    ∃ keys id, (⟨.p256Make, (cryptoOk, keys)⟩ : Event Reply) ∈ events ∧
      (⟨.credWrap rpHash keys.scalar, (credOk, id)⟩ : Event Reply) ∈ events
  late : ∀ event ∈ events, ¬ Early event.1
  unexcluded : outcome.code ≠ .refused .credentialExcluded

theorem KeyRegistered.stop {rpHash : Bytes 32} {events : Calls} (guarded : Guarded tailRule events)
    (late : ∀ event ∈ events, ¬ Early event.1) {refusal : Refusal}
    (other : refusal ≠ .credentialExcluded) (response : List UInt8) :
    KeyRegistered rpHash events (.stop refusal response) :=
  ⟨guarded, (by intro impossible; cases impossible), late, stop_unexcluded other response⟩

theorem registerKey_ensures (cid : UInt32) (rpHash : Bytes 32) (response : List UInt8)
    (responseCap : Nat) :
    Ensures anyReply [] (registerKey cid rpHash response responseCap) (KeyRegistered rpHash) := by
  simp only [registerKey, pressCancelled, p256Make, credWrap, Program.perform_bind, ensures_call,
    List.nil_append]
  intro first _
  cases first with
  | true => exact .stop (by simp [tailRule]) (by simp) (by decide) response
  | false =>
      simp only [Bool.false_eq_true, if_false, ensures_call]
      rintro ⟨makeError, keys⟩ _
      by_cases made : makeError = cryptoOk
      swap
      · simp only [ne_eq, made, not_false_eq_true, if_true, Program.pure_eq, ensures_done]
        exact .stop (by simp [tailRule, NoOpen, NotCancelled]) (by simp) (by decide) response
      subst made
      simp only [ne_eq, not_true_eq_false, if_false, ensures_call]
      intro second _
      cases second with
      | true =>
          exact .stop (by simp [tailRule, NoOpen, NotCancelled]) (by simp) (by decide) response
      | false =>
          simp only [Bool.false_eq_true, if_false, ensures_call]
          rintro ⟨wrapError, id⟩ _
          have guarded : Guarded tailRule
              ([⟨.pressCancelled cid, false⟩] ++ [⟨.p256Make, (cryptoOk, keys)⟩] ++
                [⟨.pressCancelled cid, false⟩] ++
                [⟨.credWrap rpHash keys.scalar, (wrapError, id)⟩]) := by
            simp [tailRule, NoOpen, NotCancelled]
          by_cases wrapped : wrapError = credOk
          swap
          · simp only [wrapped, not_false_eq_true, if_true, Program.pure_eq, ensures_done]
            exact .stop guarded (by simp) (by decide) response
          subst wrapped
          simp only [not_true_eq_false, if_false]
          refine (ensures_shift _ _).mpr ((respond_ensures cid rpHash keys id response
            responseCap).imp ?_)
          intro events outcome responded
          refine ⟨(guarded_append _ _ _).mpr ⟨guarded, tailRule_of_closing responded.closing _⟩,
            ?_, List.forall_mem_append.mpr ⟨by simp, responded.closing.late⟩, responded.unexcluded⟩
          intro success
          exact ⟨NotCancelled.append (by simp [NotCancelled]) (responded.calm success), keys, id,
            by simp, by simp⟩

theorem register_ensures (cid : UInt32) (request : List UInt8) (parsed : Request)
    (accepted : readRequest request = .ok parsed) (response : List UInt8) (responseCap : Nat) :
    Ensures anyReply [] (register cid parsed response responseCap) (fun events outcome =>
      Guarded (keyRule cid request) events ∧ (outcome.code = .ok → NotCancelled events ∧
        ∃ rpHash keys id, (⟨.p256Make, (cryptoOk, keys)⟩ : Event Reply) ∈ events ∧
          (⟨.credWrap rpHash keys.scalar, (credOk, id)⟩ : Event Reply) ∈ events)) := by
  have free : ∀ before event, Early event.1 → keyRule cid request before event := by
    rintro before ⟨call, reply⟩ kind
    cases call with
    | p256Make => exact absurd kind id
    | credWrap rpHash scalar => exact absurd kind id
    | _ => trivial
  have stopped : ∀ (events : Calls) (refusal : Refusal), Preliminary events →
      Guarded (keyRule cid request) events ∧
      ((Outcome.stop refusal response).code = .ok → NotCancelled events ∧
        ∃ rpHash keys id, (⟨.p256Make, (cryptoOk, keys)⟩ : Event Reply) ∈ events ∧
          (⟨.credWrap rpHash keys.scalar, (credOk, id)⟩ : Event Reply) ∈ events) := by
    intro events refusal early
    exact ⟨early.guarded _ free, by intro impossible; cases impossible⟩
  simp only [register, sha256Sum, Program.perform_bind, ensures_call, List.nil_append]
  rintro ⟨hashError, rpHash⟩ _
  by_cases hashed : hashError = cryptoOk
  swap
  · simp only [ne_eq, hashed, not_false_eq_true, if_true, Program.pure_eq, ensures_done]
    exact stopped _ _ (by simp [Preliminary])
  subst hashed
  simp only [ne_eq, not_true_eq_false, if_false]
  refine (ensures_bind _ _ _).mpr ((ensures_shift _ _).mpr
    ((checkExclude_ensures rpHash parsed.exclude false).imp ?_))
  rintro opened result ⟨earlyOpen, none⟩
  have early : Preliminary ([⟨.sha256Sum parsed.rpId, (cryptoOk, rpHash)⟩] ++ opened) :=
    Preliminary.append (by simp [Preliminary]) earlyOpen
  cases result with
  | error refusal => exact stopped _ _ early
  | ok excluded =>
      refine (ensures_bind _ _ _).mpr ((ensures_shift _ _).mpr ((presenceStatus_ensures cid).imp ?_))
      rintro asked status ⟨earlyPresence, unasked, granted⟩
      have earlier := Preliminary.append early earlyPresence
      cases status with
      | error refusal => exact stopped _ _ earlier
      | ok _ =>
          cases excluded with
          | true => exact stopped _ _ earlier
          | false =>
              have closed : NoOpen ([⟨.sha256Sum parsed.rpId, (cryptoOk, rpHash)⟩] ++ opened ++ asked) :=
                NoOpen.append (NoOpen.append (by simp [NoOpen]) (none rfl).2) unasked
              refine (ensures_shift _ _).mpr ((registerKey_ensures cid rpHash response
                responseCap).imp ?_)
              intro events outcome registered
              have authorised : ∀ before, NoOpen before ∧ NotCancelled before →
                  KeyAuthorised cid request
                    ([⟨.sha256Sum parsed.rpId, (cryptoOk, rpHash)⟩] ++ opened ++ asked ++ before) := by
                rintro before ⟨unopened, calm⟩
                refine ⟨parsed, rpHash, accepted, by simp, by simp [granted rfl],
                  closed.append unopened, earlier.notCancelled.append calm⟩
              refine ⟨(guarded_append _ _ _).mpr ⟨earlier.guarded _ free, ?_⟩, ?_⟩
              · rintro before ⟨call, reply⟩ after split
                have rule := registered.guarded before _ after split
                cases call with
                | p256Make => exact authorised before rule
                | credWrap _ _ => exact authorised before rule
                | _ => trivial
              · intro done
                obtain ⟨calm, keys, id, made, wrapped⟩ := registered.success done
                exact ⟨earlier.notCancelled.append calm, rpHash, keys, id,
                  List.mem_append_right _ made, List.mem_append_right _ wrapped⟩

end MakeCredential

end P4Key.Ctap
