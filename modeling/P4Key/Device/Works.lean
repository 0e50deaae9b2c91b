import P4Key.Ctap.Presence
import P4Key.Device.Assertion
import P4Key.Device.Registration

/-! What the commands do when all that can fail is the use of a scalar that is no key. -/

namespace P4Key.Device

open Memory CallProgram Cbor Ctap

variable {outside : Outside} {before : List (Event Ctap.Reply)}

/-- The call succeeded, unless it was for a scalar that is no key; the user consents. -/
def CommandWorks : Event Ctap.Reply → Prop
  | ⟨.p256Make, (error, _)⟩ => error = cryptoOk
  | ⟨.credWrap _ scalar, (error, _)⟩ => Crypto.scalarValid scalar.toList = true → error = credOk
  | ⟨.p256SignHash scalar _, (error, _)⟩ => Crypto.scalarValid scalar.toList = true → error = cryptoOk
  | event => CommandSucceeds event

abbrev Obliging (outside : Outside) (event : Event Ctap.Reply) : Prop :=
  CommandSound outside event ∧ CommandWorks event

/-! Registrations. -/

section Registrations

open Ctap.MakeCredential

def Excluded (outside : Outside) (rpHash : Bytes 32) (items : List Desc) : Prop :=
  ∃ item ∈ items, item.publicKey = true ∧
    ∃ scalar, Cred.IsCredential outside.scheme outside.root rpHash scalar item.id

theorem excluded_cons (rpHash : Bytes 32) (item : Desc) (rest : List Desc) :
    Excluded outside rpHash (item :: rest) ↔
      (item.publicKey = true ∧
        ∃ scalar, Cred.IsCredential outside.scheme outside.root rpHash scalar item.id) ∨
      Excluded outside rpHash rest := by
  simp only [Excluded, List.mem_cons, exists_eq_or_imp]

theorem checkExclude_finds (rpHash : Bytes 32) (items : List Desc) (excluded : Bool) :
    Ensures (Obliging outside) before (checkExclude rpHash items excluded) fun _ result =>
      ∃ found, result = .ok found ∧ (found = true ↔ excluded = true ∨ Excluded outside rpHash items) := by
  induction items generalizing before excluded with
  | nil => exact ⟨excluded, rfl, by simp [Excluded]⟩
  | cons item rest ih =>
      rw [checkExclude]
      by_cases foreign : !item.publicKey ∨ item.id.length ≠ credIdLen
      · rw [if_pos foreign]
        have none : ¬ (item.publicKey = true ∧
            ∃ scalar, Cred.IsCredential outside.scheme outside.root rpHash scalar item.id) := by
          rintro ⟨key, scalar, -, nonce, same⟩
          rw [key, same, Cred.length_credentialId] at foreign
          simp at foreign
        refine (ih excluded).imp ?_
        rintro events result ⟨found, rfl, same⟩
        refine ⟨found, rfl, ?_⟩
        rw [same, excluded_cons, or_iff_right none]
      · rw [if_neg foreign]
        have key : item.publicKey = true := by
          by_contra other
          exact foreign (Or.inl (by simp [other]))
        simp only [Ctap.credOpen, Program.perform_bind, ensures_call]
        intro reply legal
        have sound : (reply.1 = credOk ∧
            Cred.IsCredential outside.scheme outside.root rpHash reply.2 item.id) ∨
            reply.1 = credErrMismatch ∧
            ∀ scalar, ¬ Cred.IsCredential outside.scheme outside.root rpHash scalar item.id := legal.1
        rcases sound with ⟨opened, credential⟩ | ⟨denied, none⟩
        · rw [if_pos opened]
          refine (ih true).imp ?_
          rintro events result ⟨found, rfl, same⟩
          refine ⟨found, rfl, ?_⟩
          rw [same, excluded_cons]
          exact iff_of_true (Or.inl rfl) (Or.inr (Or.inl ⟨key, reply.2, credential⟩))
        · have failed : ¬ credErrMismatch = credOk := by decide
          rw [denied, if_neg failed, if_neg (not_not.mpr rfl)]
          refine (ih excluded).imp ?_
          rintro events result ⟨found, rfl, same⟩
          refine ⟨found, rfl, ?_⟩
          have other : ¬ (item.publicKey = true ∧
              ∃ scalar, Cred.IsCredential outside.scheme outside.root rpHash scalar item.id) :=
            fun credential => credential.2.elim none
          rw [same, excluded_cons, or_iff_right other]

theorem presenceStatus_grants (cid : UInt32) :
    Ensures (Obliging outside) before (presenceStatus cid) fun _ status => status = .ok () := by
  simp only [presenceStatus, Ctap.pressWait, Program.perform_bind, ensures_call, Program.pure_eq,
    ensures_done]
  intro result legal
  have pressed : result = pressOk := legal.2
  rw [if_pos pressed]

theorem respond_completes (cid : UInt32) (rpHash : Bytes 32) (keys : KeyPair) (id : Bytes 100)
    (response : List UInt8) (responseCap : Nat) (room : responseLen ≤ responseCap)
    (small : responseCap ≤ maxBytes) (backed : responseCap ≤ response.length) :
    Ensures (Obliging outside) before (respond cid rpHash keys id response responseCap)
      fun _ outcome => outcome.code = .ok := by
  have put := putResponse_eq (authDataBytes rpHash id keys.x keys.y) response responseCap
    (length_authDataBytes rpHash id keys.x keys.y) backed room small
  simp only [respond, Ctap.pressCancelled, Program.perform_bind, ensures_call]
  intro first legal
  have calm : first = false := legal.2
  simp only [calm, Bool.false_eq_true, if_false, putCose_eq, put, Bool.not_true, ensures_call]
  intro second legal
  have calm : second = false := legal.2
  simp only [calm, Bool.false_eq_true, if_false, Program.pure_eq, ensures_done]

theorem registerKey_completes (cid : UInt32) (rpHash : Bytes 32) (response : List UInt8)
    (responseCap : Nat) (room : responseLen ≤ responseCap) (small : responseCap ≤ maxBytes)
    (backed : responseCap ≤ response.length) :
    Ensures (Obliging outside) before (registerKey cid rpHash response responseCap)
      fun _ outcome => outcome.code = .ok := by
  simp only [registerKey, Ctap.pressCancelled, Ctap.p256Make, Ctap.credWrap, Program.perform_bind,
    ensures_call]
  intro first legal
  have calm : first = false := legal.2
  simp only [calm, Bool.false_eq_true, if_false, ensures_call]
  intro made legal
  have ok : made.1 = cryptoOk := legal.2
  have pair : made.1 = cryptoOk → IsKeyPair outside made.2 := legal.1
  simp only [ok, ne_eq, not_true_eq_false, if_false, ensures_call]
  intro second legal
  have calm : second = false := legal.2
  simp only [calm, Bool.false_eq_true, if_false, ensures_call]
  intro wrapped legal
  have works : Crypto.scalarValid made.2.scalar.toList = true → wrapped.1 = credOk := legal.2
  simp only [works (pair ok).1, not_true_eq_false, if_false]
  exact respond_completes cid rpHash made.2 wrapped.2 response responseCap room small backed

/-- A registration fails only if one of the excluded credentials is its own. -/
theorem makeCredential_completes (cid : UInt32) (request response : List UInt8) (responseCap : Nat)
    (parsed : Request) (accepted : readRequest request = .ok parsed) (room : responseLen ≤ responseCap)
    (small : responseCap ≤ maxBytes) (backed : responseCap ≤ response.length) :
    Ensures (Obliging outside) before (makeCredential cid request response responseCap) fun _ outcome =>
      (Excluded outside (outside.hash parsed.rpId) parsed.exclude →
        outcome = .stop .credentialExcluded response) ∧
      (¬ Excluded outside (outside.hash parsed.rpId) parsed.exclude → outcome.code = .ok) := by
  rw [makeCredential, if_neg (by omega), accepted]
  simp only [register, Ctap.sha256Sum, Program.perform_bind, ensures_call]
  intro hashed legal
  have ok : hashed.1 = cryptoOk := legal.2
  have digest : hashed.1 = cryptoOk → hashed.2 = outside.hash parsed.rpId := legal.1
  simp only [ok, ne_eq, not_true_eq_false, if_false]
  rw [digest ok]
  apply (ensures_bind _ _ _).mpr
  refine (checkExclude_finds (outside.hash parsed.rpId) parsed.exclude false).imp ?_
  rintro events result ⟨found, rfl, same⟩
  rw [or_iff_right Bool.false_ne_true] at same
  apply (ensures_bind _ _ _).mpr
  refine (presenceStatus_grants cid).imp ?_
  rintro events status rfl
  dsimp only
  cases found with
  | true => exact ⟨fun _ => rfl, fun none => absurd (same.mp rfl) none⟩
  | false =>
      have none : ¬ Excluded outside (outside.hash parsed.rpId) parsed.exclude :=
        fun excluded => Bool.false_ne_true (same.mpr excluded)
      refine (registerKey_completes cid (outside.hash parsed.rpId) response responseCap room small
        backed).imp ?_
      intro events outcome done
      exact ⟨fun excluded => absurd excluded none, fun _ => done⟩

end Registrations

/-! Assertions. -/

/-- An assertion signs only with scalars that a credential held, and those are keys. -/
theorem getAssertion_granted {cid : UInt32} {request response : List UInt8} {responseCap : Nat}
    {events : List (Event Ctap.Reply)} {outcome : Outcome}
    (run : Execution (getAssertion cid request response responseCap) events outcome)
    (obliging : ∀ event ∈ events, Obliging outside event) :
    ∀ event ∈ events, Granted outside event := by
  have guarded := ((ensures_iff _ _).mp (getAssertion_ensures cid request response responseCap)
    events outcome run fun _ _ => trivial).1
  rintro ⟨call, reply⟩ member
  rcases obliging _ member with ⟨sound, works⟩
  refine ⟨sound, ?_⟩
  cases call with
  | p256SignHash scalar digest =>
      obtain ⟨before, after, rfl⟩ := List.append_of_mem member
      obtain ⟨parsed, rpHash, item, -, -, -, opened, -⟩ := guarded before _ after rfl
      rcases (obliging _ (List.mem_append_left _ opened)).1 with ⟨-, valid, -⟩ | ⟨impossible, -⟩
      · exact works valid
      · exact absurd impossible (by decide)
  | p256Make => exact trivial
  | credWrap rpHash scalar => exact trivial
  | _ => exact works

/-- What holds of an assertion when every call succeeds holds of it now. -/
theorem getAssertion_obliged {cid : UInt32} {request response : List UInt8} {responseCap : Nat}
    {post : Outcome → Prop}
    (holds : Ensures (Granted outside) [] (getAssertion cid request response responseCap)
      fun _ outcome => post outcome) :
    Ensures (Obliging outside) [] (getAssertion cid request response responseCap)
      fun _ outcome => post outcome := by
  refine (ensures_iff _ _).mpr fun events outcome run obliging => ?_
  exact (ensures_iff _ _).mp holds events outcome run (getAssertion_granted run obliging)

end P4Key.Device
