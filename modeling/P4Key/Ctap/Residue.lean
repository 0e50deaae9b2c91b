import P4Key.Ctap.Answered

/-! What the commands leave in the response memory.

A command that does not succeed leaves no byte of its own there: nothing is written before the
last checks, and what was written before the last cancellation check is wiped. -/

namespace P4Key.Ctap

open Memory CallProgram Cbor

structure Leaves (response : List UInt8) (responseCap : Nat) (outcome : Outcome) : Prop where
  size : outcome.response.length = response.length
  beyond : outcome.response.drop responseCap = response.drop responseCap
  success : outcome.code = .ok → outcome.responseLen ≤ responseCap
  failure : outcome.code ≠ .ok → outcome.responseLen = 0 ∧
    ∀ i : Nat, outcome.response[i]? = response[i]? ∨ outcome.response[i]? = some 0

variable {response : List UInt8} {responseCap : Nat}

theorem Leaves.stop (refusal : Refusal) : Leaves response responseCap (.stop refusal response) where
  size := rfl
  beyond := rfl
  success := by
    intro impossible
    cases impossible
  failure := fun _ => ⟨rfl, fun _ => Or.inl rfl⟩

theorem drop_store_front (src : List UInt8) (fits : src.length ≤ responseCap) :
    (store response 0 src).drop responseCap = response.drop responseCap := by
  have split : responseCap = 0 + src.length + (responseCap - src.length) := by omega
  rw [split, ← List.drop_drop, drop_store, List.drop_drop]

theorem Leaves.built (encoded : List UInt8) (fits : encoded.length ≤ responseCap) :
    Leaves response responseCap ⟨.ok, store response 0 encoded, encoded.length⟩ where
  size := length_store _ _ _
  beyond := drop_store_front encoded fits
  success := fun _ => fits
  failure := fun failed => absurd rfl failed

theorem clear_store (encoded : List UInt8) (fits : encoded.length ≤ response.length) :
    clear (store response 0 encoded) encoded.length =
      zeros encoded.length ++ response.drop encoded.length := by
  rw [clear, store_fits _ 0 _ (by rw [length_store, length_zeros, Nat.zero_add]; exact fits),
    length_zeros, drop_store]
  simp

theorem Leaves.wiped (refusal : Refusal) (encoded : List UInt8)
    (fits : encoded.length ≤ responseCap) (backed : responseCap ≤ response.length) :
    Leaves response responseCap
      (.stop refusal (clear (store response 0 encoded) encoded.length)) where
  size := by
    show (clear (store response 0 encoded) encoded.length).length = response.length
    rw [clear, length_store, length_store]
  beyond := by
    show (clear (store response 0 encoded) encoded.length).drop responseCap = _
    have zero : (zeros encoded.length).length ≤ responseCap := by
      rw [length_zeros]
      exact fits
    rw [clear, drop_store_front _ zero, drop_store_front _ fits]
  success := by
    intro impossible
    cases impossible
  failure := by
    intro _
    refine ⟨rfl, fun i => ?_⟩
    show (clear (store response 0 encoded) encoded.length)[i]? = response[i]? ∨
      (clear (store response 0 encoded) encoded.length)[i]? = some 0
    rw [clear_store encoded (by omega)]
    by_cases front : i < encoded.length
    · right
      rw [List.getElem?_append_left (by rw [length_zeros]; exact front), zeros,
        List.getElem?_replicate, if_pos front]
    · left
      rw [List.getElem?_append_right (by rw [length_zeros]; omega), length_zeros,
        List.getElem?_drop]
      congr 1
      omega

theorem leaves_unlessCancelled {cid : UInt32} {rest : Command Outcome} {before : Calls}
    (continues : ∀ before, Ensures anyReply before rest
      fun _ outcome => Leaves response responseCap outcome) :
    Ensures anyReply before (pressCancelled cid >>= fun cancelled =>
        if cancelled then pure (.stop .keepaliveCancel response) else rest)
      (fun _ outcome => Leaves response responseCap outcome) := by
  simp only [pressCancelled, Program.perform_bind, ensures_call]
  intro cancelled _
  cases cancelled with
  | true => exact .stop _
  | false => exact continues _

namespace GetAssertion

theorem respond_leaves (cid : UInt32) (rpHash : Bytes 32) (credentialId : List UInt8)
    (size : credentialId.length = credIdLen) (signature : Signature) (short : signature.len ≤ 72)
    (room : responseMax ≤ responseCap) (backed : responseCap ≤ response.length) :
    Ensures anyReply [] (respond cid rpHash credentialId signature response responseCap)
      (fun _ outcome => Leaves response responseCap outcome) := by
  have sent : (Signature.sent signature).length ≤ 72 := by
    rw [Signature.length_sent signature short]
    exact short
  have fits := Nat.le_trans
    (length_assertion credentialId (Signature.sent signature) rpHash size sent) room
  rw [respond]
  refine leaves_unlessCancelled fun _ => ?_
  by_cases small : responseCap ≤ maxBytes
  · have put := putResponse_eq credentialId (Signature.sent signature) rpHash size sent response
      responseCap room small backed
    rw [Signature.sent] at put fits
    simp only [put, pressCancelled, Program.perform_bind, Bool.false_eq_true, if_false, Bool.not_true,
      ensures_call]
    intro second _
    cases second with
    | true => exact .wiped _ _ fits backed
    | false => exact .built _ fits
  · obtain ⟨len, put⟩ := putResponse_wide credentialId (authData rpHash)
      (Signature.sent signature) response responseCap (by omega)
    rw [Signature.sent] at put
    simp only [put, Bool.not_false, if_true]
    exact .stop _

theorem signAssertion_leaves (cid : UInt32) (parsed : Request) (rpHash scalar : Bytes 32)
    (credentialId : List UInt8) (size : credentialId.length = credIdLen)
    (room : responseMax ≤ responseCap) (backed : responseCap ≤ response.length)
    (before : Calls) :
    Ensures anyReply before
      (signAssertion cid parsed rpHash credentialId scalar response responseCap)
      (fun _ outcome => Leaves response responseCap outcome) := by
  rw [signAssertion]
  refine leaves_unlessCancelled fun _ => ?_
  simp only [sha256Sum, p256SignHash, Program.perform_bind, ensures_call]
  rintro ⟨hashError, digest⟩ _
  simp only
  split
  · exact .stop _
  · refine leaves_unlessCancelled fun _ => ?_
    simp only [ensures_call]
    rintro ⟨signError, signature⟩ _
    simp only
    split
    · exact .stop _
    · rename_i good
      exact (ensures_shift _ _).mpr
        (respond_leaves cid rpHash credentialId size signature (by omega) room backed)

end GetAssertion

open GetAssertion in
theorem getAssertion_leaves (cid : UInt32) (request : List UInt8)
    (backed : responseCap ≤ response.length) (before : Calls) :
    Ensures anyReply before (getAssertion cid request response responseCap)
      (fun _ outcome => Leaves response responseCap outcome) := by
  rw [getAssertion]
  split
  · exact ⟨rfl, rfl, (by intro impossible; cases impossible), fun _ => ⟨rfl, fun _ => Or.inl rfl⟩⟩
  · rename_i room
    cases readRequest request with
    | error refusal => exact .stop _
    | ok parsed =>
        simp only [assertCredential, sha256Sum, Program.perform_bind, ensures_call]
        rintro ⟨hashError, rpHash⟩ _
        simp only
        split
        · exact .stop _
        · refine (ensures_bind _ _ _).mpr ((ensures_shift _ _).mpr
            ((findCred_first rpHash parsed.allow).imp fun events found opened => ?_))
          cases found with
          | error refusal => exact .stop _
          | ok pair =>
              obtain ⟨id, scalar⟩ := pair
              obtain ⟨_, item, _, _, _, _, size, rfl, _⟩ := opened id scalar rfl
              refine (ensures_bind _ _ _).mpr ((ensures_true _).imp fun asked status _ => ?_)
              cases status with
              | error refusal => exact .stop _
              | ok _ =>
                  exact signAssertion_leaves cid parsed rpHash scalar item.id size (by omega)
                    backed _

namespace MakeCredential

theorem respond_leaves (cid : UInt32) (rpHash : Bytes 32) (keys : KeyPair)
    (credentialId : Bytes 100) (room : responseLen ≤ responseCap)
    (backed : responseCap ≤ response.length) (before : Calls) :
    Ensures anyReply before (respond cid rpHash keys credentialId response responseCap)
      (fun _ outcome => Leaves response responseCap outcome) := by
  have size := length_authDataBytes rpHash credentialId keys.x keys.y
  have encoded := length_attestation (authDataBytes rpHash credentialId keys.x keys.y) size
  rw [respond]
  refine leaves_unlessCancelled fun _ => ?_
  rw [putCose_eq]
  rcases putResponse_cases _ response responseCap size backed room with put | ⟨len, put⟩
  · simp only [put, pressCancelled, Program.perform_bind, Bool.false_eq_true, if_false, Bool.not_true,
      ensures_call]
    intro second _
    rw [← encoded]
    cases second with
    | true => exact .wiped _ _ (by rw [encoded]; exact room) backed
    | false => exact .built _ (by rw [encoded]; exact room)
  · simp only [put, Bool.false_eq_true, if_false, Bool.not_true, Bool.not_false, if_true]
    exact .stop _

theorem registerKey_leaves (cid : UInt32) (rpHash : Bytes 32) (room : responseLen ≤ responseCap)
    (backed : responseCap ≤ response.length) (before : Calls) :
    Ensures anyReply before (registerKey cid rpHash response responseCap)
      (fun _ outcome => Leaves response responseCap outcome) := by
  rw [registerKey]
  refine leaves_unlessCancelled fun _ => ?_
  simp only [p256Make, credWrap, Program.perform_bind, ensures_call]
  rintro ⟨makeError, keys⟩ _
  simp only
  split
  · exact .stop _
  · refine leaves_unlessCancelled fun _ => ?_
    simp only [ensures_call]
    rintro ⟨wrapError, credentialId⟩ _
    simp only
    split
    · exact .stop _
    · exact respond_leaves cid rpHash keys credentialId room backed _

end MakeCredential

open MakeCredential in
theorem makeCredential_leaves (cid : UInt32) (request : List UInt8)
    (backed : responseCap ≤ response.length) (before : Calls) :
    Ensures anyReply before (makeCredential cid request response responseCap)
      (fun _ outcome => Leaves response responseCap outcome) := by
  rw [makeCredential]
  split
  · exact ⟨rfl, rfl, (by intro impossible; cases impossible), fun _ => ⟨rfl, fun _ => Or.inl rfl⟩⟩
  · rename_i room
    cases readRequest request with
    | error refusal => exact .stop _
    | ok parsed =>
        simp only [register, sha256Sum, Program.perform_bind, ensures_call]
        rintro ⟨hashError, rpHash⟩ _
        simp only
        split
        · exact .stop _
        · refine (ensures_bind _ _ _).mpr ((ensures_true _).imp fun events checked _ => ?_)
          cases checked with
          | error refusal => exact .stop _
          | ok excluded =>
              refine (ensures_bind _ _ _).mpr ((ensures_true _).imp fun asked status _ => ?_)
              cases status with
              | error refusal => exact .stop _
              | ok _ =>
                  cases excluded with
                  | true => exact .stop _
                  | false => exact registerKey_leaves cid rpHash (by omega) backed _

/-- A command that fails leaves no response behind, and no command writes behind the capacity. -/
theorem failed_commands_leave_nothing (cid : UInt32) (request response : List UInt8)
    (responseCap : Nat) (backed : responseCap ≤ response.length)
    (events : Calls) (outcome : Outcome)
    (run : Execution (makeCredential cid request response responseCap) events outcome ∨
      Execution (getAssertion cid request response responseCap) events outcome) :
    outcome.response.length = response.length ∧
    outcome.response.drop responseCap = response.drop responseCap ∧
    (outcome.code ≠ .ok → outcome.responseLen = 0 ∧
      ∀ i : Nat, outcome.response[i]? = response[i]? ∨ outcome.response[i]? = some 0) := by
  have leaves : Leaves response responseCap outcome := by
    rcases run with registered | asserted
    · exact (ensures_iff _ _).mp (makeCredential_leaves cid request backed []) events outcome
        registered (fun _ _ => trivial)
    · exact (ensures_iff _ _).mp (getAssertion_leaves cid request backed []) events outcome
        asserted (fun _ _ => trivial)
  exact ⟨leaves.size, leaves.beyond, leaves.failure⟩

def cancellingReplies (count : Nat) : (c : Call) → Reply c
  | .pressCancelled _ => count == 7
  | c => consentingReplies c

def cancelledRegistration : Outcome :=
  (makeCredential 5 sampleRegistration (List.replicate 300 9) 300).valueAt cancellingReplies 0

set_option maxRecDepth 10000 in
theorem cancelled_registration_leaves_nothing :
    cancelledRegistration.code = .refused .keepaliveCancel ∧
      cancelledRegistration.response.take 244 = zeros 244 ∧
      cancelledRegistration.responseLen = 0 ∧
      ∀ i : Nat, cancelledRegistration.response[i]? = (List.replicate 300 9)[i]? ∨
        cancelledRegistration.response[i]? = some 0 := by
  obtain ⟨events, run⟩ := execution_valueAt cancellingReplies 0
    (makeCredential 5 sampleRegistration (List.replicate 300 9) 300)
  have nothing := (failed_commands_leave_nothing 5 sampleRegistration (List.replicate 300 9) 300
    (by decide) events _ (Or.inl run)).2.2 (by decide +kernel)
  exact ⟨by decide +kernel, by decide +kernel, nothing⟩

end P4Key.Ctap
