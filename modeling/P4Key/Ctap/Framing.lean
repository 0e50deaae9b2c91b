import P4Key.Ctap.Dispatch
import P4Key.Ctap.Residue

/-! What `p4_ctap_dispatch` returns: a negative error, or one framed reply.

The commands write behind the status byte, into what is left of the capacity; each keeps to that
part of the memory, so the frame keeps to the whole. -/

namespace P4Key.Ctap

open Memory CallProgram Cbor

namespace GetInfo

def infoItems : List Item :=
  [.map 8, .uint 1, .array 1, .text fidoText, .uint 3, .bytes aaguid, .uint 4, .map 2,
    .text rkText, .bool false, .text upText, .bool true, .uint 5, .uint maxMessage, .uint 7,
    .uint maxCredentialsInList, .uint 8, .uint maxCredentialIdLen, .uint 9, .array 1,
    .text usbText, .uint 10, .array 1, .map 2, .text algText, .int (-7), .text typeText,
    .text publicKeyText]

theorem putInfo_eq : putInfo = putItems infoItems := by
  simp only [infoItems, putItems_cons_cons, putItems_singleton]
  simp only [putInfo, putVersions, putOptions, putLimits, putAlgorithms, Put.andThen_assoc]
  rfl

/-- `p4_ctap_get_info` writes inside its capacity, also when it fails half way. -/
theorem getInfo_within (response : List UInt8) (responseCap : Nat) :
    (getInfo response responseCap).2.1.length = response.length ∧
    (getInfo response responseCap).2.1.drop responseCap = response.drop responseCap ∧
    (getInfo response responseCap).2.2 ≤ responseCap := by
  rw [getInfo, putInfo_eq]
  split
  · exact ⟨rfl, rfl, Nat.zero_le _⟩
  · have keeps := putItems_within infoItems (writerInit response responseCap)
    rcases put : putItems infoItems (writerInit response responseCap) with ⟨ok, writer⟩
    rw [put] at keeps
    have inside : writer.len ≤ responseCap := keeps.inside (Nat.zero_le _)
    have sent : writerLen writer ≤ responseCap := by
      rw [writerLen]
      split
      · exact inside
      · exact Nat.zero_le _
    simp only
    split
    · exact ⟨keeps.size, keeps.beyond, sent⟩
    · exact ⟨keeps.size, keeps.beyond, Nat.zero_le _⟩

end GetInfo

structure Framed (response : List UInt8) (responseCap : Nat) (answer : Answer) : Prop where
  size : answer.response.length = response.length
  beyond : answer.response.drop responseCap = response.drop responseCap
  failed : answer.error ≠ none → answer.responseLen = 0
  replied : answer.error = none → 1 ≤ answer.responseLen ∧
    answer.responseLen ≤ min responseCap maxMessage ∧
    ∃ status, answer.response[0]? = some status ∧ (status ≠ statusOk → answer.responseLen = 1)

section Frames

variable {response : List UInt8} {responseCap : Nat}

theorem store_behind (built : List UInt8) (size : built.length = response.length - 1)
    (backed : 1 ≤ response.length) : store response 1 built = response.take 1 ++ built := by
  rw [store_fits response 1 built (by omega), List.drop_of_length_le (by omega), List.append_nil]

theorem store_behind_beyond (built : List UInt8) (cborCap : Nat)
    (size : built.length = (response.drop 1).length)
    (beyond : built.drop cborCap = (response.drop 1).drop cborCap)
    (room : 1 ≤ responseCap) (part : cborCap ≤ responseCap - 1)
    (backed : responseCap ≤ response.length) :
    (store response 1 built).drop responseCap = response.drop responseCap := by
  have front : (response.take 1).length = 1 := by
    rw [List.length_take]
    omega
  rw [List.length_drop] at size
  have rest : built.drop (responseCap - 1) = (response.drop 1).drop (responseCap - 1) := by
    have split : responseCap - 1 = cborCap + (responseCap - 1 - cborCap) := by omega
    rw [split, ← List.drop_drop, beyond, List.drop_drop]
  calc
    (store response 1 built).drop responseCap = (response.take 1 ++ built).drop responseCap := by
      rw [store_behind built size (by omega)]
    _ = built.drop (responseCap - 1) := by
      rw [List.drop_append, front, List.drop_of_length_le (by omega), List.nil_append]
    _ = response.drop responseCap := by
      rw [rest, List.drop_drop]
      congr 1
      omega

theorem status_beyond (byte : UInt8) (room : 1 ≤ responseCap) :
    (store response 0 [byte]).drop responseCap = response.drop responseCap :=
  drop_store_front [byte] room

theorem status_front (byte : UInt8) (backed : 1 ≤ response.length) :
    (store response 0 [byte])[0]? = some byte := by
  rw [store_fits response 0 [byte] (by simpa using backed)]
  rfl

theorem Framed.refuse (refusal : Refusal) (room : 1 ≤ responseCap)
    (backed : responseCap ≤ response.length) :
    Framed response responseCap (.refuse refusal response) where
  size := length_store _ _ _
  beyond := status_beyond _ room
  failed := fun impossible => absurd rfl impossible
  replied := fun _ => ⟨Nat.le_refl _, Nat.le_min.mpr ⟨room, show 1 ≤ maxMessage by decide⟩, _,
    status_front _ (by omega), fun _ => rfl⟩

/-- A refusal that overwrites memory in which a command was at work. -/
theorem Framed.over {middle : List UInt8} {answer : Answer} (framed : Framed middle responseCap answer)
    (size : middle.length = response.length)
    (beyond : middle.drop responseCap = response.drop responseCap) :
    Framed response responseCap answer where
  size := framed.size.trans size
  beyond := framed.beyond.trans beyond
  failed := framed.failed
  replied := framed.replied

theorem Framed.success (len : Nat) (room : 1 ≤ responseCap)
    (fits : len ≤ min (responseCap - 1) (maxMessage - 1))
    (backed : responseCap ≤ response.length) :
    Framed response responseCap ⟨none, store response 0 [statusOk], len + 1⟩ where
  size := length_store _ _ _
  beyond := status_beyond _ room
  failed := fun impossible => absurd rfl impossible
  replied := by
    intro _
    obtain ⟨inside, short⟩ := Nat.le_min.mp fits
    have message : maxMessage - 1 + 1 = maxMessage := rfl
    refine ⟨Nat.le_add_left _ _, Nat.le_min.mpr ⟨?_, ?_⟩, _, status_front _ (by omega), ?_⟩
    · show len + 1 ≤ responseCap
      omega
    · show len + 1 ≤ maxMessage
      omega
    · exact fun other => absurd rfl other

theorem Framed.error (error : Error) : Framed response responseCap ⟨some error, response, 0⟩ where
  size := rfl
  beyond := rfl
  failed := fun _ => rfl
  replied := by
    intro impossible
    cases impossible

theorem Leaves.framed {outcome : Outcome} (room : 1 ≤ responseCap)
    (backed : responseCap ≤ response.length)
    (leaves : Leaves (response.drop 1) (min (responseCap - 1) (maxMessage - 1)) outcome) :
    Framed response responseCap (.ofOutcome response outcome) := by
  have size : (store response 1 outcome.response).length = response.length := length_store _ _ _
  have beyond := store_behind_beyond outcome.response _ leaves.size leaves.beyond room
    (Nat.min_le_left _ _) backed
  rw [Answer.ofOutcome]
  cases done : outcome.code with
  | error error => exact (Framed.error error).over size beyond
  | ok =>
      exact (Framed.success outcome.responseLen room (leaves.success done)
        (by rw [size]; exact backed)).over size beyond
  | refused refusal =>
      exact (Framed.refuse refusal room (by rw [size]; exact backed)).over size beyond

end Frames

/-- Every request, of any length, gets an error or one well-formed reply. -/
theorem dispatch_framed (cid : UInt32) (request response : List UInt8) (responseCap : Nat)
    (backed : responseCap ≤ response.length) (before : Calls) :
    Ensures anyReply before (dispatch cid request response responseCap)
      (fun _ answer => Framed response responseCap answer) := by
  unfold dispatch
  split
  · exact .error _
  split
  · exact .error _
  rename_i room
  have one : 1 ≤ responseCap := by omega
  have inner : min (responseCap - 1) (maxMessage - 1) ≤ (response.drop 1).length := by
    rw [List.length_drop]
    have := Nat.min_le_left (responseCap - 1) (maxMessage - 1)
    omega
  cases request with
  | nil => exact .refuse _ one backed
  | cons command body =>
      simp only
      split
      · refine (ensures_bind _ _ _).mpr ((makeCredential_leaves cid body inner before).imp ?_)
        exact fun _ outcome leaves => leaves.framed one backed
      split
      · refine (ensures_bind _ _ _).mpr ((getAssertion_leaves cid body inner before).imp ?_)
        exact fun _ outcome leaves => leaves.framed one backed
      split
      · exact .refuse _ one backed
      split
      · exact .refuse _ one backed
      · have within := GetInfo.getInfo_within (response.drop 1)
          (min (responseCap - 1) (maxMessage - 1))
        generalize getInfo (response.drop 1) (min (responseCap - 1) (maxMessage - 1)) = info
          at within
        obtain ⟨error, built, len⟩ := info
        have size : (store response 1 built).length = response.length := length_store _ _ _
        have beyond := store_behind_beyond built _ within.1 within.2.1 one (Nat.min_le_left _ _)
          backed
        cases error with
        | none => exact (Framed.success len one within.2.2 (by rw [size]; exact backed)).over size beyond
        | some error => exact (Framed.error error).over size beyond

end P4Key.Ctap
