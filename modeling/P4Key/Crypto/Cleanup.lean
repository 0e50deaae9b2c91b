import P4Key.Crypto.GcmTrails
import P4Key.Crypto.P256Trails

/-! What the cleanup does to the keys.

Every key that a call has created is tried once more if its first destruction
fails. The cleanup creates nothing, touches no other key, and leaves a success
only if each key went at the first attempt. -/

namespace P4Key.Crypto

open Memory AddressSpace CallProgram

/-- The attempts to destroy one key: the last succeeds, or there were two at least and all fail. -/
def Settled (statuses : List Int) : Prop :=
  (∃ fails, statuses = fails ++ [psaSuccess] ∧ ∀ status ∈ fails, status ≠ psaSuccess) ∨
    (2 ≤ statuses.length ∧ ∀ status ∈ statuses, status ≠ psaSuccess)

theorem Settled.cons {status : Int} {statuses : List Int} (settled : Settled statuses)
    (failure : status ≠ psaSuccess) : Settled (status :: statuses) := by
  rcases settled with ⟨fails, split, all⟩ | ⟨two, all⟩
  · refine Or.inl ⟨status :: fails, by rw [split, List.cons_append], ?_⟩
    exact List.forall_mem_cons.mpr ⟨failure, all⟩
  · refine Or.inr ⟨?_, List.forall_mem_cons.mpr ⟨failure, all⟩⟩
    rw [List.length_cons]
    omega

/-- `tail` drops the keys, and each at once if the call succeeds. -/
structure Cleanup (keys : List KeyId) (tail : List (Event Reply)) (success : Prop) : Prop where
  created : created tail = []
  settled : ∀ key ∈ keys, Settled (attempts key tail)
  others : ∀ key, key ∉ keys → attempts key tail = []
  clean : success → ∀ key ∈ keys, attempts key tail = [psaSuccess]

theorem Cleanup.nil (success : Prop) : Cleanup [] [] success :=
  ⟨rfl, by simp, fun _ _ => rfl, by simp⟩

theorem Cleanup.append {keys keys' : List KeyId} {tail tail' : List (Event Reply)}
    {first second : Prop} (one : Cleanup keys tail first) (two : Cleanup keys' tail' second)
    (apart : ∀ key ∈ keys, key ∉ keys') :
    Cleanup (keys ++ keys') (tail ++ tail') (first ∧ second) where
  created := by rw [created_append, one.created, two.created, List.append_nil]
  settled := by
    intro key member
    rw [attempts_append]
    rcases List.mem_append.mp member with here | there
    · rw [two.others key (apart key here), List.append_nil]
      exact one.settled key here
    · rw [one.others key fun here => apart key here there]
      exact two.settled key there
  others := by
    intro key absent
    rw [List.mem_append, not_or] at absent
    rw [attempts_append, one.others key absent.1, two.others key absent.2, List.append_nil]
  clean := by
    intro ⟨left, right⟩ key member
    rw [attempts_append]
    rcases List.mem_append.mp member with here | there
    · rw [two.others key (apart key here), List.append_nil]
      exact one.clean left key here
    · rw [one.others key fun here => apart key here there]
      exact two.clean right key there

theorem Cleanup.imp {keys : List KeyId} {tail : List (Event Reply)} {first second : Prop}
    (cleanup : Cleanup keys tail first) (stronger : second → first) : Cleanup keys tail second :=
  ⟨cleanup.created, cleanup.settled, cleanup.others, fun success => cleanup.clean (stronger success)⟩

theorem Cleanup.congr {keys keys' : List KeyId} {tail : List (Event Reply)} {success : Prop}
    (cleanup : Cleanup keys tail success) (same : ∀ key, key ∈ keys' ↔ key ∈ keys) :
    Cleanup keys' tail success where
  created := cleanup.created
  settled := fun key member => cleanup.settled key ((same key).mp member)
  others := fun key absent => cleanup.others key fun member => absent ((same key).mpr member)
  clean := fun done key member => cleanup.clean done key ((same key).mp member)

theorem Cleanup.cons_quiet {keys : List KeyId} {tail : List (Event Reply)} {success : Prop}
    {event : Event Reply} (cleanup : Cleanup keys tail success) (creates : creates event = none)
    (destroys : destroys event = none) : Cleanup keys (event :: tail) success := by
  have same : ∀ key, attempts key (event :: tail) = attempts key tail := by
    intro key
    simp [attempts, destroys]
  refine ⟨?_, ?_, ?_, ?_⟩
  · rw [← cleanup.created]
    simp [P4Key.Crypto.created, creates]
  · intro key member
    rw [same]
    exact cleanup.settled key member
  · intro key absent
    rw [same]
    exact cleanup.others key absent
  · intro done key member
    rw [same]
    exact cleanup.clean done key member

theorem Cleanup.cons_failed {key : KeyId} {tail : List (Event Reply)} {success : Prop}
    {status : Int} (cleanup : Cleanup [key] tail success) (failure : status ≠ psaSuccess) :
    Cleanup [key] (⟨.destroyKey key, status⟩ :: tail) False := by
  have here : attempts key (⟨.destroyKey key, status⟩ :: tail) = status :: attempts key tail := by
    simp [attempts, destroys]
  refine ⟨cleanup.created, ?_, ?_, False.elim⟩
  · intro other member
    rw [List.mem_singleton.mp member, here]
    exact (cleanup.settled key (List.mem_singleton_self key)).cons failure
  · intro other absent
    have apart : key ≠ other := fun same => absent (List.mem_singleton.mpr same.symm)
    rw [← cleanup.others other absent]
    simp [attempts, destroys, apart]

theorem Cleanup.once (key : KeyId) (success : Prop) :
    Cleanup [key] [⟨.destroyKey key, psaSuccess⟩] success := by
  have here : attempts key [⟨.destroyKey key, psaSuccess⟩] = [psaSuccess] := by
    simp [attempts, destroys]
  refine ⟨rfl, ?_, ?_, ?_⟩
  · intro other member
    rw [List.mem_singleton.mp member, here]
    exact Or.inl ⟨[], rfl, by simp⟩
  · intro other absent
    have apart : key ≠ other := fun same => absent (List.mem_singleton.mpr same.symm)
    simp [attempts, destroys, apart]
  · intro _ other member
    rw [List.mem_singleton.mp member, here]

theorem Cleanup.never (key : KeyId) {cleanup retry : Int} (first : cleanup ≠ psaSuccess)
    (second : retry ≠ psaSuccess) :
    Cleanup [key] [⟨.destroyKey key, cleanup⟩, ⟨.destroyKey key, retry⟩] False := by
  have here : attempts key [⟨.destroyKey key, cleanup⟩, ⟨.destroyKey key, retry⟩] =
      [cleanup, retry] := by
    simp [attempts, destroys]
  refine ⟨rfl, ?_, ?_, False.elim⟩
  · intro other member
    rw [List.mem_singleton.mp member, here]
    exact Or.inr ⟨Nat.le_refl 2, by simp [first, second]⟩
  · intro other absent
    have apart : key ≠ other := fun same => absent (List.mem_singleton.mpr same.symm)
    simp [attempts, destroys, apart]

def dropEvents (keys : List KeyId) : List (Event Reply) :=
  keys.map fun key => ⟨.destroyKey key, psaSuccess⟩

/-- `p4_crypto_key_drop`: its status is success only if nothing has failed. -/
theorem keyDrop_ends (key : KeyId) (live : Bool) (status : Int) (before : List (Event Reply)) :
    Ends before (keyDrop key live status) fun events status' =>
      (status' = psaSuccess → status = psaSuccess) ∧
      ∃ tail, events = before ++ tail ∧ Cleanup (liveKeys live key) tail (status' = psaSuccess) ∧
        (status' = psaSuccess → tail = dropEvents (liveKeys live key)) := by
  rw [keyDrop]
  split
  · rename_i alive
    rw [alive]
    simp only [call, Program.perform_bind, ensures_call]
    intro cleanup _
    split
    · rename_i gone
      rw [gone]
      exact ⟨id, _, rfl, Cleanup.once key _, fun _ => rfl⟩
    · rename_i failure
      intro retry _
      have stays : (if status = psaSuccess ∨ retry ≠ psaSuccess then cleanup else status) ≠
          psaSuccess := by
        split
        · exact failure
        · rename_i both
          exact fun success => both (Or.inl success)
      refine ⟨fun success => absurd success stays,
        [⟨.destroyKey key, cleanup⟩, ⟨.destroyKey key, retry⟩], by simp, ?_,
        fun success => absurd success stays⟩
      by_cases gone : retry = psaSuccess
      · subst gone
        exact ((Cleanup.once key True).cons_failed failure).imp fun success => absurd success stays
      · exact (Cleanup.never key failure gone).imp fun success => absurd success stays
  · rename_i dead
    rw [Bool.not_eq_true] at dead
    rw [dead]
    exact ⟨id, [], (List.append_nil _).symm, Cleanup.nil _, fun _ => rfl⟩

/-! The end of the two GCM functions. -/

theorem aeadFail_ends (wipe : Space → Space) (key : KeyId) (live : Bool) {status : Int}
    (failure : status ≠ psaSuccess) (memory : Space) (before : List (Event Reply)) :
    Ends before (aeadFail wipe key live status memory) fun events (result, left) =>
      result ≠ cryptoOk ∧ result ≠ cryptoOverlap ∧ left = wipe memory ∧
      ∃ tail, events = before ++ tail ∧ Cleanup (liveKeys live key) tail False := by
  simp only [aeadFail, call, Program.perform_bind, ensures_call]
  intro aborted _
  apply (ensures_bind _ _ _).mpr
  apply (keyDrop_ends key live status _).imp
  intro events status' ⟨passed, tail, split, cleanup, _⟩
  have stays : status' ≠ psaSuccess := fun success => failure (passed success)
  refine ⟨fun ok => stays ((fromPsa_ok status').mp ok), fromPsa_overlap status', rfl,
    ⟨.aeadAbort, aborted⟩ :: tail, by rw [split, List.append_assoc]; rfl, ?_⟩
  exact (cleanup.cons_quiet rfl rfl).imp False.elim

/-- How a GCM function ends behind its checks: in a success with one destruction, or in an
error with the outputs wiped. -/
def Ended (wipe : Space → Space) (attempt : Attempt) (tail : List (Event Reply)) (result : Int)
    (left : Space) : Prop :=
  (result = cryptoOk ∧ attempt.status = psaSuccess ∧ left = attempt.memory ∧
      tail = [⟨.destroyKey attempt.keyId, psaSuccess⟩]) ∨
    (result ≠ cryptoOk ∧ result ≠ cryptoOverlap ∧ left = wipe attempt.memory)

theorem aeadEnd_ends (wipe : Space → Space) (attempt : Attempt)
    (live : attempt.status = psaSuccess → attempt.keyLive = true) (before : List (Event Reply)) :
    Ends before (aeadEnd wipe attempt) fun events (result, left) =>
      ∃ tail, events = before ++ tail ∧ Ended wipe attempt tail result left ∧
        Cleanup (liveKeys attempt.keyLive attempt.keyId) tail (result = cryptoOk) := by
  rw [aeadEnd]
  split
  · rename_i failure
    apply (aeadFail_ends wipe attempt.keyId attempt.keyLive failure attempt.memory before).imp
    intro events (result, left) ⟨notOk, apart, wiped, tail, split, cleanup⟩
    exact ⟨tail, split, Or.inr ⟨notOk, apart, wiped⟩, cleanup.imp notOk⟩
  · rename_i success
    rw [not_not] at success
    rw [live success]
    simp only [call, Program.perform_bind, ensures_call]
    intro status _
    split
    · rename_i failure
      apply (aeadFail_ends wipe attempt.keyId true failure attempt.memory _).imp
      intro events (result, left) ⟨notOk, apart, wiped, tail, split, cleanup⟩
      refine ⟨⟨.destroyKey attempt.keyId, status⟩ :: tail, by rw [split, List.append_assoc]; rfl,
        Or.inr ⟨notOk, apart, wiped⟩, ?_⟩
      exact (cleanup.cons_failed failure).imp notOk
    · rename_i gone
      rw [not_not] at gone
      rw [gone]
      exact ⟨_, rfl, Or.inl ⟨rfl, success, rfl, rfl⟩, Cleanup.once _ _⟩

end P4Key.Crypto
