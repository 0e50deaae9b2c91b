import P4Key.Crypto.Outcomes

/-! PSA as a set of live keys.

An import or a generation that succeeds adds a new key, and only a destruction
that fails may leave its key in the set. -/

namespace P4Key.Crypto

open Memory AddressSpace CallProgram

inductive LiveStep : Set KeyId → Event Reply → Set KeyId → Prop where
  | created {live : Set KeyId} {event : Event Reply} {key : KeyId}
      (creates : creates event = some key) (fresh : key ∉ live) :
      LiveStep live event (insert key live)
  | destroyed {live : Set KeyId} {event : Event Reply} {key : KeyId} {status : Int}
      (destroys : destroys event = some (key, status)) : LiveStep live event (live \ {key})
  | remains {live : Set KeyId} {event : Event Reply} {key : KeyId} {status : Int}
      (destroys : destroys event = some (key, status)) (failure : status ≠ psaSuccess) :
      LiveStep live event live
  | quiet {live : Set KeyId} {event : Event Reply} (creates : creates event = none)
      (destroys : destroys event = none) : LiveStep live event live

inductive Live : Set KeyId → List (Event Reply) → Set KeyId → Prop where
  | nil (live : Set KeyId) : Live live [] live
  | cons {before mid after : Set KeyId} {event : Event Reply} {events : List (Event Reply)}
      (step : LiveStep before event mid) (rest : Live mid events after) :
      Live before (event :: events) after

theorem Live.split {before after : Set KeyId} {first second : List (Event Reply)}
    (live : Live before (first ++ second) after) :
    ∃ mid, Live before first mid ∧ Live mid second after := by
  induction first generalizing before with
  | nil => exact ⟨before, .nil before, live⟩
  | cons event first ih =>
    cases live with
    | cons step rest =>
      obtain ⟨mid, left, right⟩ := ih rest
      exact ⟨mid, .cons step left, right⟩

/-- Without a destruction the set grows by the keys that are created, each of which is new. -/
theorem Live.grow {before after : Set KeyId} {events : List (Event Reply)}
    (live : Live before events after) (kept : events.filterMap destroys = []) :
    (created events).Nodup ∧ (∀ key ∈ created events, key ∉ before) ∧
      ∀ key, key ∈ after ↔ key ∈ before ∨ key ∈ created events := by
  induction live with
  | nil live => simp [created]
  | @cons before mid after event events step rest ih =>
    have here : destroys event = none := by
      cases undo : destroys event with
      | none => rfl
      | some attempt => simp [undo] at kept
    rw [List.filterMap_cons_none here] at kept
    obtain ⟨nodup, fresh, same⟩ := ih kept
    cases step with
    | created creates absent =>
      rename_i key
      have grown : created (event :: events) = key :: created events :=
        List.filterMap_cons_some creates
      rw [grown]
      refine ⟨List.nodup_cons.mpr ⟨fun again => fresh key again (Set.mem_insert _ _), nodup⟩,
        ?_, ?_⟩
      · intro other member
        rcases List.mem_cons.mp member with rfl | later
        · exact absent
        · exact fun old => fresh other later (Set.mem_insert_of_mem _ old)
      · intro other
        rw [same, Set.mem_insert_iff, List.mem_cons]
        tauto
    | destroyed destroys => exact absurd destroys (by simp [here])
    | remains destroys _ => exact absurd destroys (by simp [here])
    | quiet creates _ =>
      have grown : created (event :: events) = created events := List.filterMap_cons_none creates
      rw [grown]
      exact ⟨nodup, fresh, same⟩

theorem attempts_cons_none {event : Event Reply} (quiet : destroys event = none) (key : KeyId)
    (events : List (Event Reply)) : attempts key (event :: events) = attempts key events := by
  rw [attempts, List.filterMap_cons_none quiet]
  rfl

theorem attempts_cons_some {event : Event Reply} {other : KeyId} {status : Int}
    (attempt : destroys event = some (other, status)) (key : KeyId) (events : List (Event Reply)) :
    attempts key (event :: events) =
      if other = key then status :: attempts key events else attempts key events := by
  rw [attempts, List.filterMap_cons_some attempt]
  split
  · exact List.filterMap_cons_some (if_pos ‹_›)
  · exact List.filterMap_cons_none (if_neg ‹_›)

/-- Where nothing is created, a key that stays was not destroyed, and a key that nobody touches
stays. -/
theorem Live.shrink {before after : Set KeyId} {events : List (Event Reply)}
    (live : Live before events after) (nothing : created events = []) (key : KeyId) :
    (key ∈ after → key ∈ before ∧ psaSuccess ∉ attempts key events) ∧
      (key ∈ before → attempts key events = [] → key ∈ after) := by
  induction live with
  | nil live => exact ⟨fun member => ⟨member, List.not_mem_nil⟩, fun member _ => member⟩
  | @cons before mid after event events step rest ih =>
    have here : creates event = none := by
      cases made : creates event with
      | none => rfl
      | some key => simp [created, made] at nothing
    obtain ⟨stays, untouched⟩ := ih (by rwa [created, List.filterMap_cons_none here] at nothing)
    cases step with
    | created creates _ => exact absurd creates (by simp [here])
    | @destroyed other status destroys =>
      rw [attempts_cons_some destroys]
      constructor
      · intro member
        obtain ⟨⟨old, different⟩, clean⟩ := stays member
        rw [if_neg fun same => different same.symm]
        exact ⟨old, clean⟩
      · intro old none'
        split at none'
        · exact absurd none' (List.cons_ne_nil _ _)
        · rename_i different
          exact untouched ⟨old, fun same => different same.symm⟩ none'
    | remains destroys failure =>
      rw [attempts_cons_some destroys]
      constructor
      · intro member
        obtain ⟨old, clean⟩ := stays member
        refine ⟨old, ?_⟩
        split
        · exact fun found => (List.mem_cons.mp found).elim (fun same => failure same.symm) clean
        · exact clean
      · intro old none'
        split at none'
        · exact absurd none' (List.cons_ne_nil _ _)
        · exact untouched old none'
    | quiet _ destroys =>
      rw [attempts_cons_none destroys]
      exact ⟨stays, untouched⟩

/-! Every function creates its keys first and then drops them. -/

/-- The calls of one function: those before the cleanup, and the cleanup of what they created. -/
def Ledger (events : List (Event Reply)) (result : Int) : Prop :=
  ∃ body tail, events = body ++ tail ∧ body.filterMap destroys = [] ∧
    ((created body).Nodup → Cleanup (created body) tail (result = cryptoOk))

theorem ledger_nil (result : Int) : Ledger [] result :=
  ⟨[], [], rfl, rfl, fun _ => Cleanup.nil _⟩

theorem GcmRan.ledger {memory written left : Space} {ideal : KeyId → List (Event Reply)}
    {ranges : List Range} {wipe : Space → Space} {events : List (Event Reply)} {result : Int}
    (ran : GcmRan memory ideal written ranges wipe events result left) : Ledger events result := by
  obtain ⟨body, tail, attempt, split, worked, -, cleanup⟩ := ran
  refine ⟨body, tail, split, worked.trail.kept, fun _ => ?_⟩
  rw [worked.trail.created]
  exact cleanup

theorem KeyRan.ledger {keys drops : List KeyId} {ideal events : List (Event Reply)}
    {status result : Int} (ran : KeyRan keys drops ideal status result events) : Ledger events result := by
  obtain ⟨body, tail, split, trail, cleanup, -⟩ := ran
  refine ⟨body, tail, split, trail.kept, ?_⟩
  rw [trail.created]
  exact cleanup

theorem Checked.ledger {code : Int} {refused overlaps ready : Prop} {memory left : Space}
    {ran : List (Event Reply) → Int → Space → Prop} {events : List (Event Reply)} {result : Int}
    (checked : Checked code refused overlaps ready memory ran events result left)
    (behind : ∀ events result left, ran events result left → Ledger events result) :
    Ledger events result := by
  cases checked with
  | refused => exact ledger_nil _
  | overlap => exact ledger_nil _
  | state => exact ledger_nil _
  | ran _ _ _ run => exact behind _ _ _ run

theorem entry_ledger (target : Target) (ready : Bool) (memory : Space) (entry : Entry) :
    Ends [] (entry.run target ready memory) fun events (result, _) => Ledger events result := by
  cases entry with
  | gcmSeal key nonce aad aadLen plain plainLen cipher tag =>
    apply (gcmSeal_ends target ready memory key nonce aad aadLen plain plainLen cipher tag).imp
    intro events (result, left) ended
    exact ended.ledger fun _ _ _ ⟨_, _, _, ran⟩ => ran.ledger
  | gcmOpen key nonce aad aadLen cipher cipherLen tag plain =>
    apply (gcmOpen_ends target ready memory key nonce aad aadLen cipher cipherLen tag plain).imp
    intro events (result, left) ended
    exact ended.ledger fun _ _ _ ⟨_, _, ran⟩ => ran.ledger
  | p256Make priv x y =>
    apply (p256Make_ends target ready memory priv x y).imp
    intro events (result, left) ended
    exact ended.ledger fun _ _ _ ⟨_, ran, _⟩ => ran.ledger
  | p256Pub priv x y =>
    apply (p256Pub_ends target ready memory priv x y).imp
    intro events (result, left) ended
    apply ended.ledger
    intro events result left ran
    rcases ran with ⟨-, rfl, -⟩ | ⟨-, _, ran, -⟩
    · exact ledger_nil _
    · exact ran.ledger
  | p256SignHash priv hash sig sigCap sigLen =>
    apply (p256SignHash_ends target ready memory priv hash sig sigCap sigLen).imp
    intro events (result, left) ended
    cases ended with
    | noLength => exact ledger_nil _
    | badArg => exact ledger_nil _
    | overlap => exact ledger_nil _
    | checked _ _ _ rest =>
      apply rest.ledger
      intro events result left ran
      rcases ran with ⟨-, rfl, -⟩ | ⟨-, _, _, ran, -⟩
      · exact ledger_nil _
      · exact ran.ledger
  | p256VerifyHash x y hash sig sigLen =>
    apply (p256VerifyHash_ends ready memory x y hash sig sigLen).imp
    intro events (result, left) ⟨_, ended⟩
    rcases ended with ⟨-, rfl⟩ | ⟨-, quiet⟩ | ⟨_, _, _, _, _, _, ran⟩
    · exact ledger_nil _
    · refine ⟨events, [], (List.append_nil _).symm, quiet.kept, fun _ => ?_⟩
      rw [quiet.created]
      exact Cleanup.nil _
    · exact ran.ledger

/-- What a call leaves of its keys: a key stays only if two attempts to destroy it fail at least
and none succeeds, each attempt is for a key that was created before and not yet destroyed, and
behind a success each key went at the first attempt. -/
structure NoLeak (before after : Set KeyId) (events : List (Event Reply)) (result : Int) :
    Prop where
  keeps : before ⊆ after
  leaves : ∀ key ∈ after, key ∈ before ∨
    2 ≤ (attempts key events).length ∧ ∀ status ∈ attempts key events, status ≠ psaSuccess
  owns : ∀ first last key status, events = first ++ ⟨.destroyKey key, status⟩ :: last →
    key ∈ created first ∧ psaSuccess ∉ attempts key first
  clean : result = cryptoOk → ∀ key ∈ created events, attempts key events = [psaSuccess]

theorem Settled.before {first last : List Int} {status : Int}
    (settled : Settled (first ++ status :: last)) : psaSuccess ∉ first := by
  intro found
  rcases settled with ⟨fails, split, failed⟩ | ⟨-, failed⟩
  · have front : first ++ (status :: last).dropLast = fails := by
      rw [← List.dropLast_append_of_ne_nil (List.cons_ne_nil status last), split,
        List.dropLast_concat]
    exact failed psaSuccess (front ▸ List.mem_append_left _ found) rfl
  · exact failed psaSuccess (List.mem_append_left _ found) rfl

theorem attempts_of_kept {events : List (Event Reply)} (kept : events.filterMap destroys = [])
    (key : KeyId) : attempts key events = [] := by
  rw [attempts, kept]
  rfl

theorem destroy_in_tail {body tail first last : List (Event Reply)} {key : KeyId} {status : Int}
    (kept : body.filterMap destroys = [])
    (split : body ++ tail = first ++ ⟨.destroyKey key, status⟩ :: last) :
    ∃ front, first = body ++ front ∧ tail = front ++ ⟨.destroyKey key, status⟩ :: last := by
  rcases List.append_eq_append_iff.mp split with ⟨front, here, there⟩ | ⟨front, here, there⟩
  · exact ⟨front, here, there⟩
  · cases front with
    | nil => exact ⟨[], by simpa using here.symm, by simpa using there.symm⟩
    | cons event front =>
      rw [List.cons_append, List.cons.injEq] at there
      rw [here, ← there.1] at kept
      simp [destroys] at kept

theorem Ledger.noLeak {before after : Set KeyId} {events : List (Event Reply)} {result : Int}
    (ledger : Ledger events result) (live : Live before events after) :
    NoLeak before after events result := by
  obtain ⟨body, tail, rfl, kept, cleanup⟩ := ledger
  obtain ⟨mid, grow, shrink⟩ := live.split
  obtain ⟨nodup, fresh, grown⟩ := grow.grow kept
  have dropped := cleanup nodup
  have only : ∀ key, attempts key (body ++ tail) = attempts key tail := fun key => by
    rw [attempts_append, attempts_of_kept kept, List.nil_append]
  refine ⟨?_, ?_, ?_, ?_⟩
  · intro key old
    have foreign := dropped.others key fun member => fresh key member old
    exact (shrink.shrink dropped.created key).2 ((grown key).mpr (Or.inl old)) foreign
  · intro key stays
    obtain ⟨there, clean⟩ := (shrink.shrink dropped.created key).1 stays
    rcases (grown key).mp there with old | member
    · exact Or.inl old
    · rw [only]
      rcases dropped.settled key member with ⟨fails, split, -⟩ | failed
      · exact absurd (split ▸ List.mem_append_right _ (List.mem_singleton_self _)) clean
      · exact Or.inr failed
  · intro first last key status split
    obtain ⟨front, rfl, rfl⟩ := destroy_in_tail kept split
    have list : attempts key (front ++ ⟨.destroyKey key, status⟩ :: last) =
        attempts key front ++ status :: attempts key last := by
      rw [attempts_append, attempts_cons_some rfl, if_pos rfl]
    have member : key ∈ created body := by
      by_contra foreign
      have none' := dropped.others key foreign
      rw [list] at none'
      exact absurd none' (List.append_ne_nil_of_right_ne_nil _ (List.cons_ne_nil _ _))
    rw [created_append, attempts_append, attempts_of_kept kept, List.nil_append]
    exact ⟨List.mem_append_left _ member, Settled.before (list ▸ dropped.settled key member)⟩
  · intro success key member
    rw [created_append, dropped.created, List.append_nil] at member
    rw [only]
    exact dropped.clean success key member

theorem keys_do_not_leak (target : Target) (ready : Bool) (memory : Space) (entry : Entry)
    {events : List (Event Reply)} {result : Int} {left : Space} {before after : Set KeyId}
    (run : Execution (entry.run target ready memory) events (result, left))
    (live : Live before events after) : NoLeak before after events result := by
  exact Ledger.noLeak ((entry_ledger target ready memory entry).post run) live

/-- A PSA that imports the key 7 and then fails in everything. -/
def stuckReplies : (c : Call) → Reply c
  | .importKey _ _ => (psaSuccess, 7)
  | .generateKey _ => (psaErrorBadState, 0)
  | .exportKey _ _ => (psaErrorBadState, List.Vector.replicate _ 0, 0)
  | .exportPublicKey _ _ => (psaErrorBadState, List.Vector.replicate _ 0, 0)
  | .signHash _ _ _ => (psaErrorBadState, List.Vector.replicate _ 0, 0)
  | .aeadUpdate _ _ => (psaErrorBadState, List.Vector.replicate _ 0, 0)
  | .aeadFinish _ _ =>
    (psaErrorBadState, (List.Vector.replicate _ 0, 0), List.Vector.replicate _ 0, 0)
  | .aeadVerify _ _ => (psaErrorBadState, List.Vector.replicate _ 0, 0)
  | .rawToDer _ _ _ => (psaErrorBadState, List.Vector.replicate _ 0, 0)
  | .derToRaw _ _ _ => (psaErrorBadState, List.Vector.replicate _ 0, 0)
  | .destroyKey _ => psaErrorBadState
  | .verifyHash _ _ _ => psaErrorBadState
  | .aeadEncryptSetup _ => psaErrorBadState
  | .aeadDecryptSetup _ => psaErrorBadState
  | .aeadSetNonce _ => psaErrorBadState
  | .aeadSetLengths _ _ => psaErrorBadState
  | .aeadUpdateAd _ => psaErrorBadState
  | .aeadAbort => psaErrorBadState

theorem keys_do_not_leak_stuck :
    NoLeak ∅ (insert 7 ∅)
      ((gcmSeal esp32p4 true (fun _ => 0) 100 200 0 0 0 0 300 400).trace stuckReplies)
      cryptoState := by
  have failed : psaErrorBadState ≠ psaSuccess := by decide
  have live : Live ∅
      ((gcmSeal esp32p4 true (fun _ => 0) 100 200 0 0 0 0 300 400).trace stuckReplies)
      (insert 7 ∅) :=
    .cons (.created rfl (Set.notMem_empty 7)) (.cons (.quiet rfl rfl) (.cons (.quiet rfl rfl)
      (.cons (.remains rfl failed) (.cons (.remains rfl failed) (.nil _)))))
  exact keys_do_not_leak esp32p4 true (fun _ => 0) (.gcmSeal 100 200 0 0 0 0 300 400)
    (execution_value stuckReplies _) live

inductive Series (target : Target) (ready : Bool) :
    Set KeyId → List (List (Event Reply)) → Set KeyId → Prop where
  | nil (live : Set KeyId) : Series target ready live [] live
  | cons {before mid after : Set KeyId} {memory : Space} {entry : Entry}
      {events : List (Event Reply)} {outcome : Int × Space} {history : List (List (Event Reply))}
      (run : Execution (entry.run target ready memory) events outcome)
      (live : Live before events mid) (rest : Series target ready mid history after) :
      Series target ready before (events :: history) after

/-- Over any number of requests a slot is lost only where one of them tried its key twice in vain. -/
theorem Series.slots {target : Target} {ready : Bool} {before after : Set KeyId}
    {history : List (List (Event Reply))} (series : Series target ready before history after) :
    before ⊆ after ∧ ∀ key ∈ after, key ∈ before ∨ ∃ events ∈ history,
      2 ≤ (attempts key events).length ∧ ∀ status ∈ attempts key events, status ≠ psaSuccess := by
  induction series with
  | nil live => exact ⟨fun _ member => member, fun _ member => Or.inl member⟩
  | @cons before mid after memory entry events outcome history run live rest ih =>
    have first := Ledger.noLeak ((entry_ledger target ready memory entry).post run) live
    refine ⟨fun key member => ih.1 (first.keeps member), ?_⟩
    intro key stays
    rcases ih.2 key stays with there | ⟨later, listed, failed⟩
    · rcases first.leaves key there with old | failed
      · exact Or.inl old
      · exact Or.inr ⟨events, List.mem_cons_self, failed⟩
    · exact Or.inr ⟨later, List.mem_cons_of_mem _ listed, failed⟩

end P4Key.Crypto
