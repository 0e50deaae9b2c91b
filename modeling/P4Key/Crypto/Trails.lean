import P4Key.Crypto.Psa

/-! What the calls before the cleanup have done.

Each function runs until a call fails and then cleans up. A trail says which
keys the calls so far have created, that none was destroyed, and that a status
of success means that all of them went as they should. -/

namespace P4Key.Crypto

open Memory AddressSpace CallProgram

structure Trail (keys : List KeyId) (ideal events : List (Event Reply)) (status : Int) : Prop where
  created : created events = keys
  kept : events.filterMap destroys = []
  passed : status = psaSuccess → events = ideal

theorem Trail.start (status : Int) : Trail [] [] [] status := ⟨rfl, rfl, fun _ => rfl⟩

theorem Trail.failed {keys : List KeyId} {ideal ideal' events : List (Event Reply)}
    {status status' : Int} (trail : Trail keys ideal events status) (failure : status' ≠ psaSuccess) :
    Trail keys ideal' events status' :=
  ⟨trail.created, trail.kept, fun success => absurd success failure⟩

theorem Trail.congr {keys : List KeyId} {ideal ideal' events : List (Event Reply)} {status : Int}
    (trail : Trail keys ideal events status) (same : status = psaSuccess → ideal = ideal') :
    Trail keys ideal' events status :=
  ⟨trail.created, trail.kept, fun success => (trail.passed success).trans (same success)⟩

theorem Trail.extend {keys made : List KeyId} {ideal ideal' events : List (Event Reply)}
    {status status' : Int} {event : Event Reply} (trail : Trail keys ideal events status)
    (creates : P4Key.Crypto.created [event] = made) (destroys : destroys event = none)
    (passed : status' = psaSuccess → events ++ [event] = ideal') :
    Trail (keys ++ made) ideal' (events ++ [event]) status' where
  created := by rw [created_append, trail.created, creates]
  kept := by
    rw [List.filterMap_append, trail.kept]
    simp [destroys]
  passed := passed

theorem created_quiet {event : Event Reply} (creates : creates event = none) :
    created [event] = [] := List.filterMap_cons_none creates

theorem Trail.snoc {keys : List KeyId} {ideal events : List (Event Reply)} {status status' : Int}
    {event event' : Event Reply} (trail : Trail keys ideal events status)
    (success : status = psaSuccess) (creates : creates event' = none)
    (destroys : destroys event' = none) (same : status' = psaSuccess → event' = event) :
    Trail keys (ideal ++ [event]) (events ++ [event']) status' := by
  rw [← List.append_nil keys]
  apply trail.extend (created_quiet creates) destroys
  intro passed
  rw [trail.passed success, same passed]

theorem Trail.spoiled {keys : List KeyId} {ideal ideal' events : List (Event Reply)}
    {status status' : Int} {event : Event Reply} (trail : Trail keys ideal events status)
    (creates : creates event = none) (destroys : destroys event = none)
    (failure : status' ≠ psaSuccess) : Trail keys ideal' (events ++ [event]) status' := by
  rw [← List.append_nil keys]
  exact trail.extend (created_quiet creates) destroys fun success => absurd success failure

/-- A call that creates and destroys no key, and is `event` if it succeeds. -/
def OneCall (next : Psa Int) (event : Event Reply) : Prop :=
  ∀ before, Ends before next fun events status =>
    ∃ event', events = before ++ [event'] ∧ creates event' = none ∧ destroys event' = none ∧
      (status = psaSuccess → event' = event)

theorem whenOk_trail {keys : List KeyId} {ideal before : List (Event Reply)} {status : Int}
    {next : Psa Int} {event : Event Reply} (trail : Trail keys ideal before status)
    (one : OneCall next event) :
    Ends before (whenOk status next) fun events status' =>
      Trail keys (ideal ++ [event]) events status' ∧
        (status' = psaSuccess → status = psaSuccess) := by
  rw [whenOk]
  split
  · rename_i success
    apply (one before).imp
    intro events status' ⟨event', split, creates, destroys, same⟩
    rw [split]
    exact ⟨trail.snoc success creates destroys same, fun _ => success⟩
  · rename_i failure
    exact ⟨trail.failed failure, id⟩

def liveKeys (keyLive : Bool) (keyId : KeyId) : List KeyId := if keyLive then [keyId] else []

theorem Trail.create {keys : List KeyId} {ideal events : List (Event Reply)}
    {status status' : Int} {event event' : Event Reply} {keyId : KeyId}
    (trail : Trail keys ideal events status) (success : status = psaSuccess)
    (creates : creates event' = if status' = psaSuccess then some keyId else none)
    (destroys : destroys event' = none) (same : status' = psaSuccess → event' = event) :
    Trail (keys ++ liveKeys (decide (status' = psaSuccess)) keyId) (ideal ++ [event])
      (events ++ [event']) status' := by
  apply trail.extend _ destroys
  · intro passed
    rw [trail.passed success, same passed]
  · by_cases passed : status' = psaSuccess <;>
      simp [P4Key.Crypto.created, creates, liveKeys, passed]

end P4Key.Crypto
