import P4Key.Constants
import P4Key.Library.CallProgram

/-! p4_press.c: the wait for a fresh press of the button. -/

namespace P4Key.Press

open CallProgram

inductive Call where
  | buttonReady
  | buttonPressed
  | hidCancelled (cid : UInt32)
  | hidKeepalive (cid : UInt32) (status : UInt8)
  | taskDelay (ms : Nat)
  deriving DecidableEq

@[reducible] def Reply : Call → Type
  | .buttonReady => Bool
  | .buttonPressed => Bool
  | .hidCancelled _ => Bool
  | .hidKeepalive _ _ => Int
  | .taskDelay _ => Unit

abbrev Wait (α : Type) : Type := Program Call Reply α

def buttonReady : Wait Bool := Program.perform Call.buttonReady

def buttonPressed : Wait Bool := Program.perform Call.buttonPressed

def hidCancelled (cid : UInt32) : Wait Bool := Program.perform (Call.hidCancelled cid)

def hidKeepalive (cid : UInt32) (status : UInt8) : Wait Int :=
  Program.perform (Call.hidKeepalive cid status)

def taskDelay (ms : Nat) : Wait Unit := Program.perform (Call.taskDelay ms)

def pressSampleMs : Nat := 10
def pressDebounceMs : Nat := 40
def pressTimeoutMs : Nat := 30000

def keepaliveMs : Nat := 100
def keepaliveUpNeeded : UInt8 := 0x02
def hidOk : Int := 0
def hidErrRate : Int := -7

def unlessCancelled (cid : UInt32) (result : Int) : Wait Int := do
  if ← hidCancelled cid then pure pressCancel else pure result

/-- The checks at the top of a turn: the value to return, if the turn ends there. -/
def stopped (cid : UInt32) (elapsedMs : Nat) : Wait (Option Int) := do
  if ← hidCancelled cid then pure (some pressCancel)
  else if elapsedMs % keepaliveMs = 0 then
    let error ← hidKeepalive cid keepaliveUpNeeded
    if error ≠ hidOk ∧ error ≠ hidErrRate then
      let result ← unlessCancelled cid pressDenied
      pure (some result)
    else pure none
  else pure none

def waitLoop (cid : UInt32) (elapsedMs : Nat) (needRelease : Bool) (stableMs : Nat) : Wait Int :=
  if elapsedMs < pressTimeoutMs then do
    match ← stopped cid elapsedMs with
    | some result => pure result
    | none =>
      let pressed ← buttonPressed
      let wanted := if needRelease then !pressed else pressed
      let stableMs := if wanted then stableMs + pressSampleMs else 0
      if stableMs ≥ pressDebounceMs then
        if !needRelease then unlessCancelled cid pressOk
        else do
          taskDelay pressSampleMs
          waitLoop cid (elapsedMs + pressSampleMs) false 0
      else do
        taskDelay pressSampleMs
        waitLoop cid (elapsedMs + pressSampleMs) needRelease stableMs
  else pure pressTimeout
termination_by pressTimeoutMs - elapsedMs
decreasing_by all_goals (simp only [pressSampleMs]; omega)

def pressWait (cid : UInt32) : Wait Int := do
  if !(← buttonReady) then pure pressDenied
  else
    let needRelease ← buttonPressed
    waitLoop cid 0 needRelease 0

def pressCancelled (cid : UInt32) : Wait Bool := hidCancelled cid

def samples (events : List (Event Reply)) : List Bool :=
  events.filterMap fun event =>
    match event with
    | ⟨.buttonPressed, level⟩ => some level
    | _ => none

end P4Key.Press
