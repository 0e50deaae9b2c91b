import Mathlib.Init

/-! The connection state of p4_usb.c. -/

namespace P4Key.Usb

/-- `s_mounted`, `s_ready` and `s_generation`. The counter is a `uint32_t`: here it counts on
and is reduced where it is read. -/
structure Bus where
  mounted : Bool := false
  ready : Bool := false
  generation : Nat := 0
  mounted_of_ready : ready = true → mounted = true := by decide

def busAtStart : Bus := {}

inductive BusEvent where
  | attached
  | detached
  | suspended
  | resumed
  deriving DecidableEq, Repr

def usbEvent (bus : Bus) : BusEvent → Bus
  | .attached => ⟨true, true, bus.generation + 1, fun _ => rfl⟩
  | .detached => ⟨false, false, bus.generation + 1, id⟩
  | .suspended => ⟨bus.mounted, false, bus.generation + 1, fun impossible => by cases impossible⟩
  | .resumed => ⟨bus.mounted, bus.mounted, bus.generation, id⟩

def usbReady (bus : Bus) : Bool := bus.ready

def usbUnmountGeneration (bus : Bus) : UInt32 := UInt32.ofNat bus.generation

inductive UsbResult where
  | ok
  | arg
  | state
  | timeout
  | disconnected
  | stale
  | driver
  deriving DecidableEq, Repr

theorem usbEvent_generation (bus : Bus) (event : BusEvent) :
    bus.generation ≤ (usbEvent bus event).generation := by
  cases event <;> simp [usbEvent]

def BusEvent.renews : BusEvent → Bool
  | .resumed => false
  | _ => true

theorem usbEvent_renews (bus : Bus) (event : BusEvent) :
    (usbEvent bus event).generation = bus.generation + event.renews.toNat := by
  cases event <;> rfl

theorem usbEvent_ready (bus : Bus) (event : BusEvent) (ready : bus.ready = true)
    (same : (usbEvent bus event).generation = bus.generation) :
    (usbEvent bus event).ready = true := by
  cases event with
  | attached => rfl
  | detached => simp [usbEvent] at same
  | suspended => simp [usbEvent] at same
  | resumed => exact bus.mounted_of_ready ready

/-! What other tasks and the bus may do between two reads. -/

structure Flags where
  bus : Bus
  resetRequested : Bool

def Flags.onBus (flags : Flags) (event : BusEvent) : Flags :=
  { flags with bus := usbEvent flags.bus event }

/-- `request_transport_reset`. -/
def Flags.request (flags : Flags) : Flags := { flags with resetRequested := true }

/-- What `take_transport_reset_request` leaves. -/
def Flags.taken (flags : Flags) : Flags := { flags with resetRequested := false }

inductive Drifts (start : Flags) : Flags → Prop where
  | refl : Drifts start start
  | bus {flags : Flags} (earlier : Drifts start flags) (event : BusEvent) :
      Drifts start (flags.onBus event)
  | request {flags : Flags} (earlier : Drifts start flags) : Drifts start flags.request

theorem Drifts.trans {first second third : Flags} (earlier : Drifts first second)
    (later : Drifts second third) : Drifts first third := by
  induction later with
  | refl => exact earlier
  | bus _ event ih => exact ih.bus event
  | request _ ih => exact ih.request

theorem Drifts.generation {first second : Flags} (drift : Drifts first second) :
    first.bus.generation ≤ second.bus.generation := by
  induction drift with
  | refl => exact Nat.le_refl _
  | bus _ event ih => exact Nat.le_trans ih (usbEvent_generation _ event)
  | request _ ih => exact ih

theorem Drifts.requested {first second : Flags} (drift : Drifts first second)
    (requested : first.resetRequested = true) : second.resetRequested = true := by
  induction drift with
  | refl => exact requested
  | bus _ event ih => exact ih
  | request _ ih => rfl

theorem Drifts.ready {first second : Flags} (drift : Drifts first second)
    (ready : first.bus.ready = true) (same : second.bus.generation = first.bus.generation) :
    second.bus.ready = true := by
  induction drift with
  | refl => exact ready
  | @bus flags earlier event ih =>
      have after : flags.bus.generation ≤ first.bus.generation :=
        same ▸ usbEvent_generation flags.bus event
      have middle := Nat.le_antisymm after earlier.generation
      exact usbEvent_ready flags.bus event (ih middle) (same.trans middle.symm)
  | request _ ih => exact ih same

/-! The counter is read modulo 2^32. -/

/-- The bus does not come back to the generation that was seen. -/
def Avoids (seen : UInt32) (first last : Flags) : Prop :=
  ∀ generation, first.bus.generation < generation → generation ≤ last.bus.generation →
    UInt32.ofNat generation ≠ seen

theorem Avoids.part {seen : UInt32} {first second third last : Flags}
    (avoids : Avoids seen first last) (before : Drifts first second) (after : Drifts third last) :
    Avoids seen second third := by
  intro generation above below
  exact avoids generation (Nat.lt_of_le_of_lt before.generation above)
    (Nat.le_trans below after.generation)

theorem Drifts.stays {seen : UInt32} {first last : Flags} (drift : Drifts first last)
    (avoids : Avoids seen first last) (current : usbUnmountGeneration last.bus = seen) :
    last.bus.generation = first.bus.generation := by
  rcases Nat.lt_or_eq_of_le drift.generation with moved | same
  · exact absurd current (avoids last.bus.generation moved (Nat.le_refl _))
  · exact same.symm

end P4Key.Usb
