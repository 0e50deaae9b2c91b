import P4Key.Library.Budget
import P4Key.Press.Wait

/-! How long the wait of p4_press.c may last, and how often it may send a keepalive. -/

namespace P4Key.Press

open CallProgram

def delayCost : Call → ℤ
  | .taskDelay ms => ms
  | _ => 0

def keepaliveCost : Call → ℤ
  | .hidKeepalive _ _ => keepaliveMs
  | .taskDelay ms => -ms
  | _ => 0

/-- `head elapsedMs` is enough at the top of a turn: it pays for the keepalive of the turn, if there
is one, and for the delay at its end. -/
structure Pays (cost : Call → ℤ) (head : Nat → ℤ) : Prop where
  ready : cost .buttonReady = 0
  pressed : cost .buttonPressed = 0
  cancelled : ∀ cid, cost (.hidCancelled cid) = 0
  nonneg : ∀ elapsedMs, 0 ≤ head elapsedMs
  keepalive : ∀ cid elapsedMs, elapsedMs % keepaliveMs = 0 →
    0 ≤ cost (.hidKeepalive cid keepaliveUpNeeded) ∧
      cost (.hidKeepalive cid keepaliveUpNeeded) ≤ head elapsedMs
  next : ∀ cid elapsedMs, elapsedMs < pressTimeoutMs → elapsedMs % pressSampleMs = 0 →
    head (elapsedMs + pressSampleMs) ≤ (head elapsedMs -
      if elapsedMs % keepaliveMs = 0 then cost (.hidKeepalive cid keepaliveUpNeeded) else 0) -
        cost (.taskDelay pressSampleMs)

variable {cost : Call → ℤ} {head : Nat → ℤ} {cid : UInt32}

theorem Pays.unlessCancelled (pays : Pays cost head) {budget : ℤ} (rich : 0 ≤ budget) (result : Int) :
    Solvent cost budget (unlessCancelled cid result) budget := by
  refine ⟨rich, fun cancelled => ?_⟩
  rw [pays.cancelled, sub_zero]
  cases cancelled with
  | false => exact ⟨rich, le_rfl⟩
  | true => exact ⟨rich, le_rfl⟩

def behind (cost : Call → ℤ) (head : Nat → ℤ) (cid : UInt32) (elapsedMs : Nat) : ℤ :=
  head elapsedMs - if elapsedMs % keepaliveMs = 0 then cost (.hidKeepalive cid keepaliveUpNeeded) else 0

theorem Pays.behind (pays : Pays cost head) (elapsedMs : Nat) :
    0 ≤ behind cost head cid elapsedMs ∧ behind cost head cid elapsedMs ≤ head elapsedMs := by
  rw [Press.behind]
  by_cases due : elapsedMs % keepaliveMs = 0
  · rcases pays.keepalive cid elapsedMs due with ⟨free, paid⟩
    rw [if_pos due]
    exact ⟨sub_nonneg.mpr paid, sub_le_self _ free⟩
  · rw [if_neg due, sub_zero]
    exact ⟨pays.nonneg elapsedMs, le_rfl⟩

theorem Pays.stopped (pays : Pays cost head) (elapsedMs : Nat) :
    Solvent cost (head elapsedMs) (stopped cid elapsedMs) (Press.behind cost head cid elapsedMs) := by
  rcases @Pays.behind cost head cid pays elapsedMs with ⟨rich, less⟩
  rw [Press.stopped]
  refine ⟨pays.nonneg elapsedMs, fun cancelled => ?_⟩
  rw [pays.cancelled, sub_zero]
  cases cancelled with
  | true => exact ⟨pays.nonneg elapsedMs, less⟩
  | false =>
      by_cases due : elapsedMs % keepaliveMs = 0
      · have paid : head elapsedMs - cost (.hidKeepalive cid keepaliveUpNeeded) =
            Press.behind cost head cid elapsedMs := by rw [Press.behind, if_pos due]
        dsimp only [Program.bind]
        rw [if_neg (by decide), if_pos due]
        refine ⟨pays.nonneg elapsedMs, fun error => ?_⟩
        rw [paid]
        dsimp only [Program.bind]
        by_cases bad : error ≠ hidOk ∧ error ≠ hidErrRate
        · rw [if_pos bad]
          exact (pays.unlessCancelled rich pressDenied).bind fun result => ⟨rich, le_rfl⟩
        · rw [if_neg bad]
          exact ⟨rich, le_rfl⟩
      · dsimp only [Program.bind]
        rw [if_neg (by decide), if_neg due]
        exact ⟨pays.nonneg elapsedMs, less⟩

theorem Pays.waitLoop (pays : Pays cost head) (turns elapsedMs : Nat)
    (clock : elapsedMs + turns * pressSampleMs = pressTimeoutMs) (needRelease : Bool) (stableMs : Nat) :
    Solvent cost (head elapsedMs) (waitLoop cid elapsedMs needRelease stableMs) 0 := by
  induction turns generalizing elapsedMs needRelease stableMs with
  | zero =>
      rw [Press.waitLoop, if_neg (by omega)]
      exact ⟨pays.nonneg _, pays.nonneg _⟩
  | succ turns ih =>
      have early : elapsedMs < pressTimeoutMs := by simp only [pressSampleMs] at clock; omega
      have aligned : elapsedMs % pressSampleMs = 0 := by
        simp only [pressSampleMs, pressTimeoutMs] at *
        omega
      have later : elapsedMs + pressSampleMs + turns * pressSampleMs = pressTimeoutMs := by
        rw [← clock]
        ring
      have rich := (@Pays.behind cost head cid pays elapsedMs).1
      -- A delay leads to the next turn with the budget of that turn.
      have delayed : ∀ needRelease stableMs,
          Solvent cost (Press.behind cost head cid elapsedMs) (taskDelay pressSampleMs >>= fun _ =>
            Press.waitLoop cid (elapsedMs + pressSampleMs) needRelease stableMs) 0 := by
        intro needRelease stableMs
        refine ⟨rich, fun _ => ?_⟩
        exact (ih _ later needRelease stableMs).mono (pays.next cid elapsedMs early aligned) le_rfl
      rw [Press.waitLoop, if_pos early]
      refine (pays.stopped elapsedMs).bind ?_
      rintro (_ | result)
      · refine ⟨rich, fun pressed => ?_⟩
        rw [pays.pressed, sub_zero]
        dsimp only [Program.bind]
        generalize (if needRelease = true then !pressed else pressed) = wanted
        generalize (if wanted = true then stableMs + pressSampleMs else 0) = stable
        split
        · cases needRelease with
          | false => exact (pays.unlessCancelled rich pressOk).left_mono rich
          | true => exact delayed false 0
        · exact delayed needRelease _
      · exact ⟨rich, rich⟩

theorem Pays.pressWait (pays : Pays cost head) : Solvent cost (head 0) (pressWait cid) 0 := by
  have rich := pays.nonneg 0
  refine ⟨rich, fun ready => ?_⟩
  rw [pays.ready, sub_zero]
  cases ready with
  | false => exact ⟨rich, rich⟩
  | true =>
      refine ⟨rich, fun pressed => ?_⟩
      rw [pays.pressed, sub_zero]
      exact pays.waitLoop 3000 0 rfl pressed 0

theorem delay_pays : Pays delayCost fun elapsedMs => (pressTimeoutMs - elapsedMs : Nat) := by
  constructor
  · rfl
  · rfl
  · exact fun _ => rfl
  · exact fun _ => Int.natCast_nonneg _
  · exact fun _ _ _ => ⟨le_rfl, Int.natCast_nonneg _⟩
  · intro cid elapsedMs early aligned
    simp only [delayCost, ite_self, pressSampleMs, pressTimeoutMs] at *
    omega

def earned (elapsedMs : Nat) : Nat :=
  if elapsedMs % keepaliveMs = 0 then keepaliveMs else elapsedMs % keepaliveMs

theorem delay_solvent (cid : UInt32) : Solvent delayCost pressTimeoutMs (pressWait cid) 0 :=
  delay_pays.pressWait

theorem earned_cases (elapsedMs : Nat) :
    elapsedMs % keepaliveMs = 0 ∧ earned elapsedMs = keepaliveMs ∨
    elapsedMs % keepaliveMs ≠ 0 ∧ earned elapsedMs = elapsedMs % keepaliveMs := by
  by_cases due : elapsedMs % keepaliveMs = 0
  · exact Or.inl ⟨due, if_pos due⟩
  · exact Or.inr ⟨due, if_neg due⟩

theorem keepalive_pays : Pays keepaliveCost fun elapsedMs => earned elapsedMs := by
  constructor
  · rfl
  · rfl
  · exact fun _ => rfl
  · exact fun _ => Int.natCast_nonneg _
  · intro cid elapsedMs due
    rw [earned, if_pos due]
    exact ⟨Int.natCast_nonneg _, le_rfl⟩
  · intro cid elapsedMs early aligned
    have here := earned_cases elapsedMs
    have later := earned_cases (elapsedMs + pressSampleMs)
    simp only [keepaliveCost]
    rcases here with ⟨due, here⟩ | ⟨due, here⟩
    · rw [if_pos due, here]
      simp only [keepaliveMs, pressSampleMs] at *
      omega
    · rw [if_neg due, here]
      simp only [keepaliveMs, pressSampleMs] at *
      omega

theorem keepalive_solvent (cid : UInt32) : Solvent keepaliveCost keepaliveMs (pressWait cid) 0 :=
  keepalive_pays.pressWait

end P4Key.Press
