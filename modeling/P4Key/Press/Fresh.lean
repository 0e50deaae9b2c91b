import P4Key.Library.Debounce
import P4Key.Press.Wait

/-! What counts as a fresh press.

Without a cancellation `press_wait` accepts the first debounced press that began while it was
waiting; a button held from before has to be released, debounced, first. Whatever the other tasks
do, a run that returns OK has seen the button up and then down. -/

namespace P4Key.Press

open CallProgram Debounce

/-- The levels in the order in which the button is looked at: once before the loop, then once in
each turn. -/
def look (first : Bool) (levels : Nat → Bool) : Nat → Bool
  | 0 => first
  | turn + 1 => levels turn

/-- The button is ready and shows these levels, nothing is cancelled and no keepalive fails other
than by its rate. -/
def Calm (first : Bool) (levels : Nat → Bool) (before : List (Event Reply)) : Event Reply → Prop
  | ⟨.buttonReady, ready⟩ => ready = true
  | ⟨.buttonPressed, pressed⟩ => pressed = look first levels (samples before).length
  | ⟨.hidCancelled _, cancelled⟩ => cancelled = false
  | ⟨.hidKeepalive _ _, error⟩ => error = hidOk ∨ error = hidErrRate
  | ⟨.taskDelay _, _⟩ => True

/-- At this turn the last four samples are pressed; if the button was held at the start, all of
them come after the first four samples in a row that are released. -/
def Accepts (first : Bool) (levels : Nat → Bool) (turn : Nat) : Prop :=
  if first then ∃ released, First (Held levels false 0 4) released ∧
    Held levels true (released + 1) 4 turn
  else Held levels true 0 4 turn

def seen (first : Bool) (levels : Nat → Bool) (turns : Nat) : List Bool :=
  first :: (List.range turns).map levels

theorem length_seen (first : Bool) (levels : Nat → Bool) (turns : Nat) :
    (seen first levels turns).length = turns + 1 := by
  simp [seen]

theorem seen_succ (first : Bool) (levels : Nat → Bool) (turns : Nat) :
    seen first levels (turns + 1) = seen first levels turns ++ [levels turns] := by
  simp [seen, List.range_succ]

@[simp] theorem samples_append (before after : List (Event Reply)) :
    samples (before ++ after) = samples before ++ samples after := by
  simp [samples]

def delay : Event Reply := ⟨.taskDelay pressSampleMs, ()⟩

structure TurnMeets (rule : List (Event Reply) → Event Reply → Prop) (cid : UInt32)
    (elapsedMs : Nat) (needRelease : Bool) (stableMs : Nat)
    (post : List (Event Reply) → Int → Prop) (events : List (Event Reply)) (pressed : Bool) :
    Prop where
  accept : needRelease = false → pressed = true → stableMs + 10 ≥ 40 →
    Meets rule events (unlessCancelled cid pressOk) post
  released : needRelease = true → pressed = false → stableMs + 10 ≥ 40 → rule events delay →
    Meets rule (events ++ [delay]) (waitLoop cid (elapsedMs + 10) false 0) post
  longer : pressed = !needRelease → stableMs + 10 < 40 → rule events delay →
    Meets rule (events ++ [delay]) (waitLoop cid (elapsedMs + 10) needRelease (stableMs + 10)) post
  bounced : pressed = needRelease → rule events delay →
    Meets rule (events ++ [delay]) (waitLoop cid (elapsedMs + 10) needRelease 0) post

section Turn

variable {rule : List (Event Reply) → Event Reply → Prop} {cid : UInt32}
  {before : List (Event Reply)} {post : List (Event Reply) → Int → Prop}

theorem waitLoop_turn {elapsedMs stableMs : Nat} {needRelease : Bool} (left : elapsedMs < 30000)
    (turn : Meets rule before (stopped cid elapsedMs) fun events value =>
      (∀ result, value = some result → post events result) ∧
      (value = none → ∀ pressed, rule events ⟨.buttonPressed, pressed⟩ →
        TurnMeets rule cid elapsedMs needRelease stableMs post
          (events ++ [⟨.buttonPressed, pressed⟩]) pressed)) :
    Meets rule before (waitLoop cid elapsedMs needRelease stableMs) post := by
  rw [waitLoop, if_pos (show elapsedMs < pressTimeoutMs from left), meets_bind]
  refine turn.imp ?_
  rintro events (_ | result) ⟨stops, goes_on⟩
  · simp only [buttonPressed, taskDelay, Program.perform_bind, meets_call]
    intro pressed sampled
    have rest := goes_on rfl pressed sampled
    by_cases wanted : pressed = !needRelease
    · have counted : (if needRelease = true then !pressed else pressed) = true := by
        cases needRelease <;> simp [wanted]
      simp only [counted, if_true]
      by_cases enough : stableMs + 10 ≥ 40
      · rw [if_pos (by simpa only [pressSampleMs, pressDebounceMs] using enough)]
        cases needRelease with
        | false => exact rest.accept rfl wanted enough
        | true =>
            intro _ waited
            exact rest.released rfl wanted enough waited
      · rw [if_neg (by simpa only [pressSampleMs, pressDebounceMs] using enough)]
        intro _ waited
        exact rest.longer wanted (by omega) waited
    · have bounce : pressed = needRelease := by
        cases needRelease <;> simpa using wanted
      have reset : (if needRelease = true then !pressed else pressed) = false := by
        cases needRelease <;> simp [bounce]
      simp only [reset, Bool.false_eq_true, if_false]
      rw [if_neg (by decide)]
      intro _ waited
      exact rest.bounced bounce waited
  · exact stops result rfl

theorem waitLoop_timeout (needRelease : Bool) (stableMs : Nat) (holds : post before pressTimeout) :
    Meets rule before (waitLoop cid (10 * 3000) needRelease stableMs) post := by
  rw [waitLoop, if_neg (by decide)]
  exact holds

end Turn

section Calm

variable {first : Bool} {levels : Nat → Bool} {before : List (Event Reply)} {cid : UInt32}

theorem unlessCancelled_calm (result : Int) :
    Meets (Calm first levels) before (unlessCancelled cid result) (fun events value =>
      value = result ∧ samples events = samples before) := by
  intro cancelled calm
  have clear : cancelled = false := calm
  subst cancelled
  refine ⟨rfl, ?_⟩
  rw [samples_append]
  exact List.append_nil _

theorem stopped_calm (elapsedMs : Nat) :
    Meets (Calm first levels) before (stopped cid elapsedMs) (fun events value =>
      value = none ∧ samples events = samples before) := by
  simp only [stopped, hidCancelled, hidKeepalive, Program.perform_bind, meets_call]
  intro cancelled calm
  have clear : cancelled = false := calm
  subst cancelled
  simp only [Bool.false_eq_true, if_false]
  split
  · intro error healthy
    have kept : error = hidOk ∨ error = hidErrRate := healthy
    have sent : ¬(error ≠ hidOk ∧ error ≠ hidErrRate) := by
      rintro ⟨bad, worse⟩
      exact kept.elim bad worse
    simp only [if_neg sent]
    simp [samples]
  · simp [samples]

theorem waitLoop_calm {turn stableMs : Nat} {needRelease : Bool}
    {post : List (Event Reply) → Int → Prop} (here : samples before = seen first levels turn)
    (left : turn < 3000)
    (accept : ∀ events, samples events = seen first levels (turn + 1) →
      needRelease = false → levels turn = true → stableMs + 10 ≥ 40 → post events pressOk)
    (released : ∀ events, samples events = seen first levels (turn + 1) →
      needRelease = true → levels turn = false → stableMs + 10 ≥ 40 →
      Meets (Calm first levels) events (waitLoop cid (10 * (turn + 1)) false 0) post)
    (longer : ∀ events, samples events = seen first levels (turn + 1) →
      levels turn = !needRelease → stableMs + 10 < 40 →
      Meets (Calm first levels) events
        (waitLoop cid (10 * (turn + 1)) needRelease (stableMs + 10)) post)
    (bounced : ∀ events, samples events = seen first levels (turn + 1) →
      levels turn = needRelease →
      Meets (Calm first levels) events (waitLoop cid (10 * (turn + 1)) needRelease 0) post) :
    Meets (Calm first levels) before (waitLoop cid (10 * turn) needRelease stableMs) post := by
  apply waitLoop_turn (by omega)
  refine (stopped_calm (10 * turn)).imp ?_
  rintro events result ⟨rfl, same⟩
  refine ⟨fun _ impossible => absurd impossible (by simp), fun _ pressed calm => ?_⟩
  have shown : pressed = levels turn := by
    have : pressed = look first levels (samples events).length := calm
    rw [same, here, length_seen] at this
    exact this
  subst shown
  have more : samples (events ++ [⟨Call.buttonPressed, levels turn⟩]) =
      seen first levels (turn + 1) := by
    rw [samples_append, same, here, seen_succ]
    rfl
  have delayed : samples (events ++ [⟨Call.buttonPressed, levels turn⟩] ++ [delay]) =
      seen first levels (turn + 1) := by
    rw [samples_append, more]
    exact List.append_nil _
  constructor
  · intro waiting pressed enough
    refine (unlessCancelled_calm pressOk).imp ?_
    rintro after value ⟨rfl, rest⟩
    exact accept after (rest.trans more) waiting pressed enough
  · intro held up enough _
    exact released _ delayed held up enough
  · intro wanted few _
    exact longer _ delayed wanted few
  · intro bounce _
    exact bounced _ delayed bounce

def Ends (first : Bool) (levels : Nat → Bool) (accepts : Nat → Prop) (events : List (Event Reply))
    (result : Int) : Prop :=
  (∃ turn < 3000, First accepts turn ∧ result = pressOk ∧
    samples events = seen first levels (turn + 1)) ∨
  ((∀ turn < 3000, ¬accepts turn) ∧ result = pressTimeout ∧
    samples events = seen first levels 3000)

/-- The button is up, or was released, before `start`. -/
theorem waitLoop_pressed (start left turn length : Nat) (time : turn + left = 3000)
    (here : samples before = seen first levels turn) (run : Run levels true start turn length)
    (short : length < 4) (none_before : ∀ earlier < turn, ¬Held levels true start 4 earlier) :
    Meets (Calm first levels) before (waitLoop cid (10 * turn) false (10 * length))
      (Ends first levels (Held levels true start 4)) := by
  induction left generalizing turn length before with
  | zero =>
      have last : turn = 3000 := time
      subst last
      exact waitLoop_timeout _ _ (Or.inr ⟨none_before, rfl, here⟩)
  | succ left ih =>
      refine waitLoop_calm here (by omega) ?_ ?_ ?_ ?_
      · intro events same _ pressed enough
        have held := ((run.extend pressed).held_iff 4).mpr (by omega)
        exact Or.inl ⟨turn, by omega, ⟨held, none_before⟩, rfl, same⟩
      · intro _ _ impossible
        cases impossible
      · intro events same pressed few
        have longer := run.extend pressed
        have := ih (turn + 1) (length + 1) (by omega) same longer (by omega)
          (longer.not_yet (by omega) none_before)
        rwa [Nat.mul_succ 10 length] at this
      · intro events same released
        have again := run.reset (show levels turn ≠ true by rw [released]; decide)
        exact ih (turn + 1) 0 (by omega) same again (by decide) (again.not_yet (by decide) none_before)

theorem Ends.imp {accepts accepts' : Nat → Prop} {events : List (Event Reply)} {result : Int}
    (ends : Ends first levels accepts events result)
    (same : ∀ turn < 3000, accepts turn ↔ accepts' turn) :
    Ends first levels accepts' events result := by
  rcases ends with ⟨turn, time, ⟨holds, none_before⟩, ok, seen_all⟩ | ⟨never, timeout, seen_all⟩
  · have earlier_not : ∀ earlier < turn, ¬accepts' earlier := by
      intro earlier below
      rw [← same earlier (by omega)]
      exact none_before earlier below
    exact Or.inl ⟨turn, time, ⟨(same turn time).mp holds, earlier_not⟩, ok, seen_all⟩
  · right
    refine ⟨fun turn time => ?_, timeout, seen_all⟩
    rw [← same turn time]
    exact never turn time

/-- Before the release of a held button is debounced. -/
theorem waitLoop_held (left turn length : Nat) (time : turn + left = 3000)
    (here : samples before = seen first levels turn) (run : Run levels false 0 turn length)
    (short : length < 4) (none_before : ∀ earlier < turn, ¬Held levels false 0 4 earlier) :
    Meets (Calm first levels) before (waitLoop cid (10 * turn) true (10 * length))
      (Ends first levels (Accepts true levels)) := by
  induction left generalizing turn length before with
  | zero =>
      have last : turn = 3000 := time
      subst last
      refine waitLoop_timeout _ _ (Or.inr ⟨?_, rfl, here⟩)
      rintro accepted below ⟨released, ⟨held, -⟩, pressed, -⟩
      exact none_before released (by omega) held
  | succ left ih =>
      refine waitLoop_calm here (by omega) ?_ ?_ ?_ ?_
      · intro _ _ impossible
        cases impossible
      · intro events same _ released enough
        have held := ((run.extend released).held_iff 4).mpr (by omega)
        have start : First (Held levels false 0 4) turn := ⟨held, none_before⟩
        have fresh : ∀ earlier < turn + 1, ¬Held levels true (turn + 1) 4 earlier := by
          rintro earlier below ⟨inside, -⟩
          omega
        refine (waitLoop_pressed (turn + 1) left (turn + 1) 0 (by omega) same
          (Run.empty levels true (turn + 1)) (by decide) fresh).imp
            fun events result ends => ends.imp ?_
        intro accepted _
        constructor
        · intro pressed
          exact ⟨turn, start, pressed⟩
        · rintro ⟨other, first_other, pressed⟩
          rw [start.unique first_other]
          exact pressed
      · intro events same released few
        have longer := run.extend released
        have := ih (turn + 1) (length + 1) (by omega) same longer (by omega)
          (longer.not_yet (by omega) none_before)
        rwa [Nat.mul_succ 10 length] at this
      · intro events same pressed
        have again := run.reset (show levels turn ≠ false by rw [pressed]; decide)
        exact ih (turn + 1) 0 (by omega) same again (by decide) (again.not_yet (by decide) none_before)

theorem pressWait_calm : Meets (Calm first levels) [] (pressWait cid)
    (Ends first levels (Accepts first levels)) := by
  simp only [pressWait, buttonReady, buttonPressed, Program.perform_bind, meets_call]
  intro ready calm
  have is_ready : ready = true := calm
  subst ready
  simp only [Bool.not_true, Bool.false_eq_true, if_false, meets_call]
  intro held same
  have shown : held = first := same
  subst held
  cases first with
  | true =>
      exact waitLoop_held 3000 0 0 rfl rfl (Run.empty levels false 0) (by decide) (by
        intro earlier below
        omega)
  | false =>
      exact waitLoop_pressed 0 3000 0 0 rfl rfl (Run.empty levels true 0) (by decide) (by
        intro earlier below
        omega)

theorem calm_live (done : List (Event Reply)) (c : Call) :
    ∃ reply, Calm first levels done ⟨c, reply⟩ := by
  cases c with
  | buttonReady => exact ⟨true, rfl⟩
  | buttonPressed => exact ⟨look first levels (samples done).length, rfl⟩
  | hidCancelled _ => exact ⟨false, rfl⟩
  | hidKeepalive _ _ => exact ⟨hidOk, Or.inl rfl⟩
  | taskDelay _ => exact ⟨(), trivial⟩

end Calm

/-- No look at the cancellation found one, and no keepalive failed other than by its rate. -/
def Undisturbed : Event Reply → Prop
  | ⟨.hidCancelled _, cancelled⟩ => cancelled = false
  | ⟨.hidKeepalive _ _, error⟩ => error = hidOk ∨ error = hidErrRate
  | _ => True

/-- A released sample, and after it four pressed ones at the end. -/
def FreshPress (levels : List Bool) : Prop :=
  ∃ earlier between, levels = earlier ++ false :: (between ++ [true, true, true, true])

def Clean (events : List (Event Reply)) : Prop := ∀ event ∈ events, Undisturbed event

theorem Clean.append {events : List (Event Reply)} {event : Event Reply} (clean : Clean events)
    (undisturbed : Undisturbed event) : Clean (events ++ [event]) := by
  intro other member
  rcases List.mem_append.mp member with earlier | last
  · exact clean other earlier
  · rw [List.mem_singleton.mp last]
    exact undisturbed

section Any

def anything (_ : List (Event Reply)) (_ : Event Reply) : Prop := True

variable {before : List (Event Reply)} {cid : UInt32}

theorem unlessCancelled_any (result : Int) :
    Meets anything before (unlessCancelled cid result) (fun events value =>
      samples events = samples before ∧
        (value = pressOk → result = pressOk ∧ (Clean before → Clean events))) := by
  simp only [unlessCancelled, hidCancelled, Program.perform_bind, meets_call]
  intro cancelled _
  cases cancelled with
  | true => simp [pressCancel, pressOk, samples]
  | false =>
      simp only [Bool.false_eq_true, if_false]
      exact ⟨by simp [samples], fun ok => ⟨ok, fun clean => clean.append rfl⟩⟩

theorem stopped_any (elapsedMs : Nat) :
    Meets anything before (stopped cid elapsedMs) (fun events value =>
      value ≠ some pressOk ∧ samples events = samples before ∧
        (value = none → Clean before → Clean events)) := by
  simp only [stopped, hidCancelled, hidKeepalive, Program.perform_bind, meets_call]
  intro cancelled _
  cases cancelled with
  | true => simp [pressCancel, pressOk, samples]
  | false =>
      simp only [Bool.false_eq_true, if_false]
      split
      · intro error _
        by_cases failed : error ≠ hidOk ∧ error ≠ hidErrRate
        · simp only [if_pos failed, meets_bind]
          refine (unlessCancelled_any pressDenied).imp ?_
          rintro events value ⟨same, only⟩
          refine ⟨?_, ?_, ?_⟩
          · intro ok
            exact absurd (only (Option.some.inj ok)).1 (by decide)
          · rw [same]
            simp [samples]
          · intro impossible
            cases impossible
        · simp only [if_neg failed]
          have healthy : error = hidOk ∨ error = hidErrRate := by
            by_contra neither
            exact failed (not_or.mp neither)
          have first : Undisturbed ⟨Call.hidCancelled cid, false⟩ := rfl
          exact ⟨by simp, by simp [samples], fun _ clean => (clean.append first).append healthy⟩
      · exact ⟨by simp, by simp [samples], fun _ clean => clean.append rfl⟩

def Deserved (events : List (Event Reply)) (result : Int) : Prop :=
  result = pressOk → Clean events ∧ FreshPress (samples events)

/-- The state of the loop, in terms of the samples so far: `stableMs` counts the pressed samples at
the end behind a released one, or some released samples. -/
def Counted (levels : List Bool) (needRelease : Bool) (stableMs : Nat) : Prop :=
  if needRelease then 0 < stableMs → false ∈ levels
  else ∃ earlier between length,
    levels = earlier ++ false :: (between ++ List.replicate length true) ∧ stableMs = 10 * length

theorem waitLoop_any (left turn stableMs : Nat) (needRelease : Bool) (time : turn + left = 3000)
    (clean : Clean before) (counted : Counted (samples before) needRelease stableMs)
    (short : stableMs < 40) :
    Meets anything before (waitLoop cid (10 * turn) needRelease stableMs) Deserved := by
  induction left generalizing turn stableMs needRelease before with
  | zero =>
      have last : turn = 3000 := time
      subst last
      exact waitLoop_timeout _ _ (fun ok => absurd ok (by decide))
  | succ left ih =>
      apply waitLoop_turn (by omega)
      refine (stopped_any (10 * turn)).imp ?_
      rintro events value ⟨not_ok, same, kept⟩
      constructor
      · rintro result rfl ok
        rw [ok] at not_ok
        exact absurd rfl not_ok
      · rintro rfl pressed -
        have clean' : Clean (events ++ [⟨.buttonPressed, pressed⟩]) :=
          (kept rfl clean).append trivial
        have grown : samples (events ++ [⟨.buttonPressed, pressed⟩]) =
            samples before ++ [pressed] := by
          rw [samples_append, same]
          rfl
        have delayed : samples (events ++ [⟨.buttonPressed, pressed⟩] ++ [delay]) =
            samples before ++ [pressed] := by
          rw [samples_append, grown]
          exact List.append_nil _
        constructor
        · rintro rfl rfl enough
          refine (unlessCancelled_any pressOk).imp ?_
          rintro after result ⟨rest, only⟩ ok
          refine ⟨(only ok).2 clean', ?_⟩
          obtain ⟨earlier, between, length, split, count⟩ := counted
          have three : length = 3 := by omega
          subst three
          refine ⟨earlier, between, ?_⟩
          rw [rest, grown, split]
          simp [List.replicate]
        · rintro rfl rfl enough -
          refine ih (turn + 1) 0 false (by omega) (clean'.append trivial) ?_ (by decide)
          rw [delayed]
          exact ⟨samples before, [], 0, rfl, rfl⟩
        · rintro wanted few -
          refine ih (turn + 1) (stableMs + 10) needRelease (by omega) (clean'.append trivial) ?_ few
          rw [delayed]
          cases needRelease with
          | true =>
              intro _
              simp [wanted]
          | false =>
              obtain ⟨earlier, between, length, split, count⟩ := counted
              refine ⟨earlier, between, length + 1, ?_, by omega⟩
              rw [split, wanted, List.replicate_succ']
              simp
        · rintro bounce -
          refine ih (turn + 1) 0 needRelease (by omega) (clean'.append trivial) ?_ (by decide)
          rw [delayed]
          cases needRelease with
          | true => simp [Counted]
          | false =>
              rw [bounce]
              exact ⟨samples before, [], 0, rfl, rfl⟩

theorem pressWait_any : Meets anything [] (pressWait cid) Deserved := by
  simp only [pressWait, buttonReady, buttonPressed, Program.perform_bind, meets_call]
  intro ready _
  cases ready with
  | false =>
      intro ok
      cases ok
  | true =>
      simp only [Bool.not_true, Bool.false_eq_true, if_false, meets_call]
      intro first _
      have clean : Clean ([] ++ [⟨Call.buttonReady, true⟩] ++ [⟨Call.buttonPressed, first⟩]) := by
        have none_yet : Clean [] := by
          intro event impossible
          cases impossible
        have ready_clean : Undisturbed ⟨Call.buttonReady, true⟩ := trivial
        exact (none_yet.append ready_clean).append trivial
      refine waitLoop_any 3000 0 0 first rfl clean ?_ (by decide)
      cases first with
      | true => simp [Counted]
      | false => exact ⟨[], [], 0, rfl, rfl⟩

end Any

/-- `press_wait` accepts exactly a fresh debounced press. The first part is about runs without a
cancellation, on any levels of the button; the second one is about all runs. -/
theorem pressWait_fresh (cid : UInt32) :
    (∀ first levels,
      (∃ events result, Execution (pressWait cid) events result ∧
        Guarded (Calm first levels) events) ∧
      ∀ events result, Execution (pressWait cid) events result →
        Guarded (Calm first levels) events →
        (∀ turn < 3000, First (Accepts first levels) turn →
          result = pressOk ∧ samples events = seen first levels (turn + 1)) ∧
        ((∀ turn < 3000, ¬Accepts first levels turn) →
          result = pressTimeout ∧ samples events = seen first levels 3000)) ∧
    ∀ events result, Execution (pressWait cid) events result → result = pressOk →
      (∀ event ∈ events, Undisturbed event) ∧ FreshPress (samples events) := by
  constructor
  · intro first levels
    have live : ∃ events result, Execution (pressWait cid) events result ∧
        Guarded (fun done => Calm first levels ([] ++ done)) events := execution_exists calm_live _
    refine ⟨live, fun events result run calm => ?_⟩
    have ends : Ends first levels (Accepts first levels) events result :=
      pressWait_calm.execution run calm
    constructor
    · intro turn time accepted
      rcases ends with ⟨other, _, accepted', ok, same⟩ | ⟨never, _, _⟩
      · rw [accepted.unique accepted']
        exact ⟨ok, same⟩
      · exact absurd accepted.1 (never turn time)
    · intro never
      rcases ends with ⟨turn, time, accepted, _, _⟩ | ⟨_, timeout, same⟩
      · exact absurd accepted.1 (never turn time)
      · exact ⟨timeout, same⟩
  · intro events result run
    have deserved : Deserved ([] ++ events) result :=
      pressWait_any.execution run (guarded_of_forall _ _ (fun _ _ _ => trivial))
    exact deserved

/-- A button that is pressed as soon as the wait begins. -/
theorem pressed_button_is_accepted :
    ∃ events, Execution (pressWait 1) events pressOk ∧ samples events = [false, true, true, true, true] ∧
      FreshPress (samples events) := by
  have accepted : First (Accepts false fun _ => true) 3 := by
    refine ⟨⟨by decide, fun _ _ => rfl⟩, ?_⟩
    rintro earlier below ⟨inside, -⟩
    omega
  obtain ⟨⟨events, result, run, calm⟩, runs⟩ := (pressWait_fresh 1).1 false fun _ => true
  obtain ⟨rfl, same⟩ := (runs events result run calm).1 3 (by decide) accepted
  exact ⟨events, run, same, ((pressWait_fresh 1).2 events _ run rfl).2⟩

end P4Key.Press
