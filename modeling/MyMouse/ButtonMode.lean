import MyMouse.Run

namespace MyMouse

open Runs

structure LedValue where
  r : BitVec 16
  g : BitVec 16
  deriving DecidableEq

def SHORT_FADE_MS : Nat := 60
def LONG_FADE_MS : Nat := 500

inductive LifecycleState
  | freshlyBooted
  | normalOperation
  | waitingForShutdown
  deriving DecidableEq

/-- What button_mode.c asks of the rest of the firmware. -/
inductive ButtonModeCall
  | pwmScheduleSequenceFromLast (target : LedValue) (timeMs : Nat)
  | pwmScheduleSequenceFromZero (target : LedValue) (timeMs : Nat)
  | shutdown
  | debounceSetEdgeCb
  | batteryTriggerMeasurement
  deriving DecidableEq

/-- The timer has what it was started for while it runs. -/
structure ButtonMode where
  lifecycleState : LifecycleState
  lifecycleTimer : Option Nat
  deriving DecidableEq

def lifecycleTimerCb (b : ButtonMode) : ButtonModeCall × ButtonMode :=
  match b.lifecycleState with
  | .freshlyBooted =>
    (.pwmScheduleSequenceFromLast ⟨0, 0⟩ LONG_FADE_MS,
      { b with lifecycleState := .normalOperation })
  | .normalOperation =>
    (.pwmScheduleSequenceFromZero ⟨80, 0⟩ SHORT_FADE_MS,
      { b with lifecycleState := .waitingForShutdown })
  | .waitingForShutdown => (.shutdown, b)

/-- `remaining` is what `k_timer_remaining_get` returns, in whole milliseconds: none are left
when the timer is off or about to run out. -/
def buttonModeGpioCallback (holdTime : Nat) (newValue : Bool) (remaining : Nat) (b : ButtonMode) :
    List ButtonModeCall × ButtonMode :=
  match b.lifecycleState with
  | .freshlyBooted =>
    if newValue = true ∧ remaining = 0 then
      ([.debounceSetEdgeCb], { b with lifecycleTimer := some 3000 })
    else ([.debounceSetEdgeCb], b)
  | .normalOperation =>
    if newValue = false then ([.debounceSetEdgeCb], { b with lifecycleTimer := some holdTime })
    else ([.debounceSetEdgeCb], { b with lifecycleTimer := none })
  | .waitingForShutdown =>
    ([.pwmScheduleSequenceFromLast ⟨0, 0⟩ SHORT_FADE_MS, .debounceSetEdgeCb],
      { b with lifecycleTimer := some SHORT_FADE_MS })

/-- An edge never changes the lifecycle state. -/
theorem gpioCallback_lifecycleState (holdTime : Nat) (newValue : Bool) (remaining : Nat)
    (b : ButtonMode) : (buttonModeGpioCallback holdTime newValue remaining b).2.lifecycleState =
      b.lifecycleState := by
  unfold buttonModeGpioCallback
  split
  next => split <;> rfl
  next => split <;> rfl
  next => rfl

def initialLed (batLevel : Int) : LedValue :=
  if batLevel > 50 then ⟨BitVec.ofInt 16 ((100 - batLevel) * 2), 99⟩
  else ⟨99, BitVec.ofInt 16 (batLevel * 2)⟩

def buttonModeInit (holdTime : Nat) (batLevel : Int) (level : Bool) :
    List ButtonModeCall × ButtonMode :=
  let (calls, b) := buttonModeGpioCallback holdTime level 0 ⟨.freshlyBooted, none⟩
  (.batteryTriggerMeasurement ::
    .pwmScheduleSequenceFromZero (initialLed batLevel) SHORT_FADE_MS :: calls, b)

/-- The button among its edges: `level` is the last one the callback was given. -/
structure ButtonModeRun where
  mode : ButtonMode
  level : Bool
  deriving DecidableEq

/-- An edge, with what the timer has left, or the timer running out. -/
inductive ButtonModeStep
  | edge (newValue : Bool) (remaining : Nat)
  | expire
  deriving DecidableEq

namespace ButtonModeRun

def start (holdTime : Nat) (batLevel : Int) (level : Bool) : ButtonModeRun :=
  { mode := (buttonModeInit holdTime batLevel level).2, level := level }

/-- The one-shot timer is off when its callback runs. -/
def expired (s : ButtonModeRun) : ButtonModeCall × ButtonMode :=
  lifecycleTimerCb { s.mode with lifecycleTimer := none }

section Steps

variable (holdTime : Nat)

def step (s : ButtonModeRun) : ButtonModeStep → Option ButtonModeRun
  | .edge newValue remaining =>
    if newValue ≠ s.level ∧ (s.mode.lifecycleTimer = none → remaining = 0) then
      some { mode := (buttonModeGpioCallback holdTime newValue remaining s.mode).2, level := newValue }
    else none
  | .expire =>
    if s.mode.lifecycleTimer ≠ none then some { s with mode := s.expired.2 } else none

def calls (s : ButtonModeRun) : ButtonModeStep → List ButtonModeCall
  | .edge newValue remaining => (buttonModeGpioCallback holdTime newValue remaining s.mode).1
  | .expire => [s.expired.1]

end Steps

abbrev Trace := List (ButtonModeRun × ButtonModeStep)

def Normal (s : ButtonModeRun) : Prop := s.mode.lifecycleState = .normalOperation

def edgeOf (p : ButtonModeRun × ButtonModeStep) : Option Bool :=
  match p.2 with
  | .edge newValue _ => some newValue
  | .expire => none

/-- The level of the latest edge. -/
def lastEdge (trace : Trace) : Option Bool := trace.findSome? edgeOf

/-- The last step was a press in normal operation. -/
def Pressed (trace : Trace) : Prop :=
  ∃ s remaining before, trace = (s, .edge false remaining) :: before ∧ s.Normal

/-- In normal operation the timer ran out right after a press, and `moved` is what came then. -/
def HeldThen (moved trace : Trace) : Prop :=
  ∃ s before, trace = moved ++ (s, .expire) :: before ∧ s.Normal ∧ Pressed before

structure Law (trace : Trace) (s : ButtonModeRun) : Prop where
  normal : s.mode.lifecycleState = .normalOperation → s.mode.lifecycleTimer ≠ none → Pressed trace
  waiting : s.mode.lifecycleState = .waitingForShutdown →
    ∃ moved, HeldThen moved trace ∧
      (s.mode.lifecycleTimer ≠ none → ∃ p ∈ moved, edgeOf p ≠ none)

variable {holdTime : Nat} {batLevel : Int} {level : Bool} {s t : ButtonModeRun} {trace : Trace}

theorem edge_eq {newValue : Bool} {remaining : Nat}
    (h : step holdTime s (.edge newValue remaining) = some t) :
    t = { mode := (buttonModeGpioCallback holdTime newValue remaining s.mode).2,
          level := newValue } := by
  simp only [step] at h
  split at h
  next => exact (Option.some.inj h).symm
  next => simp at h

theorem expire_eq (h : step holdTime s .expire = some t) :
    s.mode.lifecycleTimer ≠ none ∧ t = { s with mode := s.expired.2 } := by
  simp only [step] at h
  split at h
  next running => exact ⟨running, (Option.some.inj h).symm⟩
  next => simp at h

theorem law_start : Law [] (start holdTime batLevel level) := by
  have hfresh : (start holdTime batLevel level).mode.lifecycleState = .freshlyBooted := by
    cases level <;> rfl
  refine ⟨?_, ?_⟩
  · intro h
    rw [hfresh] at h
    cases h
  · intro h
    rw [hfresh] at h
    cases h

theorem HeldThen.cons {moved : Trace} (h : HeldThen moved trace) (p : ButtonModeRun × ButtonModeStep) :
    HeldThen (p :: moved) (p :: trace) := by
  obtain ⟨s, before, rfl, hs, hpressed⟩ := h
  exact ⟨s, before, rfl, hs, hpressed⟩

theorem law_edge {newValue : Bool} {remaining : Nat} (law : Law trace s)
    (h : step holdTime s (.edge newValue remaining) = some t) :
    Law ((s, .edge newValue remaining) :: trace) t := by
  have ht := edge_eq h
  have hsame : t.mode.lifecycleState = s.mode.lifecycleState := by
    rw [ht]
    exact gpioCallback_lifecycleState holdTime newValue remaining s.mode
  refine ⟨?_, ?_⟩
  · intro hnormal running
    rw [hsame] at hnormal
    cases newValue with
    | false => exact ⟨s, remaining, trace, rfl, hnormal⟩
    | true =>
      exfalso
      apply running
      rw [ht]
      simp [buttonModeGpioCallback, hnormal]
  · intro hwaiting
    rw [hsame] at hwaiting
    obtain ⟨moved, held, _⟩ := law.waiting hwaiting
    refine ⟨_, held.cons (s, .edge newValue remaining), ?_⟩
    intro _
    exact ⟨_, List.mem_cons_self, by simp [edgeOf]⟩

theorem law_expire (law : Law trace s) (h : step holdTime s .expire = some t) :
    Law ((s, .expire) :: trace) t := by
  obtain ⟨running, ht⟩ := expire_eq h
  have hoff : t.mode.lifecycleTimer = none := by
    rw [ht]
    simp only [expired, lifecycleTimerCb]
    cases s.mode.lifecycleState <;> rfl
  refine ⟨fun _ on => absurd hoff on, ?_⟩
  intro hwaiting
  cases hstate : s.mode.lifecycleState with
  | freshlyBooted =>
    rw [ht] at hwaiting
    simp [expired, lifecycleTimerCb, hstate] at hwaiting
  | normalOperation =>
    have pressed := law.normal hstate running
    exact ⟨[], ⟨s, trace, rfl, hstate, pressed⟩, fun on => absurd hoff on⟩
  | waitingForShutdown =>
    obtain ⟨moved, held, _⟩ := law.waiting hstate
    exact ⟨_, held.cons (s, .expire), fun on => absurd hoff on⟩

theorem run_law (run : Run (step holdTime) (start holdTime batLevel level) trace s) :
    Law trace s := by
  induction run with
  | start => exact law_start
  | @next trace s a t _ hstep ih =>
    cases a with
    | edge newValue remaining => exact law_edge ih hstep
    | expire => exact law_expire ih hstep

/-- Only the timer's callback shuts the mouse down, and only in the last state. -/
theorem calls_shutdown {a : ButtonModeStep} (h : .shutdown ∈ calls holdTime s a) :
    a = .expire ∧ s.mode.lifecycleState = .waitingForShutdown := by
  cases a with
  | edge newValue remaining =>
    simp only [calls, buttonModeGpioCallback] at h
    split at h
    next => split at h <;> simp at h
    next => split at h <;> simp at h
    next => simp at h
  | expire =>
    refine ⟨rfl, ?_⟩
    simp only [calls, expired, lifecycleTimerCb] at h
    split at h
    next => simp at h
    next => simp at h
    next hstate => exact hstate

theorem init_shutdown : .shutdown ∉ (buttonModeInit holdTime batLevel level).1 := by
  cases level with
  | false => simp [buttonModeInit, buttonModeGpioCallback]
  | true => simp [buttonModeInit, buttonModeGpioCallback]

theorem Pressed.lastEdge (h : Pressed trace) : lastEdge trace = some false := by
  obtain ⟨s, remaining, before, rfl, _⟩ := h
  rfl

end ButtonModeRun

open ButtonModeRun in
/-- In every run the mouse is shut down only when the timer runs out after an edge that followed
a held press, and in normal operation the timer runs only after a press. -/
theorem shutdown_needs_held_button (holdTime : Nat) (batLevel : Int) (level : Bool)
    {trace : Trace} {s : ButtonModeRun}
    (run : Run (step holdTime) (start holdTime batLevel level) trace s) :
    ButtonModeCall.shutdown ∉ (buttonModeInit holdTime batLevel level).1 ∧
    (∀ a t, step holdTime s a = some t → ButtonModeCall.shutdown ∈ calls holdTime s a →
      a = .expire ∧ ∃ moved, HeldThen moved trace ∧ ∃ p ∈ moved, edgeOf p ≠ none) ∧
    (s.mode.lifecycleState = .normalOperation → s.mode.lifecycleTimer ≠ none →
      lastEdge trace = some false) := by
  have law := run_law run
  refine ⟨init_shutdown, ?_, ?_⟩
  · intro a t hstep hcall
    obtain ⟨rfl, hstate⟩ := calls_shutdown hcall
    obtain ⟨running, _⟩ := expire_eq hstep
    obtain ⟨moved, held, after⟩ := law.waiting hstate
    exact ⟨rfl, moved, held, after running⟩
  · intro hnormal running
    exact (law.normal hnormal running).lastEdge

open ButtonModeRun in
theorem shutdown_needs_held_button_once :
    ∃ trace s, Run (step 500) (start 500 80 true) trace s ∧
      (∀ a t, step 500 s a = some t → ButtonModeCall.shutdown ∈ calls 500 s a →
        a = .expire ∧ ∃ moved, HeldThen moved trace ∧ ∃ p ∈ moved, edgeOf p ≠ none) ∧
      (step 500 s .expire).isSome = true ∧ ButtonModeCall.shutdown ∈ calls 500 s .expire := by
  have hreplay : (replay (step 500) (start 500 80 true)
      [.expire, .edge false 0, .expire, .edge true 0]).any
      (fun s => decide ((step 500 s .expire).isSome = true ∧
        ButtonModeCall.shutdown ∈ calls 500 s .expire)) = true := by decide +kernel
  obtain ⟨trace, s, run, _, hlast⟩ := exists_run_of_replay hreplay
  obtain ⟨hsome, hcall⟩ := of_decide_eq_true hlast
  exact ⟨trace, s, run, (shutdown_needs_held_button 500 80 true run).2.1, hsome, hcall⟩

end MyMouse
