import MyMouse.ButtonPresses
import MyMouse.ButtonQueues
import MyMouse.DebounceRun

namespace MyMouse

open BitMask Runs

/-- What the debounce service calls for the buttons, with the level each queue was initialised
from and whether it has been. -/
structure PathUsers where
  source : ButtonsCollector
  ready : Button → Bool
  initial : Nat → Bool

/-- The buttons from their pins to the report. `before` holds the levels a button's pin has had
before its present one, the latest first, since its queue was initialised. -/
structure ButtonPath where
  system : DebounceSystem DebounceUser PathUsers
  level : BitVec 32
  before : Button → List Bool

/-- A pin changes, `hid_src_buttons_init` makes its two calls for a button, another client
registers its pin, an interrupt comes, or the collector or a call to it goes on. -/
inductive PathStep
  | pinLevel (pin : Nat) (level : Bool)
  | initQueue (button : Button)
  | register (button : Button)
  | registerOther (pin : Nat)
  | edgeIrq
  | timerTick
  | source (step : ButtonsStep)
  deriving DecidableEq

namespace ButtonPath

/-- Before the initialisation the queues are those of an unpressed button. -/
def reset (level : BitVec 32) : ButtonPath :=
  { system :=
      { gpio := Gpio.reset
        app :=
          { debounce := Debounce.reset
            users :=
              { source := .start fun _ => true, ready := fun _ => false, initial := fun _ => true } } }
    level := level
    before := fun _ => [] }

def users (s : ButtonPath) : PathUsers := s.system.app.users

def source (s : ButtonPath) : ButtonsCollector := s.users.source

def debounce (s : ButtonPath) : Debounce DebounceUser := s.system.app.debounce

def mapUsers (f : PathUsers → PathUsers) (s : ButtonPath) : ButtonPath :=
  { s with system := { s.system with app := { s.system.app with users := f s.system.app.users } } }

def armed (s : ButtonPath) (pin : Nat) : Bool := s.system.gpio.gpioIntEnabled.getLsbD pin

def fromLevel (s : ButtonPath) (pin : Nat) : Bool := s.system.gpio.gpioIntFromLevel.getLsbD pin

def requested (s : ButtonPath) (i pin : Nat) : Bool := (s.debounce.shiftarr i).getLsbD pin

def registered (s : ButtonPath) (button : Button) : Bool :=
  decide (s.debounce.callbacks button.pin = some .hidSrcButtonsInterruptCb)

/-- The threads start when the initialisation is over. -/
def booted (s : ButtonPath) : Bool :=
  s.registered .left && s.registered .right && s.registered .middle

/-- The level the button's callback was last called with, at first the one of its queue. -/
def lastDelivered (s : ButtonPath) (button : Button) : Bool :=
  (s.source.levels button).headD (s.users.initial button.pin)

/-- The requests the next tick of the timer serves. -/
def nextRequests (numShifts : Nat) (s : ButtonPath) : BitVec 32 :=
  s.debounce.shiftarr (s.debounce.circularIndexToPhys numShifts 1)

section Steps

variable (numShifts numSources : Nat) (id : Fin MAX_NUM_OF_HID_SOURCES)

def userCall (callback : DebounceUser) (pin : Nat) (newLevel : Bool)
    (s : DebounceSystem DebounceUser PathUsers) : DebounceSystem DebounceUser PathUsers :=
  match callback with
  | .hidSrcButtonsInterruptCb =>
    { s with app := { s.app with
      users := { s.app.users with source := s.app.users.source.interrupt id pin newLevel } } }
  | .other => s

def step (s : ButtonPath) : PathStep → Option ButtonPath
  | .pinLevel pin level =>
    if s.level.getLsbD pin = level then some s
    else some { s with
      level := writeBit s.level pin level
      before := fun button =>
        if button.pin = pin then s.level.getLsbD pin :: s.before button else s.before button }
  | .initQueue button =>
    if s.users.ready button then none
    else
      let level := s.level.getLsbD button.pin
      some { s.mapUsers (fun u =>
        { source := u.source.initQueue button level
          ready := Function.update u.ready button true
          initial := Function.update u.initial button.pin level }) with
        before := Function.update s.before button [] }
  | .register button =>
    if s.users.ready button && !s.registered button then
      some { s with
        system := debounceSetEdgeCb button.pin (s.level.getLsbD button.pin)
          .hidSrcButtonsInterruptCb s.system }
    else none
  | .registerOther pin =>
    if pin < 32 ∧ pin ∉ buttonPins then
      some { s with system := debounceSetEdgeCb pin (s.level.getLsbD pin) .other s.system }
    else none
  | .edgeIrq => some { s with system := debounceIrqHandler numShifts (userCall id) s.level s.system }
  | .timerTick =>
    if s.debounce.timerRunning then
      some { s with system := debounceTimerCb numShifts s.level s.system }
    else none
  | .source (.interrupt _ _) => none
  | .source a =>
    match a, s.booted with
    | .thread, false | .filler, false | .otherFiller _ _ _, false => none
    | a, _ => (s.source.step numSources id a).map fun source =>
      s.mapUsers ({ · with source := source })

/-- No queue is full of 2^32 toggles. -/
def Room (s : ButtonPath) : PathStep → Prop
  | .edgeIrq => ∀ button, (s.source.queue button).pending + 1 < 2 ^ 32
  | _ => True

theorem forall_button {p : Button → Prop} : (p .left ∧ p .right ∧ p .middle) ↔ ∀ button, p button := by
  constructor
  · rintro ⟨hleft, hright, hmiddle⟩ button
    cases button with
    | left => exact hleft
    | right => exact hright
    | middle => exact hmiddle
  · intro h
    exact ⟨h .left, h .right, h .middle⟩

instance (s : ButtonPath) (a : PathStep) : Decidable (Room s a) :=
  match a with
  | .edgeIrq => decidable_of_iff _ forall_button
  | .pinLevel _ _ => inferInstanceAs (Decidable True)
  | .initQueue _ => inferInstanceAs (Decidable True)
  | .register _ => inferInstanceAs (Decidable True)
  | .registerOther _ => inferInstanceAs (Decidable True)
  | .timerTick => inferInstanceAs (Decidable True)
  | .source _ => inferInstanceAs (Decidable True)

end Steps

/-- What there is of a button below the collector. -/
@[ext] structure View where
  level : Bool
  before : List Bool
  armed : Bool
  fromLevel : Bool
  requested : Nat → Bool
  callback : Option DebounceUser
  ready : Bool
  initial : Bool
  levels : List Bool

def view (s : ButtonPath) (button : Button) : View :=
  { level := s.level.getLsbD button.pin
    before := s.before button
    armed := s.armed button.pin
    fromLevel := s.fromLevel button.pin
    requested := fun i => s.requested i button.pin
    callback := s.debounce.callbacks button.pin
    ready := s.users.ready button
    initial := s.users.initial button.pin
    levels := s.source.levels button }

namespace View

def Registered (v : View) : Prop := v.callback = some .hidSrcButtonsInterruptCb

/-- The levels delivered are some of those the pin has had, in their order; while an edge is
pending, they are some of those before the present one. -/
structure Ok (v : View) : Prop where
  armed : v.armed = true → v.Registered
  requested : ∀ i, v.requested i = true → v.Registered
  registered : v.Registered → v.ready = true
  owned : v.callback ≠ some .other
  unready : v.ready = false → v.levels = []
  seen : v.ready = true → (v.levels ++ [v.initial]).Sublist (v.level :: v.before)
  fresh : v.armed = true → v.level ≠ v.fromLevel → (v.levels ++ [v.initial]).Sublist v.before

def moveTo (v : View) (level : Bool) : View :=
  { v with level := level, before := v.level :: v.before }

def initQueue (v : View) : View := { v with ready := true, initial := v.level, before := [] }

def register (v : View) : View :=
  { v with armed := true, fromLevel := v.level, callback := some .hidSrcButtonsInterruptCb }

def disable (v : View) : View := { v with armed := false }

def serve (v : View) (cell : Nat) : View :=
  { v with requested := Function.update v.requested cell true, levels := v.level :: v.levels }

def tick (v : View) (head : Nat) : View :=
  { v with
    armed := v.armed || v.requested head
    fromLevel := if v.requested head then v.level else v.fromLevel
    requested := Function.update v.requested head false }

variable {v : View}

theorem Ok.moveTo (h : v.Ok) {level : Bool} : (v.moveTo level).Ok := by
  refine ⟨h.armed, h.requested, h.registered, h.owned, h.unready, ?_, ?_⟩
  · intro hready
    exact (h.seen hready).trans (List.sublist_cons_self level _)
  · intro harmed _
    exact h.seen (h.registered (h.armed harmed))

theorem Ok.initQueue (h : v.Ok) (hunready : v.ready = false) : v.initQueue.Ok := by
  have hnot : ¬ v.Registered := by
    intro hregistered
    rw [h.registered hregistered] at hunready
    cases hunready
  refine ⟨h.armed, h.requested, fun _ => rfl, h.owned, fun hf => Bool.noConfusion hf, ?_, ?_⟩
  · intro _
    change (v.levels ++ [v.level]).Sublist [v.level]
    rw [h.unready hunready]
    exact List.Sublist.refl _
  · intro harmed
    exact absurd (h.armed harmed) hnot

theorem Ok.register (h : v.Ok) (hready : v.ready = true) : v.register.Ok := by
  refine ⟨fun _ => rfl, fun _ _ => rfl, fun _ => hready, ?_, h.unready, h.seen, ?_⟩
  · intro hother
    cases hother
  · intro _ hne
    exact absurd rfl hne

theorem Ok.disable (h : v.Ok) : v.disable.Ok :=
  ⟨fun hf => Bool.noConfusion hf, h.requested, h.registered, h.owned, h.unready, h.seen,
    fun hf => Bool.noConfusion hf⟩

/-- A delivery of a level that the pin has not had when the last one was. -/
theorem Ok.serve (h : v.Ok) {cell : Nat} (hregistered : v.Registered) (hdisabled : v.armed = false)
    (hfresh : (v.levels ++ [v.initial]).Sublist v.before) : (v.serve cell).Ok := by
  refine ⟨h.armed, fun _ _ => hregistered, h.registered, h.owned, ?_, ?_, ?_⟩
  · intro hunready
    change v.ready = false at hunready
    rw [h.registered hregistered] at hunready
    cases hunready
  · intro _
    exact hfresh.cons_cons v.level
  · intro harmed
    change v.armed = true at harmed
    rw [hdisabled] at harmed
    cases harmed

theorem Ok.tick (h : v.Ok) {head : Nat} : (v.tick head).Ok := by
  refine ⟨?_, ?_, h.registered, h.owned, h.unready, h.seen, ?_⟩
  · intro harmed
    rcases Bool.or_eq_true_iff.mp harmed with hbefore | hrequested
    · exact h.armed hbefore
    · exact h.requested head hrequested
  · intro i hrequested
    change Function.update v.requested head false i = true at hrequested
    by_cases hi : i = head
    · rw [hi, Function.update_self] at hrequested
      cases hrequested
    · rw [Function.update_of_ne hi] at hrequested
      exact h.requested i hrequested
  · intro harmed hne
    change v.level ≠ (if v.requested head then v.level else v.fromLevel) at hne
    change (v.armed || v.requested head) = true at harmed
    cases hrequested : v.requested head with
    | true =>
      rw [hrequested, if_pos rfl] at hne
      exact absurd rfl hne
    | false =>
      rw [hrequested, if_neg Bool.false_ne_true] at hne
      rw [hrequested, Bool.or_false] at harmed
      exact h.fresh harmed hne

end View

variable {numShifts numSources : Nat} {id : Fin MAX_NUM_OF_HID_SOURCES} {s t : ButtonPath}

structure Inv (id : Fin MAX_NUM_OF_HID_SOURCES) (s : ButtonPath) : Prop where
  views : ∀ button, (s.view button).Ok
  source : s.source.Ok id s.users.initial
  unbooted : s.booted = false → ∀ button, s.source.reported button = []

theorem registered_iff {button : Button} :
    s.registered button = true ↔ (s.view button).Registered := decide_eq_true_iff

theorem booted_iff : s.booted = true ↔ ∀ button, s.registered button = true := by
  unfold booted
  rw [Bool.and_eq_true, Bool.and_eq_true, and_assoc]
  exact @forall_button (fun button => s.registered button = true)

theorem pin_lt (button : Button) : button.pin < 32 := by
  cases button <;> decide

theorem mem_buttonPins {pin : Nat} : pin ∈ buttonPins ↔ ∃ button : Button, button.pin = pin := by
  constructor
  · intro h
    simp only [buttonPins, List.mem_cons, List.not_mem_nil, or_false] at h
    rcases h with rfl | rfl | rfl
    · exact ⟨.left, rfl⟩
    · exact ⟨.right, rfl⟩
    · exact ⟨.middle, rfl⟩
  · rintro ⟨button, rfl⟩
    cases button <;> decide

theorem inv_reset (id : Fin MAX_NUM_OF_HID_SOURCES) (level : BitVec 32) : Inv id (reset level) := by
  refine ⟨?_, ButtonsCollector.ok_start id _, fun _ _ => rfl⟩
  intro button
  refine ⟨?_, ?_, ?_, ?_, fun _ => rfl, fun hf => Bool.noConfusion hf, ?_⟩
  · intro harmed
    change (0#32).getLsbD button.pin = true at harmed
    rw [BitVec.getLsbD_zero] at harmed
    cases harmed
  · intro i hrequested
    change (0#32).getLsbD button.pin = true at hrequested
    rw [BitVec.getLsbD_zero] at hrequested
    cases hrequested
  · intro hregistered
    cases hregistered
  · intro hother
    cases hother
  · intro harmed
    change (0#32).getLsbD button.pin = true at harmed
    rw [BitVec.getLsbD_zero] at harmed
    cases harmed

theorem view_pinLevel {pin : Nat} {level : Bool} (button : Button) :
    view { s with
      level := writeBit s.level pin level
      before := fun button =>
        if button.pin = pin then s.level.getLsbD pin :: s.before button else s.before button }
      button = if button.pin = pin then (s.view button).moveTo level else s.view button := by
  by_cases heq : button.pin = pin
  · subst heq
    rw [if_pos rfl]
    ext1 <;> simp [view, View.moveTo, users, armed, fromLevel, requested, debounce, source,
      getLsbD_writeBit (pin_lt button)]
  · rw [if_neg heq]
    ext1 <;> simp [view, users, armed, fromLevel, requested, debounce, source, heq,
      getLsbD_writeBit (pin_lt button)]

theorem view_initQueue {button other : Button} :
    view { s.mapUsers (fun u =>
        { source := u.source.initQueue button (s.level.getLsbD button.pin)
          ready := Function.update u.ready button true
          initial := Function.update u.initial button.pin (s.level.getLsbD button.pin) }) with
        before := Function.update s.before button [] } other =
      if other = button then (s.view other).initQueue else s.view other := by
  by_cases heq : other = button
  · subst heq
    rw [if_pos rfl]
    ext1 <;> simp [view, View.initQueue, mapUsers, users, armed, fromLevel, requested, debounce,
      source, ButtonsCollector.initQueue]
  · have hpin : other.pin ≠ button.pin := fun h => heq (Button.pin_injective h)
    rw [if_neg heq]
    ext1 <;> simp [view, mapUsers, users, armed, fromLevel, requested, debounce, source,
      ButtonsCollector.initQueue, heq, hpin]

theorem view_setEdgeCb {pin : Nat} {callback : DebounceUser} (hlt : pin < 32) (button : Button) :
    view { s with system := debounceSetEdgeCb pin (s.level.getLsbD pin) callback s.system } button =
      if button.pin = pin then
        { s.view button with
          armed := true, fromLevel := s.level.getLsbD pin, callback := some callback }
      else s.view button := by
  have hbutton := pin_lt button
  by_cases heq : button.pin = pin
  · subst heq
    rw [if_pos rfl]
    ext1 <;> simp [view, users, armed, fromLevel, requested, debounce, source, debounceSetEdgeCb,
      WithGpio.mapGpio, WithGpio.mapDebounce, gpioSetEdgeCb_enabled hbutton,
      gpioSetEdgeCb_fromLevel hbutton]
  · rw [if_neg heq]
    ext1 <;> simp [view, users, armed, fromLevel, requested, debounce, source, debounceSetEdgeCb,
      WithGpio.mapGpio, WithGpio.mapDebounce, gpioSetEdgeCb_enabled hbutton,
      gpioSetEdgeCb_fromLevel hbutton, heq]

theorem view_tick (button : Button) :
    view { s with system := debounceTimerCb numShifts s.level s.system } button =
      (s.view button).tick (s.debounce.circularIndexToPhys numShifts 1) := by
  generalize hhead : s.debounce.circularIndexToPhys numShifts 1 = head
  have hrotate : (s.system.app.debounce.rotateBuffer numShifts).shiftarrCell0Index = head := hhead
  by_cases hz : s.debounce.shiftarr head = 0#32
  · have hreq : (s.view button).requested head = false := by
      simp [view, requested, hz]
    have htick : (s.view button).tick head = s.view button := by
      ext1 <;> simp [View.tick, hreq]
    have hrequests : (s.system.app.debounce.rotateBuffer numShifts).shiftarr head = 0#32 := hz
    rw [htick]
    simp only [debounceTimerCb, WithGpio.mapDebounce, hrotate, hrequests, ne_eq, not_true_eq_false,
      if_false]
    rfl
  · have hrequests : (s.system.app.debounce.rotateBuffer numShifts).shiftarr head =
        s.debounce.shiftarr head := rfl
    simp only [debounceTimerCb, WithGpio.mapDebounce, WithGpio.mapGpio, hrotate, hrequests, ne_eq, hz,
      not_false_eq_true, if_true]
    ext1
    case armed => exact gpioSetEdgeCbMask_enabled
    case fromLevel => exact gpioSetEdgeCbMask_fromLevel (pin_lt button)
    case requested =>
      funext i
      by_cases hi : i = head
      · simp [view, requested, debounce, Debounce.finishMove, View.tick, hi]
      · simp [view, requested, debounce, Debounce.finishMove, View.tick, hi, Debounce.rotateBuffer]
    all_goals rfl

def disabled (s : ButtonPath) (pinmask : BitVec 32) : ButtonPath :=
  { s with system := s.system.mapGpio (·.disable pinmask) }

/-- One turn of the interrupt handler. -/
def served (numShifts : Nat) (id : Fin MAX_NUM_OF_HID_SOURCES) (s : ButtonPath) (pin : Nat) :
    ButtonPath :=
  { s with
    system := gpioteServePin
      (fun _ pin newLevel => debounceGpioCb numShifts (userCall id) pin newLevel) s.level s.system
      pin }

theorem view_disabled {pinmask : BitVec 32} (button : Button) :
    view (s.disabled pinmask) button =
      if pinmask.getLsbD button.pin then (s.view button).disable else s.view button := by
  cases hbit : pinmask.getLsbD button.pin with
  | true =>
    rw [if_pos rfl]
    ext1
    case armed =>
      change (s.system.gpio.disable pinmask).gpioIntEnabled.getLsbD button.pin = false
      rw [disable_enabled (pin_lt button), hbit]
      simp
    all_goals rfl
  | false =>
    rw [if_neg Bool.false_ne_true]
    ext1
    case armed =>
      change (s.system.gpio.disable pinmask).gpioIntEnabled.getLsbD button.pin = s.armed button.pin
      rw [disable_enabled (pin_lt button), hbit]
      simp [armed]
    all_goals rfl

theorem foldl_served (pins : List Nat) :
    pins.foldl (served numShifts id) s = { s with
      system := pins.foldl (gpioteServePin
        (fun _ pin newLevel => debounceGpioCb numShifts (userCall id) pin newLevel) s.level)
        s.system } := by
  induction pins generalizing s with
  | nil => rfl
  | cons first pins ih =>
    rw [List.foldl_cons, ih]
    rfl

theorem edgeIrq_eq :
    { s with system := debounceIrqHandler numShifts (userCall id) s.level s.system } =
      (setBits (s.system.gpio.interruptsFrom s.level)).foldl (served numShifts id)
        (s.disabled (s.system.gpio.interruptsFrom s.level)) := by
  rw [foldl_served]
  unfold debounceIrqHandler gpioteIrqHandler
  rw [whileBits_eq_foldl]
  rfl

/-- The source after the callback registered for a pin, if one is. -/
def sourceAfter (id : Fin MAX_NUM_OF_HID_SOURCES) (s : ButtonPath) (pin : Nat) : ButtonsCollector :=
  if s.debounce.callbacks pin = some .hidSrcButtonsInterruptCb then
    s.source.interrupt id pin (s.level.getLsbD pin)
  else s.source

/-- A turn of the handler leaves the pin disabled, unless it finds no callback at all. -/
theorem served_eq (pin : Nat) :
    s.served numShifts id pin =
      match s.system.gpio.callbacks pin with
      | some _ => { s with
          system :=
            { gpio := s.system.gpio.cfgSenseSet pin .noSense
              app :=
                { debounce := s.debounce.request numShifts pin
                  users := { s.users with source := s.sourceAfter id pin } } } }
      | none => { s with system := s.system.mapGpio (·.cfgSenseSet pin .noSense) } := by
  have hcallbacks : (s.system.app.debounce.request numShifts pin).callbacks =
      s.system.app.debounce.callbacks := rfl
  unfold served gpioteServePin
  simp only [WithGpio.mapGpio, cfgSenseSet_callbacks]
  cases s.system.gpio.callbacks pin with
  | none => rfl
  | some _ =>
    simp only [debounceGpioCb, WithGpio.mapDebounce, hcallbacks]
    unfold sourceAfter debounce
    cases s.system.app.debounce.callbacks pin with
    | none => rfl
    | some callback =>
      cases callback with
      | hidSrcButtonsInterruptCb => rfl
      | other => rfl

theorem request_cell {d : Debounce DebounceUser} {i pin other : Nat} (hlt : other < 32) :
    ((d.request numShifts pin).shiftarr i).getLsbD other =
      (decide (i = d.circularIndexToPhys numShifts numShifts ∧ other = pin) ||
        (d.shiftarr i).getLsbD other) := by
  unfold Debounce.request
  dsimp only
  by_cases hi : i = d.circularIndexToPhys numShifts numShifts
  · subst hi
    rw [Function.update_self, getLsbD_writeBit hlt]
    by_cases hpin : other = pin
    · simp [hpin]
    · simp [hpin]
  · rw [Function.update_of_ne hi]
    simp [hi]

theorem interrupt_levels_ne {source : ButtonsCollector} {button : Button} {pin : Nat} {level : Bool}
    (hne : button.pin ≠ pin) : (source.interrupt id pin level).levels button = source.levels button := by
  unfold ButtonsCollector.interrupt
  split
  next => exact if_neg hne
  next => rfl

theorem sourceAfter_levels_ne {button : Button} {pin : Nat} (hne : button.pin ≠ pin) :
    (s.sourceAfter id pin).levels button = s.source.levels button := by
  unfold sourceAfter
  split
  next => exact interrupt_levels_ne hne
  next => rfl

theorem view_served_ne {pin : Nat} {button : Button} (hne : button.pin ≠ pin) :
    (s.served numShifts id pin).view button = s.view button := by
  rw [served_eq]
  split
  next =>
    ext1
    case requested =>
      funext i
      change ((s.debounce.request numShifts pin).shiftarr i).getLsbD button.pin = _
      rw [request_cell (pin_lt button)]
      simp [hne, view, requested]
    case levels => exact sourceAfter_levels_ne hne
    all_goals rfl
  next => rfl

/-- An armed pin that found no callback would only be disabled. -/
theorem view_served_same {button : Button} (hregistered : (s.view button).Registered) :
    (s.served numShifts id button.pin).view button = s.view button ∨
      (s.served numShifts id button.pin).view button =
        (s.view button).serve (s.debounce.circularIndexToPhys numShifts numShifts) := by
  rw [served_eq]
  split
  next =>
    right
    ext1
    case requested =>
      funext i
      change ((s.debounce.request numShifts button.pin).shiftarr i).getLsbD button.pin =
        Function.update (fun i => s.requested i button.pin) _ true i
      rw [request_cell (pin_lt button), Function.update_apply]
      by_cases hi : i = s.debounce.circularIndexToPhys numShifts numShifts
      · simp [hi]
      · simp [hi, requested]
    case levels =>
      have hcallback : s.debounce.callbacks button.pin = some .hidSrcButtonsInterruptCb := hregistered
      change (s.sourceAfter id button.pin).levels button =
        s.level.getLsbD button.pin :: s.source.levels button
      unfold sourceAfter
      rw [if_pos hcallback, ButtonsCollector.interrupt_button]
      exact Function.update_self _ _ _
    all_goals rfl
  next => exact Or.inl rfl

theorem interrupt_queue_ne {source : ButtonsCollector} {button : Button} {pin : Nat} {level : Bool}
    (hne : button.pin ≠ pin) : (source.interrupt id pin level).queue button = source.queue button := by
  by_cases hmem : pin ∈ buttonPins
  · obtain ⟨other, rfl⟩ := mem_buttonPins.mp hmem
    have hother : button ≠ other := fun h => hne (congrArg Button.pin h)
    rw [ButtonsCollector.interrupt_button]
    exact ButtonsCollector.queue_update_ne hother
  · have hnone := (queueForPin_eq_none_iff buttonPins_ne_nil buttonPins_nodup).mpr hmem
    simp only [ButtonsCollector.interrupt, hidSrcButtonsInterruptCb, hnone]

theorem interrupt_other {source : ButtonsCollector} {pin : Nat} {level : Bool}
    (hnot : pin ∉ buttonPins) : source.interrupt id pin level = source := by
  have hnone := (queueForPin_eq_none_iff buttonPins_ne_nil buttonPins_nodup).mpr hnot
  simp only [ButtonsCollector.interrupt, hidSrcButtonsInterruptCb, hnone]

/-- The handler has disabled the button's pin, whose level is a new one. -/
structure Due (s : ButtonPath) (button : Button) : Prop where
  registered : (s.view button).Registered
  disabled : s.armed button.pin = false
  fresh : (s.source.levels button ++ [s.users.initial button.pin]).Sublist (s.before button)
  room : (s.source.queue button).pending + 1 < 2 ^ 32

theorem served_source (pin : Nat) :
    (s.served numShifts id pin).source = s.source ∨
      (s.served numShifts id pin).source = s.source.interrupt id pin (s.level.getLsbD pin) := by
  rw [served_eq]
  split
  next =>
    change s.sourceAfter id pin = _ ∨ s.sourceAfter id pin = _
    unfold sourceAfter
    split
    next => exact Or.inr rfl
    next => exact Or.inl rfl
  next => exact Or.inl rfl

theorem served_initial (pin : Nat) :
    (s.served numShifts id pin).users.initial = s.users.initial := by
  rw [served_eq]
  split <;> rfl

theorem served_callbacks (pin : Nat) :
    (s.served numShifts id pin).debounce.callbacks = s.debounce.callbacks := by
  rw [served_eq]
  split <;> rfl

theorem served_booted (pin : Nat) : (s.served numShifts id pin).booted = s.booted := by
  unfold booted registered
  rw [served_callbacks]

theorem interrupt_reported {source : ButtonsCollector} {pin : Nat} {level : Bool} :
    (source.interrupt id pin level).reported = source.reported := by
  unfold ButtonsCollector.interrupt
  split <;> rfl

theorem inv_served (h : Inv id s) {pin : Nat}
    (hdue : ∀ button : Button, button.pin = pin → s.Due button) :
    Inv id (s.served numShifts id pin) := by
  refine ⟨?_, ?_, ?_⟩
  · intro button
    by_cases heq : button.pin = pin
    · obtain ⟨hregistered, hdisabled, hfresh, hroom⟩ := hdue button heq
      subst heq
      rcases @view_served_same numShifts id s button hregistered with hsame | hserve
      · rw [hsame]
        exact h.views button
      · rw [hserve]
        exact (h.views button).serve hregistered hdisabled hfresh
    · rw [view_served_ne heq]
      exact h.views button
  · rw [served_initial]
    rcases @served_source numShifts id s pin with hsame | hinterrupt
    · rw [hsame]
      exact h.source
    · rw [hinterrupt]
      by_cases hmem : pin ∈ buttonPins
      · obtain ⟨button, rfl⟩ := mem_buttonPins.mp hmem
        exact h.source.interrupt button _ (hdue button rfl).room
      · rw [interrupt_other hmem]
        exact h.source
  · intro hunbooted button
    rw [served_booted] at hunbooted
    have hbefore := h.unbooted hunbooted button
    rcases @served_source numShifts id s pin with hsame | hinterrupt
    · rw [hsame]
      exact hbefore
    · rw [hinterrupt, interrupt_reported]
      exact hbefore

theorem Due.served_ne {button : Button} (h : s.Due button) {pin : Nat} (hne : button.pin ≠ pin) :
    (s.served numShifts id pin).Due button := by
  have hview := @view_served_ne numShifts id s pin button hne
  have hlevels := congrArg View.levels hview
  have hbefore := congrArg View.before hview
  have hinitial := congrArg View.initial hview
  refine ⟨?_, (congrArg View.armed hview).trans h.disabled, ?_, ?_⟩
  · rw [hview]
    exact h.registered
  · change (((s.served numShifts id pin).view button).levels ++
      [((s.served numShifts id pin).view button).initial]).Sublist
        ((s.served numShifts id pin).view button).before
    rw [hlevels, hinitial, hbefore]
    exact h.fresh
  · rcases @served_source numShifts id s pin with hsame | hinterrupt
    · rw [hsame]
      exact h.room
    · rw [hinterrupt, interrupt_queue_ne hne]
      exact h.room

theorem inv_foldl_served (pins : List Nat) (distinct : pins.Nodup) (h : Inv id s)
    (hdue : ∀ button : Button, button.pin ∈ pins → s.Due button) :
    Inv id (pins.foldl (served numShifts id) s) := by
  induction pins generalizing s with
  | nil => exact h
  | cons pin pins ih =>
    obtain ⟨hnot, hrest⟩ := List.nodup_cons.mp distinct
    rw [List.foldl_cons]
    refine ih hrest ?_ ?_
    · exact inv_served h (fun button heq => hdue button (heq ▸ List.mem_cons_self))
    · intro button hmem
      have hne : button.pin ≠ pin := fun heq => hnot (heq ▸ hmem)
      exact (hdue button (List.mem_cons_of_mem pin hmem)).served_ne hne

theorem inv_disabled (h : Inv id s) {pinmask : BitVec 32} : Inv id (s.disabled pinmask) := by
  refine ⟨?_, h.source, h.unbooted⟩
  intro button
  rw [view_disabled]
  split
  next => exact (h.views button).disable
  next => exact h.views button

theorem inv_edgeIrq (h : Inv id s)
    (room : ∀ button, (s.source.queue button).pending + 1 < 2 ^ 32) :
    Inv id { s with system := debounceIrqHandler numShifts (userCall id) s.level s.system } := by
  rw [edgeIrq_eq]
  refine inv_foldl_served _ (setBits_nodup _) (inv_disabled h) ?_
  intro button hmem
  rw [mem_setBits, interruptsFrom_bit, Bool.and_eq_true, bne_iff_ne] at hmem
  obtain ⟨hmoved, harmed⟩ := hmem
  have hview := h.views button
  refine ⟨hview.armed harmed, ?_, hview.fresh harmed hmoved, room button⟩
  change (s.system.gpio.disable _).gpioIntEnabled.getLsbD button.pin = false
  rw [disable_enabled (pin_lt button), interruptsFrom_bit, harmed, Bool.true_and, Bool.and_true,
    Bool.not_eq_false', bne_iff_ne]
  exact hmoved

theorem unready_unbooted (h : Inv id s) {button : Button} (hunready : s.users.ready button = false) :
    s.booted = false := by
  rw [← Bool.not_eq_true]
  intro hbooted
  have hregistered := registered_iff.mp (booted_iff.mp hbooted button)
  have hready : s.users.ready button = true := (h.views button).registered hregistered
  rw [hunready] at hready
  cases hready

theorem source_step_reported {source next : ButtonsCollector} {a : ButtonsStep}
    (hfiller : a ≠ .filler) (hstep : source.step numSources id a = some next) :
    next.reported = source.reported := by
  cases a with
  | filler => exact absurd rfl hfiller
  | interrupt button level =>
    rw [ButtonsCollector.interrupt_step] at hstep
    cases Option.some.inj hstep
    exact interrupt_reported
  | notify | writeSourceIdEnabled | notifySourcesChanged =>
    cases Option.some.inj hstep
    rfl
  | thread =>
    simp only [ButtonsCollector.step] at hstep
    split at hstep
    next =>
      cases Option.some.inj hstep
      rfl
    next => cases hstep
  | otherFiller =>
    simp only [ButtonsCollector.step] at hstep
    split at hstep
    next =>
      split at hstep
      next => cases hstep
      next =>
        cases Option.some.inj hstep
        rfl
    next => cases hstep

/-- The steps of the collector that the path lets happen. -/
theorem step_source {a : ButtonsStep} (hstep : step numShifts numSources id s (.source a) = some t) :
    ∃ source, s.source.step numSources id a = some source ∧
      t = s.mapUsers ({ · with source := source }) ∧ (∀ button level, a ≠ .interrupt button level) ∧
      (s.booted = false → a ≠ .filler) := by
  have finish : ∀ a : ButtonsStep, ((s.source.step numSources id a).map fun source =>
      s.mapUsers ({ · with source := source })) = some t →
      ∃ source, s.source.step numSources id a = some source ∧
        t = s.mapUsers ({ · with source := source }) := by
    intro a h
    obtain ⟨source, hsource, ht⟩ := Option.map_eq_some_iff.mp h
    exact ⟨source, hsource, ht.symm⟩
  cases a with
  | interrupt => cases hstep
  | notify sourceId =>
    obtain ⟨source, hsource, ht⟩ := finish (.notify sourceId) hstep
    exact ⟨source, hsource, ht, by simp, by simp⟩
  | writeSourceIdEnabled sourceId enabled =>
    obtain ⟨source, hsource, ht⟩ := finish (.writeSourceIdEnabled sourceId enabled) hstep
    exact ⟨source, hsource, ht, by simp, by simp⟩
  | notifySourcesChanged =>
    obtain ⟨source, hsource, ht⟩ := finish .notifySourcesChanged hstep
    exact ⟨source, hsource, ht, by simp, by simp⟩
  | thread | otherFiller =>
    cases hbooted : s.booted with
    | false => simp [step, hbooted] at hstep
    | true =>
      simp only [step, hbooted] at hstep
      obtain ⟨source, hsource, ht⟩ := finish _ hstep
      exact ⟨source, hsource, ht, by simp, by simp⟩
  | filler =>
    cases hbooted : s.booted with
    | false => simp [step, hbooted] at hstep
    | true =>
      simp only [step, hbooted] at hstep
      obtain ⟨source, hsource, ht⟩ := finish _ hstep
      exact ⟨source, hsource, ht, by simp, by simp⟩

theorem inv_source {a : ButtonsStep} (h : Inv id s)
    (hstep : step numShifts numSources id s (.source a) = some t) : Inv id t := by
  obtain ⟨source, hsource, rfl, hother, hfiller⟩ := step_source hstep
  refine ⟨?_, h.source.step hother hsource, ?_⟩
  · intro button
    have hlevels := ButtonsCollector.step_keeps_levels hother hsource
    have hview : (s.mapUsers ({ · with source := source })).view button = s.view button := by
      ext1
      case levels => exact congrFun hlevels button
      all_goals rfl
    rw [hview]
    exact h.views button
  · intro hunbooted button
    have hbefore := h.unbooted hunbooted button
    have hkept := source_step_reported (hfiller hunbooted) hsource
    exact (congrFun hkept button).trans hbefore

theorem inv_initQueue {button : Button} (h : Inv id s)
    (hstep : step numShifts numSources id s (.initQueue button) = some t) : Inv id t := by
  simp only [step] at hstep
  split at hstep
  next => cases hstep
  next hready =>
    have hunready := Bool.not_eq_true _ ▸ hready
    cases Option.some.inj hstep
    refine ⟨?_, ?_, h.unbooted⟩
    · intro other
      rw [view_initQueue]
      split
      next heq =>
        subst heq
        exact (h.views other).initQueue hunready
      next => exact h.views other
    · have hlevels : s.source.levels button = [] := (h.views button).unready hunready
      have hreported := h.unbooted (unready_unbooted h hunready) button
      exact h.source.initQueue hlevels hreported

theorem inv_register {button : Button} (h : Inv id s)
    (hstep : step numShifts numSources id s (.register button) = some t) : Inv id t := by
  simp only [step] at hstep
  split at hstep
  next hguard =>
    rw [Bool.and_eq_true] at hguard
    cases Option.some.inj hstep
    have hview := fun other =>
      @view_setEdgeCb s button.pin .hidSrcButtonsInterruptCb (pin_lt button) other
    refine ⟨?_, h.source, ?_⟩
    · intro other
      rw [hview]
      by_cases heq : other.pin = button.pin
      · cases Button.pin_injective heq
        rw [if_pos rfl]
        exact (h.views _).register hguard.1
      · rw [if_neg heq]
        exact h.views other
    · intro hunbooted
      refine h.unbooted ?_
      rw [← Bool.not_eq_true] at hunbooted ⊢
      intro hbooted
      refine hunbooted (booted_iff.mpr ?_)
      intro other
      rw [registered_iff, hview]
      split
      next => rfl
      next => exact registered_iff.mp (booted_iff.mp hbooted other)
  next => cases hstep

theorem inv_registerOther {pin : Nat} (h : Inv id s)
    (hstep : step numShifts numSources id s (.registerOther pin) = some t) : Inv id t := by
  simp only [step] at hstep
  split at hstep
  next hguard =>
    cases Option.some.inj hstep
    have hview : ∀ button, view { s with
        system := debounceSetEdgeCb pin (s.level.getLsbD pin) .other s.system } button =
          s.view button := by
      intro button
      rw [view_setEdgeCb hguard.1, if_neg]
      rintro rfl
      exact hguard.2 (mem_buttonPins.mpr ⟨button, rfl⟩)
    refine ⟨?_, h.source, ?_⟩
    · intro button
      rw [hview]
      exact h.views button
    · intro hunbooted
      refine h.unbooted ?_
      rw [← Bool.not_eq_true] at hunbooted ⊢
      intro hbooted
      refine hunbooted (booted_iff.mpr ?_)
      intro button
      rw [registered_iff, hview]
      exact registered_iff.mp (booted_iff.mp hbooted button)
  next => cases hstep

theorem tick_app : (debounceTimerCb numShifts s.level s.system).app.users = s.users ∧
    (debounceTimerCb numShifts s.level s.system).app.debounce.callbacks = s.debounce.callbacks := by
  unfold debounceTimerCb
  dsimp only
  split <;> exact ⟨rfl, rfl⟩

theorem inv_timerTick (h : Inv id s)
    (hstep : step numShifts numSources id s .timerTick = some t) : Inv id t := by
  simp only [step] at hstep
  split at hstep
  next =>
    cases Option.some.inj hstep
    obtain ⟨husers, hcallbacks⟩ := @tick_app numShifts s
    refine ⟨?_, ?_, ?_⟩
    · intro button
      rw [view_tick]
      exact (h.views button).tick
    · change ButtonsCollector.Ok id
        (debounceTimerCb numShifts s.level s.system).app.users.initial
        (debounceTimerCb numShifts s.level s.system).app.users.source
      rw [husers]
      exact h.source
    · intro hunbooted button
      change (debounceTimerCb numShifts s.level s.system).app.users.source.reported button = []
      rw [husers]
      refine h.unbooted ?_ button
      rw [← hunbooted]
      unfold booted registered debounce
      rw [hcallbacks]
      rfl
  next => cases hstep

theorem inv_pinLevel {pin : Nat} {level : Bool} (h : Inv id s)
    (hstep : step numShifts numSources id s (.pinLevel pin level) = some t) : Inv id t := by
  simp only [step] at hstep
  split at hstep
  next =>
    cases Option.some.inj hstep
    exact h
  next =>
    cases Option.some.inj hstep
    refine ⟨?_, h.source, h.unbooted⟩
    intro button
    rw [view_pinLevel]
    split
    next => exact (h.views button).moveTo
    next => exact h.views button

theorem inv_step {a : PathStep} (h : Inv id s) (room : Room s a)
    (hstep : step numShifts numSources id s a = some t) : Inv id t := by
  cases a with
  | pinLevel => exact inv_pinLevel h hstep
  | initQueue => exact inv_initQueue h hstep
  | register => exact inv_register h hstep
  | registerOther => exact inv_registerOther h hstep
  | edgeIrq =>
    cases Option.some.inj hstep
    exact inv_edgeIrq h room
  | timerTick => exact inv_timerTick h hstep
  | source => exact inv_source h hstep

/-- The filler writes only values that the pin has had, in their order; the zero that the report
starts with is no value it writes, so that a button held at the start shows a zero first. -/
def ShowsPin (s : ButtonPath) : Prop :=
  ∀ button, s.users.ready button = true →
    (withoutRepeats (s.source.reported button ++ [!s.users.initial button.pin])).Sublist
      ((s.level.getLsbD button.pin :: s.before button).map (!·))

theorem withoutRepeats_sublist (signal : List Bool) : (withoutRepeats signal).Sublist signal := by
  induction signal with
  | nil => exact List.Sublist.refl []
  | cons first rest ih =>
    cases rest with
    | nil => exact List.Sublist.refl [first]
    | cons second rest =>
      by_cases hsame : first = second
      · subst hsame
        rw [withoutRepeats_cons_same]
        exact ih.cons first
      · rw [withoutRepeats_cons_ne hsame]
        exact ih.cons_cons first

theorem Inv.showsPin (h : Inv id s) : s.ShowsPin := by
  intro button hready
  have horder := (h.source.order button).sublist
  have hkept := (withoutRepeats_sublist (s.source.levels button ++ [s.users.initial button.pin])).map (!·)
  have hseen := ((h.views button).seen hready).map (!·)
  exact (horder.trans hkept).trans hseen

/-- No click is invented, whatever the pins bounce like: what the filler has written of a button
is some of what its pin has been, in the same order. -/
theorem shows_pin_run {level : BitVec 32} {trace : List (ButtonPath × PathStep)}
    (run : Run (step numShifts numSources id) (reset level) trace s)
    (room : AllSteps Room trace) : AllStates ShowsPin trace s := by
  have invariant := run.invariant room (inv_reset id level)
    (fun s a t hs hok hstep => inv_step hs hok hstep)
  exact invariant.imp (fun s hs => hs.showsPin)

/-- The left button is pressed and bounces; it is armed again while it is down, and reported. -/
def bouncedPress : List PathStep :=
  [.initQueue .left, .initQueue .right, .initQueue .middle, .register .left, .register .right,
    .register .middle, .registerOther 7, .source .thread, .source .thread, .pinLevel 15 false,
    .edgeIrq, .pinLevel 15 true, .pinLevel 15 false, .timerTick, .timerTick] ++
    List.replicate 3 (.source .thread) ++ List.replicate 7 (.source .filler) ++
    List.replicate 2 (.source .thread)

theorem shows_pin_run_bouncedPress :
    ∃ (trace : List (ButtonPath × PathStep)) (s : ButtonPath),
      Run (step 2 4 ButtonsCollector.secondSource) (reset (BitVec.allOnes 32)) trace s ∧
      trace.map Prod.snd = bouncedPress.reverse ∧ AllStates ShowsPin trace s := by
  have replayed : (replay (guarded Room (step 2 4 ButtonsCollector.secondSource))
      (reset (BitVec.allOnes 32)) bouncedPress).isSome = true := by
    decide +kernel
  obtain ⟨trace, s, run, room, labels⟩ := exists_allowed_run replayed
  exact ⟨trace, s, run, labels, shows_pin_run run room⟩

end ButtonPath

end MyMouse
