import MyMouse.Buttons
import MyMouse.Debounce
import Mathlib.Data.List.Chain

namespace MyMouse

open BitMask

/-- The user callbacks given to `debounce_set_edge_cb`: the one of buttons.c, and any
other, which is not the business of the buttons source. -/
inductive DebounceUser
  | hidSrcButtonsInterruptCb
  | other
  deriving DecidableEq

/-- The buttons source with the results of its `toggle_queue_put` calls, and for each pin
the levels delivered to its user callback (the latest first), the level it was last
registered from, the number of its level changes since the last delivery, registration or
queue initialisation, and how often it was registered. -/
structure DebounceUsers where
  buttons : ButtonsSource
  queueReady : Nat → Bool
  putResults : List Int
  delivered : Nat → List Bool
  readAt : Nat → Bool
  changes : Nat → Nat
  registrations : Nat → Nat

structure DebouncePort where
  system : DebounceSystem DebounceUser DebounceUsers
  level : BitVec 32

inductive DebounceStep
  | pinLevel (pin : Nat) (level : Bool)
  | buttonsInitQueue (pin : Nat)
  | debounceSetEdgeCb (pin : Nat) (callback : DebounceUser)
  | edgeIrq
  | timerTick
  deriving DecidableEq

namespace DebounceUsers

/-- The level last delivered, or the one read at registration. -/
def lastDelivered (u : DebounceUsers) (pin : Nat) : Bool :=
  (u.delivered pin).headD (u.readAt pin)

def recordDelivery (u : DebounceUsers) (pin : Nat) (newLevel : Bool) : DebounceUsers :=
  { u with
    delivered := Function.update u.delivered pin (newLevel :: u.delivered pin)
    changes := Function.update u.changes pin 0 }

def call (callback : DebounceUser) (pin : Nat) (newLevel : Bool) (u : DebounceUsers) :
    DebounceUsers :=
  let u := u.recordDelivery pin newLevel
  match callback with
  | .hidSrcButtonsInterruptCb =>
    match hidSrcButtonsInterruptCb pin newLevel u.buttons with
    | some (result, buttons) =>
      { u with buttons := buttons, putResults := result :: u.putResults }
    | none => u
  | .other => u

def recordInitQueue (u : DebounceUsers) (pin : Nat) (level : Bool) : DebounceUsers :=
  { u with
    buttons := u.buttons.initQueue pin level
    queueReady := Function.update u.queueReady pin true
    readAt := Function.update u.readAt pin level
    changes := Function.update u.changes pin 0 }

def recordRegistration (u : DebounceUsers) (pin : Nat) (level : Bool) : DebounceUsers :=
  { u with
    delivered := Function.update u.delivered pin []
    readAt := Function.update u.readAt pin level
    changes := Function.update u.changes pin 0
    registrations := Function.update u.registrations pin (u.registrations pin + 1) }

end DebounceUsers

namespace DebouncePort

def reset (level : BitVec 32) : DebouncePort :=
  { system :=
      { gpio := Gpio.reset
        app :=
          { debounce := Debounce.reset
            users :=
              { buttons := ⟨fun _ => toggleQueueInit false⟩, queueReady := fun _ => false,
                putResults := [], delivered := fun _ => [], readAt := fun _ => false,
                changes := fun _ => 0, registrations := fun _ => 0 } } }
    level := level }

def users (s : DebouncePort) : DebounceUsers := s.system.app.users

def debounce (s : DebouncePort) : Debounce DebounceUser := s.system.app.debounce

def mapUsers (f : DebounceUsers → DebounceUsers) (s : DebouncePort) : DebouncePort :=
  { s with system := { s.system with app := { s.system.app with users := f s.system.app.users } } }

def userCall (callback : DebounceUser) (pin : Nat) (newLevel : Bool)
    (s : DebounceSystem DebounceUser DebounceUsers) : DebounceSystem DebounceUser DebounceUsers :=
  { s with app := { s.app with users := s.app.users.call callback pin newLevel } }

/-- One pass of the gpio interrupt handler. It reads the port once, so a later level
change falls after the pass. That the timer interrupt does not come in the middle of a pass is
assumed. -/
def edgeIrq (numShifts : Nat) (s : DebouncePort) : DebouncePort :=
  { s with system := debounceIrqHandler numShifts userCall s.level s.system }

def armed (s : DebouncePort) (pin : Nat) : Bool :=
  s.system.gpio.gpioIntEnabled.getLsbD pin

def fromLevel (s : DebouncePort) (pin : Nat) : Bool :=
  s.system.gpio.gpioIntFromLevel.getLsbD pin

def nextRequests (numShifts : Nat) (s : DebouncePort) : BitVec 32 :=
  s.debounce.shiftarr (s.debounce.circularIndexToPhys numShifts 1)

/-- `hid_src_buttons_init` reads a button's level twice, for its queue and for its
registration; the pins of other users have no queue. -/
def step (numShifts : Nat) (s : DebouncePort) : DebounceStep → Option DebouncePort
  | .pinLevel pin level =>
    if s.level.getLsbD pin = level then some s
    else some { s.mapUsers (fun u => { u with
        changes := Function.update u.changes pin (u.changes pin + 1) }) with
      level := writeBit s.level pin level }
  | .buttonsInitQueue pin =>
    if pin ∈ buttonPins ∧ s.users.registrations pin = 0 then
      some (s.mapUsers (·.recordInitQueue pin (s.level.getLsbD pin)))
    else none
  | .debounceSetEdgeCb pin .hidSrcButtonsInterruptCb =>
    if pin ∈ buttonPins ∧ s.users.queueReady pin = true ∧ s.users.registrations pin = 0 then
      some { s.mapUsers (·.recordRegistration pin (s.level.getLsbD pin)) with
        system := debounceSetEdgeCb pin (s.level.getLsbD pin) .hidSrcButtonsInterruptCb
          (s.mapUsers (·.recordRegistration pin (s.level.getLsbD pin))).system }
    else none
  | .debounceSetEdgeCb pin .other =>
    if pin < 32 ∧ pin ∉ buttonPins then
      some { s.mapUsers (·.recordRegistration pin (s.level.getLsbD pin)) with
        system := debounceSetEdgeCb pin (s.level.getLsbD pin) .other
          (s.mapUsers (·.recordRegistration pin (s.level.getLsbD pin))).system }
    else none
  | .edgeIrq => some (s.edgeIrq numShifts)
  | .timerTick =>
    if s.debounce.timerRunning then
      some { s with system := debounceTimerCb numShifts s.level s.system }
    else none

/-- A pin's level has changed an even number of times between the delivery and the tick
that serves its re-enable request, and a button's between the two reads of its
initialisation. -/
def ChangesEven (numShifts : Nat) (s : DebouncePort) : DebounceStep → Prop
  | .debounceSetEdgeCb pin .hidSrcButtonsInterruptCb => s.users.changes pin % 2 = 0
  | .timerTick => ∀ pin < 32, (s.nextRequests numShifts).getLsbD pin = true →
      s.users.registrations pin = 1 → s.users.changes pin % 2 = 0
  | _ => True

instance (numShifts : Nat) (s : DebouncePort) (a : DebounceStep) :
    Decidable (ChangesEven numShifts s a) :=
  match a with
  | .debounceSetEdgeCb _ .hidSrcButtonsInterruptCb => inferInstanceAs (Decidable (_ = _))
  | .debounceSetEdgeCb _ .other => inferInstanceAs (Decidable True)
  | .timerTick => inferInstanceAs (Decidable (∀ _ < 32, _ → _ → _))
  | .pinLevel _ _ => inferInstanceAs (Decidable True)
  | .buttonsInitQueue _ => inferInstanceAs (Decidable True)
  | .edgeIrq => inferInstanceAs (Decidable True)

/-- What the debounce service owes the users of the pins registered once. -/
structure NoLevelLost (numShifts : Nat) (s : DebouncePort) : Prop where
  armed_from : ∀ pin, s.users.registrations pin = 1 → s.armed pin = true →
    s.fromLevel pin = s.users.lastDelivered pin
  alternate : ∀ pin, s.users.registrations pin = 1 →
    (s.users.delivered pin ++ [s.users.readAt pin]).IsChain (· ≠ ·)
  put_accepted : -EINVAL ∉ s.users.putResults
  settled : ∀ pin, s.users.registrations pin = 1 → s.armed pin = true →
    (s.edgeIrq numShifts).users.lastDelivered pin = s.level.getLsbD pin

end DebouncePort

end MyMouse
