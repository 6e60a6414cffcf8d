import Mathlib.Data.List.Range
import MyMouse.Gpio

namespace MyMouse

open BitMask

/-- `gpio_set_edge_cb_mask` between `irq_lock` and `irq_unlock`: the pins its loop has
still to arm and its arguments. -/
structure EdgeCbSetter (κ : Type) where
  pinmask : BitVec 32
  fromLevel : BitVec 32
  callback : κ
  deriving DecidableEq

inductive HandlerPc
  | idle
  | cleared
  | serving (levels interruptsFrom : BitVec 32)
  | calling (levels interruptsFrom : BitVec 32) (pin : Nat)
  deriving DecidableEq

/-- The gpio driver, the port pins it watches and the PORT event of GPIOTE. -/
structure GpioPort (κ : Type) where
  gpio : Gpio κ
  level : BitVec 32
  portEvent : Bool
  setter : Option (EdgeCbSetter κ)
  handler : HandlerPc

/-- A callback is one step of the handler; the calls it makes of
`gpio_set_edge_cb_mask` are steps of their own. -/
inductive GpioStep (κ : Type)
  | pinLevel (pin : Nat) (level : Bool)
  | setEdgeCbMask (pinmask fromLevel : BitVec 32) (callback : κ)
  | setterPin
  | setterReturn
  | irqClear
  | irqRead
  | irqUnsense
  | irqCallback
  | irqReturn
  deriving DecidableEq

namespace GpioPort

variable {κ : Type}

def reset (level : BitVec 32) : GpioPort κ :=
  { gpio := Gpio.reset, level := level, portEvent := false, setter := none, handler := .idle }

def sensed (s : GpioPort κ) (pin : Nat) : Bool :=
  (s.gpio.sense pin).detects (s.level.getLsbD pin)

def detect (s : GpioPort κ) : Bool :=
  (List.range 32).any s.sensed

/-- The PORT event is set when DETECT rises between two states of the hardware. -/
def latch (before after : GpioPort κ) : GpioPort κ :=
  { after with portEvent := after.portEvent || (!before.detect && after.detect) }

/-- The pins the running handler pass has yet to take off DETECT. -/
def interruptsFrom (s : GpioPort κ) : BitVec 32 :=
  match s.handler with
  | .serving _ rest => rest
  | .calling _ rest _ => rest
  | _ => 0#32

def unset (s : GpioPort κ) : BitVec 32 :=
  match s.setter with
  | some f => f.pinmask
  | none => 0#32

def Quiet (s : GpioPort κ) : Prop :=
  s.setter = none ∧ s.handler = .idle

instance [DecidableEq κ] (s : GpioPort κ) : Decidable (Quiet s) :=
  inferInstanceAs (Decidable (_ ∧ _))

/-- No armed pin is at another level than the one it was armed from. -/
def NoEdgePending (s : GpioPort κ) : Prop :=
  ∀ pin, s.gpio.gpioIntEnabled.getLsbD pin = true →
    s.level.getLsbD pin = s.gpio.gpioIntFromLevel.getLsbD pin

/-- Interrupts are locked while the setter runs, so only the pins move then. -/
def step (s : GpioPort κ) : GpioStep κ → Option (GpioPort κ)
  | .pinLevel pin level => some (latch s { s with level := writeBit s.level pin level })
  | .setEdgeCbMask pinmask fromLevel callback =>
    match s.setter with
    | some _ => none
    | none => some { s with
        gpio := s.gpio.setEdgeCbEnter pinmask fromLevel
        setter := some ⟨pinmask, fromLevel, callback⟩ }
  | .setterPin =>
    match s.setter with
    | some ⟨pinmask, fromLevel, callback⟩ =>
      if pinmask = 0#32 then none
      else some (latch s { s with
        gpio := s.gpio.setEdgeCbPin fromLevel callback (getNextBitPos pinmask).1
        setter := some ⟨(getNextBitPos pinmask).2, fromLevel, callback⟩ })
    | none => none
  | .setterReturn =>
    match s.setter with
    | some f => if f.pinmask = 0#32 then some { s with setter := none } else none
    | none => none
  | .irqClear =>
    match s.setter, s.handler with
    | none, .idle =>
      if s.portEvent then some { s with portEvent := false, handler := .cleared } else none
    | _, _ => none
  | .irqRead =>
    match s.setter, s.handler with
    | none, .cleared => some { s with
        gpio := s.gpio.disable (s.gpio.interruptsFrom s.level)
        handler := .serving s.level (s.gpio.interruptsFrom s.level) }
    | _, _ => none
  | .irqUnsense =>
    match s.setter, s.handler with
    | none, .serving levels rest =>
      if rest = 0#32 then none
      else some (latch s { s with
        gpio := s.gpio.cfgSenseSet (getNextBitPos rest).1 .noSense
        handler := .calling levels (getNextBitPos rest).2 (getNextBitPos rest).1 })
    | _, _ => none
  | .irqCallback =>
    match s.setter, s.handler with
    | none, .calling levels rest _ => some { s with handler := .serving levels rest }
    | _, _ => none
  | .irqReturn =>
    match s.setter, s.handler with
    | none, .serving _ rest => if rest = 0#32 then some { s with handler := .idle } else none
    | _, _ => none

/-- When the handler takes a pin off DETECT, the pin has not been armed again by a
callback of the same pass; and when it is the last one it serves, no other pin is at
its sensed level by then, unless the PORT event has been set again. -/
def UnsenseSafe (s : GpioPort κ) (a : GpioStep κ) : Prop :=
  a = .irqUnsense →
    s.gpio.gpioIntEnabled.getLsbD (getNextBitPos s.interruptsFrom).1 = false ∧
    ((getNextBitPos s.interruptsFrom).2 = 0#32 → s.portEvent = true ∨
      ∀ other < 32, other ≠ (getNextBitPos s.interruptsFrom).1 → s.sensed other = false)

instance [DecidableEq κ] (s : GpioPort κ) (a : GpioStep κ) : Decidable (UnsenseSafe s a) :=
  inferInstanceAs (Decidable (_ → _))

end GpioPort

end MyMouse
