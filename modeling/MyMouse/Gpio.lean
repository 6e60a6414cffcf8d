import Mathlib.Logic.Function.Basic
import MyMouse.BitMask

namespace MyMouse

open BitMask

inductive PinSense
  | noSense
  | senseLow
  | senseHigh
  deriving DecidableEq

def PinSense.detects : PinSense → Bool → Bool
  | .noSense, _ => false
  | .senseLow, level => !level
  | .senseHigh, level => level

/-- The globals of gpio.c and the SENSE fields it programs; `κ` is the type of callbacks. -/
structure Gpio (κ : Type) where
  gpioIntEnabled : BitVec 32
  gpioIntFromLevel : BitVec 32
  callbacks : Nat → Option κ
  sense : Nat → PinSense

variable {κ : Type}

def Gpio.reset : Gpio κ :=
  { gpioIntEnabled := 0#32, gpioIntFromLevel := 0#32, callbacks := fun _ => none,
    sense := fun _ => .noSense }

def Gpio.cfgSenseSet (g : Gpio κ) (pin : Nat) (sense : PinSense) : Gpio κ :=
  { g with sense := Function.update g.sense pin sense }

def senseFrom (fromLevel : Bool) : PinSense :=
  if fromLevel then .senseLow else .senseHigh

theorem senseFrom_detects (fromLevel level : Bool) :
    (senseFrom fromLevel).detects level = (level != fromLevel) := by
  cases fromLevel <;> cases level <;> rfl

/-- The bookkeeping `gpio_set_edge_cb_mask` does before its loop over the pins. -/
def Gpio.setEdgeCbEnter (pinmask fromLevel : BitVec 32) (g : Gpio κ) : Gpio κ :=
  { g with
    gpioIntEnabled := g.gpioIntEnabled ||| pinmask
    gpioIntFromLevel := (g.gpioIntFromLevel &&& ~~~pinmask) ||| (fromLevel &&& pinmask) }

/-- One turn of the loop of `gpio_set_edge_cb_mask`. -/
def Gpio.setEdgeCbPin (fromLevel : BitVec 32) (callback : κ) (g : Gpio κ) (pin : Nat) : Gpio κ :=
  { g with callbacks := Function.update g.callbacks pin (some callback) }.cfgSenseSet pin
    (senseFrom (fromLevel.getLsbD pin))

def gpioSetEdgeCbMask (pinmask fromLevel : BitVec 32) (callback : κ) (g : Gpio κ) : Gpio κ :=
  whileBits (Gpio.setEdgeCbPin fromLevel callback) pinmask (g.setEdgeCbEnter pinmask fromLevel)

def gpioUnsetEdgeCbMask (pinmask : BitVec 32) (g : Gpio κ) : Gpio κ :=
  whileBits (fun g pin => g.cfgSenseSet pin .noSense) pinmask
    { g with gpioIntEnabled := g.gpioIntEnabled &&& ~~~pinmask }

def gpioSetEdgeCb (pin : Nat) (fromLevel : Bool) (callback : κ) (g : Gpio κ) : Gpio κ :=
  gpioSetEdgeCbMask (1#32 <<< pin) ((BitVec.ofBool fromLevel).zeroExtend 32 <<< pin) callback g

def gpioUnsetEdgeCb (pin : Nat) (g : Gpio κ) : Gpio κ :=
  gpioUnsetEdgeCbMask (1#32 <<< pin) g

def Gpio.interruptsFrom (levels : BitVec 32) (g : Gpio κ) : BitVec 32 :=
  (levels ^^^ g.gpioIntFromLevel) &&& g.gpioIntEnabled

/-- `gpio_int_enabled &= ~interrupts_from` of `gpiote_irq_handler`. -/
def Gpio.disable (pinmask : BitVec 32) (g : Gpio κ) : Gpio κ :=
  { g with gpioIntEnabled := g.gpioIntEnabled &&& ~~~pinmask }

structure WithGpio (κ τ : Type) where
  gpio : Gpio κ
  app : τ

variable {τ : Type}

def WithGpio.mapGpio (f : Gpio κ → Gpio κ) (s : WithGpio κ τ) : WithGpio κ τ :=
  { s with gpio := f s.gpio }

/-- One turn of the loop of `gpiote_irq_handler`; `call` runs a callback. The entry
of an armed pin is never NULL. -/
def gpioteServePin (call : κ → Nat → Bool → WithGpio κ τ → WithGpio κ τ) (levels : BitVec 32)
    (s : WithGpio κ τ) (pin : Nat) : WithGpio κ τ :=
  let s := s.mapGpio (·.cfgSenseSet pin .noSense)
  match s.gpio.callbacks pin with
  | some callback => call callback pin (levels.getLsbD pin) s
  | none => s

/-- The interrupt handler, run to its end on the port value `levels`. -/
def gpioteIrqHandler (call : κ → Nat → Bool → WithGpio κ τ → WithGpio κ τ) (levels : BitVec 32)
    (s : WithGpio κ τ) : WithGpio κ τ :=
  whileBits (gpioteServePin call levels) (s.gpio.interruptsFrom levels)
    (s.mapGpio (·.disable (s.gpio.interruptsFrom levels)))

section SetEdgeCb

variable {pinmask fromLevel : BitVec 32} {callback : κ} {g : Gpio κ} {pin : Nat}

theorem setEdgeCbEnter_enabled :
    (g.setEdgeCbEnter pinmask fromLevel).gpioIntEnabled.getLsbD pin =
      (g.gpioIntEnabled.getLsbD pin || pinmask.getLsbD pin) := by
  simp [Gpio.setEdgeCbEnter]

theorem setEdgeCbEnter_fromLevel (hpin : pin < 32) :
    (g.setEdgeCbEnter pinmask fromLevel).gpioIntFromLevel.getLsbD pin =
      if pinmask.getLsbD pin then fromLevel.getLsbD pin else g.gpioIntFromLevel.getLsbD pin := by
  simp only [Gpio.setEdgeCbEnter, BitVec.getLsbD_or, BitVec.getLsbD_and, BitVec.getLsbD_not, hpin,
    decide_true, Bool.true_and]
  cases pinmask.getLsbD pin <;> simp

@[simp] theorem setEdgeCbPin_enabled :
    (g.setEdgeCbPin fromLevel callback pin).gpioIntEnabled = g.gpioIntEnabled := rfl

@[simp] theorem setEdgeCbPin_fromLevel :
    (g.setEdgeCbPin fromLevel callback pin).gpioIntFromLevel = g.gpioIntFromLevel := rfl

theorem setEdgeCbPin_sense {other : Nat} :
    (g.setEdgeCbPin fromLevel callback pin).sense other =
      if other = pin then senseFrom (fromLevel.getLsbD pin) else g.sense other := by
  simp [Gpio.setEdgeCbPin, Gpio.cfgSenseSet, Function.update_apply]

theorem setEdgeCbPin_callbacks {other : Nat} :
    (g.setEdgeCbPin fromLevel callback pin).callbacks other =
      if other = pin then some callback else g.callbacks other := by
  simp [Gpio.setEdgeCbPin, Gpio.cfgSenseSet, Function.update_apply]

@[simp] theorem cfgSenseSet_enabled {sense : PinSense} :
    (g.cfgSenseSet pin sense).gpioIntEnabled = g.gpioIntEnabled := rfl

@[simp] theorem cfgSenseSet_fromLevel {sense : PinSense} :
    (g.cfgSenseSet pin sense).gpioIntFromLevel = g.gpioIntFromLevel := rfl

@[simp] theorem cfgSenseSet_callbacks {sense : PinSense} :
    (g.cfgSenseSet pin sense).callbacks = g.callbacks := rfl

theorem cfgSenseSet_sense {sense : PinSense} {other : Nat} :
    (g.cfgSenseSet pin sense).sense other = if other = pin then sense else g.sense other := by
  simp [Gpio.cfgSenseSet, Function.update_apply]

theorem interruptsFrom_bit {levels : BitVec 32} :
    (g.interruptsFrom levels).getLsbD pin =
      ((levels.getLsbD pin != g.gpioIntFromLevel.getLsbD pin) && g.gpioIntEnabled.getLsbD pin) := by
  simp [Gpio.interruptsFrom]

theorem disable_enabled (hpin : pin < 32) :
    (g.disable pinmask).gpioIntEnabled.getLsbD pin =
      (g.gpioIntEnabled.getLsbD pin && !pinmask.getLsbD pin) := by
  simp only [Gpio.disable, BitVec.getLsbD_and, BitVec.getLsbD_not, hpin, decide_true,
    Bool.true_and]

theorem foldl_setEdgeCbPin_masks (pins : List Nat) :
    (pins.foldl (Gpio.setEdgeCbPin fromLevel callback) g).gpioIntEnabled = g.gpioIntEnabled ∧
      (pins.foldl (Gpio.setEdgeCbPin fromLevel callback) g).gpioIntFromLevel =
        g.gpioIntFromLevel := by
  induction pins generalizing g with
  | nil => exact ⟨rfl, rfl⟩
  | cons first pins ih => exact ih

theorem foldl_setEdgeCbPin_callbacks (pins : List Nat) :
    (pins.foldl (Gpio.setEdgeCbPin fromLevel callback) g).callbacks pin =
      if pin ∈ pins then some callback else g.callbacks pin := by
  induction pins generalizing g with
  | nil => simp
  | cons first pins ih =>
    rw [List.foldl_cons, ih, setEdgeCbPin_callbacks]
    by_cases hmem : pin ∈ pins
    · simp [hmem]
    · by_cases hfirst : pin = first
      · simp [hfirst]
      · simp [hmem, hfirst]

theorem gpioSetEdgeCbMask_enabled :
    (gpioSetEdgeCbMask pinmask fromLevel callback g).gpioIntEnabled.getLsbD pin =
      (g.gpioIntEnabled.getLsbD pin || pinmask.getLsbD pin) := by
  rw [gpioSetEdgeCbMask, whileBits_eq_foldl, (foldl_setEdgeCbPin_masks _).1, setEdgeCbEnter_enabled]

theorem gpioSetEdgeCbMask_fromLevel (hpin : pin < 32) :
    (gpioSetEdgeCbMask pinmask fromLevel callback g).gpioIntFromLevel.getLsbD pin =
      if pinmask.getLsbD pin then fromLevel.getLsbD pin else g.gpioIntFromLevel.getLsbD pin := by
  rw [gpioSetEdgeCbMask, whileBits_eq_foldl, (foldl_setEdgeCbPin_masks _).2,
    setEdgeCbEnter_fromLevel hpin]

theorem gpioSetEdgeCbMask_callbacks :
    (gpioSetEdgeCbMask pinmask fromLevel callback g).callbacks pin =
      if pinmask.getLsbD pin then some callback else g.callbacks pin := by
  rw [gpioSetEdgeCbMask, whileBits_eq_foldl, foldl_setEdgeCbPin_callbacks]
  simp only [mem_setBits]
  rfl

theorem pinMask_bit {other : Nat} (hother : other < 32) :
    (1#32 <<< pin).getLsbD other = decide (other = pin) := by
  rw [← BitVec.twoPow_eq, BitVec.getLsbD_twoPow]
  by_cases heq : other = pin
  · subst heq
    simp [hother]
  · simp [heq, Ne.symm heq]

theorem gpioSetEdgeCb_enabled {other : Nat} {level : Bool} (hother : other < 32) :
    (gpioSetEdgeCb pin level callback g).gpioIntEnabled.getLsbD other =
      (g.gpioIntEnabled.getLsbD other || decide (other = pin)) := by
  rw [gpioSetEdgeCb, gpioSetEdgeCbMask_enabled, pinMask_bit hother]

theorem gpioSetEdgeCb_fromLevel {other : Nat} {level : Bool} (hother : other < 32) :
    (gpioSetEdgeCb pin level callback g).gpioIntFromLevel.getLsbD other =
      if other = pin then level else g.gpioIntFromLevel.getLsbD other := by
  rw [gpioSetEdgeCb, gpioSetEdgeCbMask_fromLevel hother, pinMask_bit hother]
  by_cases heq : other = pin
  · subst heq
    cases level <;> simp [hother]
  · simp [heq]

theorem gpioSetEdgeCb_callbacks {other : Nat} {level : Bool} (hother : other < 32) :
    (gpioSetEdgeCb pin level callback g).callbacks other =
      if other = pin then some callback else g.callbacks other := by
  rw [gpioSetEdgeCb, gpioSetEdgeCbMask_callbacks, pinMask_bit hother]
  simp only [decide_eq_true_eq]

end SetEdgeCb

end MyMouse
