import MyMouse.HidReport
import MyMouse.ToggleQueue
import Mathlib.Logic.Function.Basic

namespace MyMouse

/-- The pins of button_left, button_right and button_middle. -/
def buttonPins : List Nat := [15, 3, 14]

/-- Index of the queue of `pin`: by subtraction when the pins are contiguous, else by search. -/
def queueForPin (pins : List Nat) (pin : Nat) : Option Nat :=
  let min := pins.foldl (fun min p => if p < min then p else min) (pins.headD 0)
  let max := pins.foldl (fun max p => if p > max then p else max) (pins.headD 0)
  if max - min = pins.length - 1 then
    if min ≤ pin ∧ pin ≤ max then some (pin - min) else none
  else pins.findIdx? (pin == ·)

structure ButtonsSource where
  queues : Nat → ToggleQueue

/-- The first of the two level reads `hid_src_buttons_init` makes for a pin. -/
def ButtonsSource.initQueue (pin : Nat) (level : Bool) (b : ButtonsSource) : ButtonsSource :=
  match queueForPin buttonPins pin with
  | some i => { b with queues := Function.update b.queues i (toggleQueueInit !level) }
  | none => b

/-- The result of `toggle_queue_put`; the collector is notified unless it is negative.
There is no result for a pin without a queue, which the code would dereference. -/
def hidSrcButtonsInterruptCb (pin : Nat) (newLevel : Bool) (b : ButtonsSource) :
    Option (Int × ButtonsSource) :=
  match queueForPin buttonPins pin with
  | some i =>
    let put := toggleQueuePut (b.queues i) !newLevel
    some (put.1, { b with queues := Function.update b.queues i put.2 })
  | none => none

inductive Button
  | left
  | right
  | middle
  deriving DecidableEq

namespace Button

def pin : Button → Nat
  | .left => 15
  | .right => 3
  | .middle => 14

def index : Button → Nat
  | .left => 0
  | .right => 1
  | .middle => 2

def bit (button : Button) (report : HidReport) : Bool :=
  match button with
  | .left => report.left
  | .right => report.right
  | .middle => report.middle

def writeBit (button : Button) (value : Bool) (report : HidReport) : HidReport :=
  match button with
  | .left => { report with left := value }
  | .right => { report with right := value }
  | .middle => { report with middle := value }

theorem queueForPin_pin (button : Button) :
    queueForPin buttonPins button.pin = some button.index := by
  cases button <;> decide

theorem index_lt (button : Button) : button.index < buttonPins.length := by
  cases button <;> decide

theorem index_injective {button other : Button} (h : button.index = other.index) :
    button = other := by
  cases button <;> cases other <;> first | rfl | exact absurd h (by decide)

theorem bit_writeBit (button other : Button) (value : Bool) (report : HidReport) :
    other.bit (button.writeBit value report) = if other = button then value else other.bit report := by
  cases button <;> cases other <;> rfl

end Button

end MyMouse
