import MyMouse.Gpio

namespace MyMouse

open BitMask

/-- The statics of debounce.c; `υ` is the type of user callbacks. `k_timer_remaining_ticks`
is 0 exactly when `debounce_timer` is stopped. -/
structure Debounce (υ : Type) where
  shiftarr : Nat → BitVec 32
  shiftarrCell0Index : Nat
  shiftarrMovesLeft : Int
  callbacks : Nat → Option υ
  timerRunning : Bool

inductive DebounceGpio
  | debounceGpioCb
  deriving DecidableEq

structure WithDebounce (υ τ : Type) where
  debounce : Debounce υ
  users : τ

abbrev DebounceSystem (υ τ : Type) := WithGpio DebounceGpio (WithDebounce υ τ)

variable {υ τ : Type}

def Debounce.reset : Debounce υ :=
  { shiftarr := fun _ => 0#32, shiftarrCell0Index := 0, shiftarrMovesLeft := 0,
    callbacks := fun _ => none, timerRunning := false }

/-- `numShifts` is `CONFIG_APP_DEBOUNCE_NUM_SHIFTS`; the array has one cell more. -/
def Debounce.circularIndexToPhys (numShifts : Nat) (d : Debounce υ) (index : Nat) : Nat :=
  let index := index + d.shiftarrCell0Index
  if index ≥ numShifts + 1 then index - (numShifts + 1) else index

def Debounce.rotateBuffer (numShifts : Nat) (d : Debounce υ) : Debounce υ :=
  { d with shiftarrCell0Index := d.circularIndexToPhys numShifts 1 }

/-- A re-enable request for `pin` in the last cell, and the timer running. -/
def Debounce.request (numShifts : Nat) (d : Debounce υ) (pin : Nat) : Debounce υ :=
  let cell := d.circularIndexToPhys numShifts numShifts
  { d with
    shiftarr := Function.update d.shiftarr cell (writeBit (d.shiftarr cell) pin true)
    shiftarrMovesLeft := numShifts
    timerRunning := true }

/-- `--shiftarr_moves_left`, and the timer stopped once it is 0. -/
def Debounce.finishMove (d : Debounce υ) : Debounce υ :=
  { d with
    shiftarrMovesLeft := d.shiftarrMovesLeft - 1
    timerRunning := if d.shiftarrMovesLeft - 1 = 0 then false else d.timerRunning }

/-- One turn of the loop of `debounce_unset_edge_cb`. -/
def Debounce.withdrawFrom (numShifts pin : Nat) (d : Debounce υ) (index : Nat) : Debounce υ :=
  let cell := d.circularIndexToPhys numShifts index
  { d with shiftarr := Function.update d.shiftarr cell (writeBit (d.shiftarr cell) pin false) }

/-- Its loop over the cells with moves left. -/
def Debounce.withdraw (numShifts pin : Nat) (d : Debounce υ) : Debounce υ :=
  (List.range' 1 d.shiftarrMovesLeft.toNat).foldl (Debounce.withdrawFrom numShifts pin) d

def WithGpio.mapDebounce (f : Debounce υ → Debounce υ) (s : DebounceSystem υ τ) :
    DebounceSystem υ τ :=
  { s with app := { s.app with debounce := f s.app.debounce } }

def debounceGpioCb (numShifts : Nat)
    (user : υ → Nat → Bool → DebounceSystem υ τ → DebounceSystem υ τ) (pin : Nat)
    (newLevel : Bool) (s : DebounceSystem υ τ) : DebounceSystem υ τ :=
  let s := s.mapDebounce (·.request numShifts pin)
  match s.app.debounce.callbacks pin with
  | some callback => user callback pin newLevel s
  | none => s

def debounceTimerCb (numShifts : Nat) (port : BitVec 32) (s : DebounceSystem υ τ) :
    DebounceSystem υ τ :=
  let s := s.mapDebounce (·.rotateBuffer numShifts)
  let head := s.app.debounce.shiftarrCell0Index
  let requests := s.app.debounce.shiftarr head
  let s :=
    if requests ≠ 0#32 then
      (s.mapGpio (gpioSetEdgeCbMask requests port .debounceGpioCb)).mapDebounce
        (fun d => { d with shiftarr := Function.update d.shiftarr head 0#32 })
    else s
  s.mapDebounce Debounce.finishMove

def debounceSetEdgeCb (pin : Nat) (level : Bool) (callback : υ) (s : DebounceSystem υ τ) :
    DebounceSystem υ τ :=
  (s.mapDebounce (fun d => { d with callbacks := Function.update d.callbacks pin (some callback) })).mapGpio
    (gpioSetEdgeCb pin level .debounceGpioCb)

def debounceUnsetEdgeCb (numShifts pin : Nat) (s : DebounceSystem υ τ) : DebounceSystem υ τ :=
  (s.mapGpio (gpioUnsetEdgeCb pin)).mapDebounce (·.withdraw numShifts pin)

/-- `gpiote_irq_handler` with the debounce service as its only client. -/
def debounceIrqHandler (numShifts : Nat)
    (user : υ → Nat → Bool → DebounceSystem υ τ → DebounceSystem υ τ) (port : BitVec 32)
    (s : DebounceSystem υ τ) : DebounceSystem υ τ :=
  gpioteIrqHandler (fun _ pin newLevel => debounceGpioCb numShifts user pin newLevel) port s

end MyMouse
