import MyMouse.DebounceCells
import MyMouse.GpioBook

namespace MyMouse

open BitMask Runs

/-- For each pin the ticks since its last user callback, the ticks since its interrupt while
it waits to be armed again, and whether it has been unregistered and not registered since.
Then the pins whose user callback came sooner than `numShifts` ticks after the one before,
and those whose user callback came while they were unregistered. -/
structure DebounceHistory where
  since : Nat → Option Nat
  waiting : Nat → Option Nat
  gone : Nat → Bool
  early : List Nat
  late : List Nat

abbrev DebounceClients (υ : Type) := DebounceSystem υ DebounceHistory

/-- A call of the service by one of its clients; `level` is what it reads from the pin. -/
inductive DebounceCall (υ : Type)
  | setEdgeCb (pin : Nat) (level : Bool) (callback : υ)
  | unsetEdgeCb (pin : Nat)
  deriving DecidableEq

/-- A thread may be interrupted in `debounce_set_edge_cb` before it arms the pin. -/
inductive DebounceEvent (υ : Type)
  | storeCallback (pin : Nat) (callback : υ)
  | arm (pin : Nat) (level : Bool)
  | unsetEdgeCb (pin : Nat)
  | edgeIrq (levels : BitVec 32) (reenter : Nat → List (DebounceCall υ))
  | timerTick (port : BitVec 32)

variable {υ : Type}

namespace DebounceHistory

def reset : DebounceHistory :=
  { since := fun _ => none, waiting := fun _ => none, gone := fun _ => false, early := [],
    late := [] }

def register (h : DebounceHistory) (pin : Nat) : DebounceHistory :=
  { h with gone := Function.update h.gone pin false }

def unregister (h : DebounceHistory) (pin : Nat) : DebounceHistory :=
  { h with
    gone := Function.update h.gone pin true
    waiting := Function.update h.waiting pin none }

def tooEarly (numShifts : Nat) (h : DebounceHistory) (pin : Nat) : Bool :=
  (h.since pin).any (· < numShifts)

def callback (numShifts : Nat) (h : DebounceHistory) (pin : Nat) : DebounceHistory :=
  { h with
    since := Function.update h.since pin (some 0)
    waiting := Function.update h.waiting pin (some 0)
    early := if h.tooEarly numShifts pin then pin :: h.early else h.early
    late := if h.gone pin then pin :: h.late else h.late }

def tick (numShifts : Nat) (h : DebounceHistory) : DebounceHistory :=
  { h with
    since := fun pin => (h.since pin).map (· + 1)
    waiting := fun pin =>
      (h.waiting pin).bind (fun ticks => if ticks + 1 = numShifts then none else some (ticks + 1)) }

end DebounceHistory

namespace DebounceClients

def reset : DebounceClients υ :=
  { gpio := Gpio.reset, app := { debounce := Debounce.reset, users := DebounceHistory.reset } }

def history (s : DebounceClients υ) : DebounceHistory := s.app.users

def debounce (s : DebounceClients υ) : Debounce υ := s.app.debounce

def mapHistory (f : DebounceHistory → DebounceHistory) (s : DebounceClients υ) :
    DebounceClients υ :=
  { s with app := { s.app with users := f s.app.users } }

def armed (s : DebounceClients υ) (pin : Nat) : Bool := s.gpio.gpioIntEnabled.getLsbD pin

/-- The bit of `pin` in the cell of a logical index. -/
def requested (numShifts : Nat) (s : DebounceClients υ) (pin i : Nat) : Bool :=
  (s.debounce.cell numShifts i).getLsbD pin

end DebounceClients

open DebounceClients

def DebounceCall.run (numShifts : Nat) (s : DebounceClients υ) :
    DebounceCall υ → DebounceClients υ
  | .setEdgeCb pin level callback =>
    mapHistory (·.register pin) (debounceSetEdgeCb pin level callback s)
  | .unsetEdgeCb pin => mapHistory (·.unregister pin) (debounceUnsetEdgeCb numShifts pin s)

/-- Whether the call registers or unregisters `pin`, if it concerns it. -/
def DebounceCall.touch (pin : Nat) : DebounceCall υ → Option Bool
  | .setEdgeCb other _ _ => if other = pin then some true else none
  | .unsetEdgeCb other => if other = pin then some false else none

/-- Whether the last of the calls that concern `pin` registers it. -/
def lastTouch (pin : Nat) (calls : List (DebounceCall υ)) : Option Bool :=
  lastSome (DebounceCall.touch pin) calls

/-- A user callback makes the calls `reenter` has for its pin. -/
def clientCallback (numShifts : Nat) (reenter : Nat → List (DebounceCall υ)) (_ : υ) (pin : Nat)
    (_ : Bool) (s : DebounceClients υ) : DebounceClients υ :=
  (reenter pin).foldl (DebounceCall.run numShifts) (mapHistory (·.callback numShifts pin) s)

namespace DebounceClients

def step (numShifts : Nat) (s : DebounceClients υ) : DebounceEvent υ → Option (DebounceClients υ)
  | .storeCallback pin callback =>
    some (s.mapDebounce (fun d => { d with
      callbacks := Function.update d.callbacks pin (some callback) }))
  | .arm pin level =>
    if (s.debounce.callbacks pin).isSome then
      some (mapHistory (·.register pin) (s.mapGpio (gpioSetEdgeCb pin level .debounceGpioCb)))
    else none
  | .unsetEdgeCb pin => some ((DebounceCall.unsetEdgeCb pin).run numShifts s)
  | .edgeIrq levels reenter =>
    some (debounceIrqHandler numShifts (clientCallback numShifts reenter) levels s)
  | .timerTick port =>
    if s.debounce.timerRunning then
      some (mapHistory (·.tick numShifts) (debounceTimerCb numShifts port s))
    else none

/-- The handler serves `pin`, up to the calls its user callback makes. -/
def entered (numShifts : Nat) (s : DebounceClients υ) (pin : Nat) : DebounceClients υ :=
  { gpio := s.gpio.cfgSenseSet pin .noSense
    app :=
      { debounce := s.debounce.request numShifts pin
        users := s.history.callback numShifts pin } }

def servePin (numShifts : Nat) (levels : BitVec 32) (reenter : Nat → List (DebounceCall υ))
    (s : DebounceClients υ) (pin : Nat) : DebounceClients υ :=
  gpioteServePin
    (fun _ pin newLevel => debounceGpioCb numShifts (clientCallback numShifts reenter) pin newLevel)
    levels s pin

/-- What holds of the service whatever its clients do; `due` are the pins the running
handler has yet to serve. -/
structure Wired (numShifts : Nat) (due : List Nat) (s : DebounceClients υ) : Prop where
  cells : s.debounce.CellsOk numShifts
  gpio_callback : ∀ pin < 32, s.armed pin = true ∨ pin ∈ due → s.gpio.callbacks pin ≠ none
  user_callback : ∀ pin < 32,
    s.armed pin = true ∨ pin ∈ due ∨ (∃ i ≤ numShifts, s.requested numShifts pin i = true) →
      s.debounce.callbacks pin ≠ none

section Calls

variable {numShifts : Nat} {s : DebounceClients υ} {pin other i : Nat} {due : List Nat}

theorem armed_set {level : Bool} {callback : υ} (hother : other < 32) :
    ((DebounceCall.setEdgeCb pin level callback).run numShifts s).armed other =
      (s.armed other || decide (other = pin)) :=
  gpioSetEdgeCb_enabled hother

theorem gpioUnsetEdgeCb_enabled {κ : Type} {g : Gpio κ} (hother : other < 32) :
    (gpioUnsetEdgeCb pin g).gpioIntEnabled.getLsbD other =
      (g.gpioIntEnabled.getLsbD other && !decide (other = pin)) := by
  rw [gpioUnsetEdgeCb, gpioUnsetEdgeCbMask_eq]
  have hdisable : (g.disable (1#32 <<< pin)).gpioIntEnabled.getLsbD other = _ :=
    disable_enabled hother
  rw [pinMask_bit hother] at hdisable
  exact hdisable

theorem armed_unset (hother : other < 32) :
    ((DebounceCall.unsetEdgeCb pin).run numShifts s).armed other =
      (s.armed other && !decide (other = pin)) :=
  gpioUnsetEdgeCb_enabled hother

theorem debounce_unset : ((DebounceCall.unsetEdgeCb pin).run numShifts s).debounce =
    s.debounce.withdraw numShifts pin := rfl

theorem requested_unset (ok : s.debounce.CellsOk numShifts) (hi : i ≤ numShifts)
    (hother : other < 32) :
    ((DebounceCall.unsetEdgeCb pin).run numShifts s).requested numShifts other i =
      (s.requested numShifts other i && !decide (other = pin)) := by
  obtain ⟨shiftarr, hwithdraw, hbits⟩ := Debounce.withdraw_spec ok pin
  unfold requested
  rw [debounce_unset, hwithdraw]
  exact hbits i hi other hother

theorem withdraw_callbacks (ok : s.debounce.CellsOk numShifts) :
    (s.debounce.withdraw numShifts pin).callbacks = s.debounce.callbacks := by
  obtain ⟨shiftarr, hwithdraw, -⟩ := Debounce.withdraw_spec ok pin
  rw [hwithdraw]

theorem armed_arm {level : Bool} (hother : other < 32) :
    armed (mapHistory (·.register pin) (s.mapGpio (gpioSetEdgeCb pin level .debounceGpioCb)))
      other = (s.armed other || decide (other = pin)) :=
  gpioSetEdgeCb_enabled hother

theorem wired_arm {level : Bool} (wired : Wired numShifts due s)
    (hcallback : s.debounce.callbacks pin ≠ none) :
    Wired numShifts due
      (mapHistory (·.register pin) (s.mapGpio (gpioSetEdgeCb pin level .debounceGpioCb))) := by
  refine ⟨wired.cells, ?_, ?_⟩
  · intro other hother hcase
    change (gpioSetEdgeCb pin level .debounceGpioCb s.gpio).callbacks other ≠ none
    rw [gpioSetEdgeCb_callbacks hother]
    split
    next => exact Option.some_ne_none _
    next hne =>
      rw [armed_arm hother, Bool.or_eq_true, decide_eq_true_eq] at hcase
      exact wired.gpio_callback other hother (hcase.imp_left (fun h => h.resolve_right hne))
  · intro other hother hcase
    rw [armed_arm hother, Bool.or_eq_true, decide_eq_true_eq] at hcase
    by_cases heq : other = pin
    · rw [heq]
      exact hcallback
    · exact wired.user_callback other hother (hcase.imp_left (fun h => h.resolve_right heq))

theorem wired_store (wired : Wired numShifts due s) (callback : υ) :
    Wired numShifts due (s.mapDebounce (fun d => { d with
      callbacks := Function.update d.callbacks pin (some callback) })) := by
  have hcells := wired.cells
  refine ⟨⟨hcells.head, hcells.moves_nonneg, hcells.moves_le, hcells.timer, hcells.empty⟩,
    wired.gpio_callback, ?_⟩
  intro other hother hcase
  change Function.update s.debounce.callbacks pin (some callback) other ≠ none
  rw [Function.update_apply]
  split
  next => exact Option.some_ne_none _
  next => exact wired.user_callback other hother hcase

theorem set_eq {level : Bool} {callback : υ} :
    (DebounceCall.setEdgeCb pin level callback).run numShifts s =
      mapHistory (·.register pin) ((s.mapDebounce (fun d => { d with
        callbacks := Function.update d.callbacks pin (some callback) })).mapGpio
          (gpioSetEdgeCb pin level .debounceGpioCb)) := rfl

theorem callback_stored (callbacks : Nat → Option υ) (pin : Nat) (callback : υ) :
    Function.update callbacks pin (some callback) pin ≠ none := by
  rw [Function.update_self]
  exact Option.some_ne_none _

theorem wired_unset (wired : Wired numShifts due s) :
    Wired numShifts due ((DebounceCall.unsetEdgeCb pin).run numShifts s) := by
  refine ⟨wired.cells.withdraw pin, ?_, ?_⟩
  · intro other hother hcase
    change (gpioUnsetEdgeCb pin s.gpio).callbacks other ≠ none
    rw [gpioUnsetEdgeCb, gpioUnsetEdgeCbMask_eq]
    rw [armed_unset hother, Bool.and_eq_true] at hcase
    exact wired.gpio_callback other hother (hcase.imp_left And.left)
  · intro other hother hcase
    rw [debounce_unset, withdraw_callbacks wired.cells]
    rw [armed_unset hother, Bool.and_eq_true] at hcase
    refine wired.user_callback other hother (hcase.imp And.left (Or.imp_right ?_))
    rintro ⟨i, hi, hrequested⟩
    rw [requested_unset wired.cells hi hother, Bool.and_eq_true] at hrequested
    exact ⟨i, hi, hrequested.1⟩

theorem wired_call (wired : Wired numShifts due s) (call : DebounceCall υ) :
    Wired numShifts due (call.run numShifts s) := by
  cases call with
  | setEdgeCb pin level callback =>
    rw [set_eq]
    exact wired_arm (wired_store wired callback) (callback_stored _ pin callback)
  | unsetEdgeCb pin => exact wired_unset wired

theorem wired_calls (wired : Wired numShifts due s) (calls : List (DebounceCall υ)) :
    Wired numShifts due (calls.foldl (DebounceCall.run numShifts) s) := by
  induction calls generalizing s with
  | nil => exact wired
  | cons call calls ih => exact ih (wired_call wired call)

theorem armed_call (hother : other < 32) (call : DebounceCall υ) :
    (call.run numShifts s).armed other = (call.touch other).getD (s.armed other) := by
  cases call with
  | setEdgeCb pin level callback =>
    rw [armed_set hother]
    unfold DebounceCall.touch
    by_cases heq : pin = other
    · simp [heq]
    · simp [heq, Ne.symm heq]
  | unsetEdgeCb pin =>
    rw [armed_unset hother]
    unfold DebounceCall.touch
    by_cases heq : pin = other
    · simp [heq]
    · simp [heq, Ne.symm heq]

theorem armed_calls (hother : other < 32) (calls : List (DebounceCall υ)) :
    (calls.foldl (DebounceCall.run numShifts) s).armed other =
      (lastTouch other calls).getD (s.armed other) := by
  induction calls generalizing s with
  | nil => rfl
  | cons call calls ih =>
    have hcons : lastTouch other (call :: calls) =
        (lastTouch other calls).or (call.touch other) := rfl
    rw [List.foldl_cons, ih, armed_call hother, hcons]
    cases lastTouch other calls with
    | none => rfl
    | some registered => rfl

end Calls

section Pass

variable {numShifts : Nat} {s : DebounceClients υ} {pin other i : Nat} {due : List Nat}
  {levels : BitVec 32} {reenter : Nat → List (DebounceCall υ)}

theorem armed_entered : (s.entered numShifts pin).armed other = s.armed other := rfl

@[simp] theorem history_entered :
    (s.entered numShifts pin).history = s.history.callback numShifts pin := rfl

theorem requested_entered (hi : i ≤ numShifts) (hother : other < 32) :
    (s.entered numShifts pin).requested numShifts other i =
      (s.requested numShifts other i || decide (other = pin ∧ i = numShifts)) := by
  have hcell : (s.entered numShifts pin).debounce.cell numShifts i = _ := Debounce.cell_request hi
  unfold requested
  rw [hcell]
  by_cases hlast : i = numShifts
  · subst hlast
    rw [if_pos rfl, getLsbD_writeBit hother]
    by_cases heq : other = pin
    · simp [heq]
    · simp [heq]
  · rw [if_neg hlast]
    simp [hlast]

/-- Serving a pin whose callbacks are there enters its request and calls back. -/
theorem servePin_eq (hgpio : s.gpio.callbacks pin ≠ none) (huser : s.debounce.callbacks pin ≠ none) :
    s.servePin numShifts levels reenter pin =
      (reenter pin).foldl (DebounceCall.run numShifts) (s.entered numShifts pin) := by
  obtain ⟨gpioCallback, hg⟩ := Option.ne_none_iff_exists'.mp hgpio
  obtain ⟨callback, hu⟩ := Option.ne_none_iff_exists'.mp huser
  have hrequest : (s.app.debounce.request numShifts pin).callbacks pin = some callback := hu
  simp only [servePin, gpioteServePin, WithGpio.mapGpio, cfgSenseSet_callbacks, hg, debounceGpioCb,
    WithGpio.mapDebounce, hrequest, clientCallback]
  rfl

theorem wired_registered {p : Nat} (hp : p < 32)
    (wired : Wired numShifts (p :: due) s) :
    s.gpio.callbacks p ≠ none ∧ s.debounce.callbacks p ≠ none :=
  ⟨wired.gpio_callback p hp (.inr List.mem_cons_self),
    wired.user_callback p hp (.inr (.inl List.mem_cons_self))⟩

theorem wired_entered (hpos : 0 < numShifts) (hpin : pin < 32)
    (wired : Wired numShifts (pin :: due) s) : Wired numShifts due (s.entered numShifts pin) := by
  refine ⟨wired.cells.request hpos pin, ?_, ?_⟩
  · intro other hother hcase
    exact wired.gpio_callback other hother (hcase.imp_right (List.mem_cons_of_mem pin))
  · intro other hother hcase
    by_cases heq : other = pin
    · rw [heq]
      exact wired.user_callback pin hpin (.inr (.inl List.mem_cons_self))
    · refine wired.user_callback other hother
        (hcase.imp_right (Or.imp (List.mem_cons_of_mem pin) ?_))
      rintro ⟨i, hi, hrequested⟩
      rw [requested_entered hi hother, Bool.or_eq_true, decide_eq_true_eq] at hrequested
      exact ⟨i, hi, hrequested.resolve_right (fun h => heq h.1)⟩

def serve (numShifts : Nat) (reenter : Nat → List (DebounceCall υ)) (s : DebounceClients υ)
    (pin : Nat) : DebounceClients υ :=
  (reenter pin).foldl (DebounceCall.run numShifts) (s.entered numShifts pin)

theorem pass_eq (hpos : 0 < numShifts) {pins : List Nat} (bounded : ∀ p ∈ pins, p < 32)
    (wired : Wired numShifts pins s) :
    pins.foldl (servePin numShifts levels reenter) s =
      pins.foldl (serve numShifts reenter) s := by
  induction pins generalizing s with
  | nil => rfl
  | cons p pins ih =>
    have hp := bounded p (by simp)
    obtain ⟨hgpio, huser⟩ := wired_registered hp wired
    rw [List.foldl_cons, List.foldl_cons, servePin_eq hgpio huser]
    exact ih (fun q hq => bounded q (List.mem_cons_of_mem p hq))
      (wired_calls (wired_entered hpos hp wired) (reenter p))

theorem edgeIrq_eq (levels : BitVec 32) (reenter : Nat → List (DebounceCall υ))
    (s : DebounceClients υ) :
    debounceIrqHandler numShifts (clientCallback numShifts reenter) levels s =
      (setBits (s.gpio.interruptsFrom levels)).foldl (servePin numShifts levels reenter)
        (s.mapGpio (·.disable (s.gpio.interruptsFrom levels))) := by
  rw [debounceIrqHandler, gpioteIrqHandler, whileBits_eq_foldl]
  rfl

theorem armed_disable {pinmask : BitVec 32} (hother : other < 32) :
    armed (s.mapGpio (·.disable pinmask)) other =
      (s.armed other && !pinmask.getLsbD other) :=
  disable_enabled hother

/-- The pins a pass serves are armed when it starts, and no longer after it has read the port. -/
theorem mem_served {p : Nat} (hp : p ∈ setBits (s.gpio.interruptsFrom levels)) :
    p < 32 ∧ s.armed p = true ∧
      armed (s.mapGpio (·.disable (s.gpio.interruptsFrom levels))) p = false := by
  have hbit := mem_setBits.mp hp
  have hlt := BitVec.lt_of_getLsbD hbit
  refine ⟨hlt, ?_, ?_⟩
  · rw [interruptsFrom_bit, Bool.and_eq_true] at hbit
    exact hbit.2
  · rw [armed_disable hlt, hbit, Bool.not_true, Bool.and_false]

theorem wired_disable (wired : Wired numShifts [] s) :
    Wired numShifts (setBits (s.gpio.interruptsFrom levels))
      (s.mapGpio (·.disable (s.gpio.interruptsFrom levels))) := by
  have hback : ∀ other < 32, armed (s.mapGpio (·.disable (s.gpio.interruptsFrom levels))) other =
      true ∨ other ∈ setBits (s.gpio.interruptsFrom levels) → s.armed other = true := by
    intro other hother hcase
    rcases hcase with harmed | hmem
    · rw [armed_disable hother, Bool.and_eq_true] at harmed
      exact harmed.1
    · exact (mem_served hmem).2.1
  refine ⟨wired.cells, ?_, ?_⟩
  · intro other hother hcase
    exact wired.gpio_callback other hother (.inl (hback other hother hcase))
  · intro other hother hcase
    refine wired.user_callback other hother ?_
    rcases hcase with harmed | hmem | hpending
    · exact .inl (hback other hother (.inl harmed))
    · exact .inl (hback other hother (.inr hmem))
    · exact .inr (.inr hpending)

theorem lastTouch_cons (p : Nat) (pins : List Nat) :
    lastTouch pin ((p :: pins).flatMap reenter) =
      (lastTouch pin (pins.flatMap reenter)).or (lastTouch pin (reenter p)) := by
  rw [List.flatMap_cons]
  exact lastSome_append

theorem armed_pass {pins : List Nat} (hpin : pin < 32) :
    (pins.foldl (serve numShifts reenter) s).armed pin =
    (lastTouch pin (pins.flatMap reenter)).getD (s.armed pin) := by
  induction pins generalizing s with
  | nil => rfl
  | cons p pins ih =>
    have hserve : (serve numShifts reenter s p).armed pin =
        (lastTouch pin (reenter p)).getD (s.armed pin) := by
      unfold serve
      rw [armed_calls hpin, armed_entered]
    rw [List.foldl_cons, ih, hserve, lastTouch_cons]
    cases lastTouch pin (pins.flatMap reenter) with
    | none => rfl
    | some registered => rfl

theorem irq_eq (hpos : 0 < numShifts) (wired : Wired numShifts [] s) :
    debounceIrqHandler numShifts (clientCallback numShifts reenter) levels s =
      (setBits (s.gpio.interruptsFrom levels)).foldl (serve numShifts reenter)
        (s.mapGpio (·.disable (s.gpio.interruptsFrom levels))) := by
  rw [edgeIrq_eq]
  exact pass_eq hpos (fun p hp => (mem_served hp).1) (wired_disable wired)

/-- The rule for a pass: what the entry into each user callback and the calls made there keep,
from the moment the port has been read, holds at its end. -/
theorem pass_keeps {P : DebounceClients υ → Prop} (hpos : 0 < numShifts) {pins : List Nat}
    (entry : ∀ p due u, Wired numShifts (p :: due) u → P u → P (u.entered numShifts p))
    (call : ∀ (c : DebounceCall υ) due u, Wired numShifts due u → P u → P (c.run numShifts u))
    (bounded : ∀ p ∈ pins, p < 32) (wired : Wired numShifts pins s) (start : P s) :
    Wired numShifts [] (pins.foldl (serve numShifts reenter) s) ∧
      P (pins.foldl (serve numShifts reenter) s) := by
  have hcalls : ∀ due (calls : List (DebounceCall υ)) u, Wired numShifts due u → P u →
      Wired numShifts due (calls.foldl (DebounceCall.run numShifts) u) ∧
        P (calls.foldl (DebounceCall.run numShifts) u) := by
    intro due calls
    induction calls with
    | nil => exact fun u hwired h => ⟨hwired, h⟩
    | cons c calls ih =>
      exact fun u hwired h => ih (c.run numShifts u) (wired_call hwired c) (call c due u hwired h)
  induction pins generalizing s with
  | nil => exact ⟨wired, start⟩
  | cons p pins ih =>
    have hentered := wired_entered hpos (bounded p (by simp)) wired
    obtain ⟨hserved, hkept⟩ :=
      hcalls pins (reenter p) (s.entered numShifts p) hentered (entry p pins s wired start)
    exact ih (fun q hq => bounded q (List.mem_cons_of_mem p hq)) hserved hkept

theorem irq_keeps {P : DebounceClients υ → Prop} (hpos : 0 < numShifts)
    (entry : ∀ p due u, Wired numShifts (p :: due) u → P u → P (u.entered numShifts p))
    (call : ∀ (c : DebounceCall υ) due u, Wired numShifts due u → P u → P (c.run numShifts u))
    (wired : Wired numShifts [] s)
    (start : P (s.mapGpio (·.disable (s.gpio.interruptsFrom levels)))) :
    P (debounceIrqHandler numShifts (clientCallback numShifts reenter) levels s) := by
  rw [irq_eq hpos wired]
  exact (pass_keeps hpos entry call (fun p hp => (mem_served hp).1) (wired_disable wired) start).2

theorem wired_irq (hpos : 0 < numShifts) (wired : Wired numShifts [] s) :
    Wired numShifts []
      (debounceIrqHandler numShifts (clientCallback numShifts reenter) levels s) := by
  rw [irq_eq hpos wired]
  exact (@pass_keeps _ _ _ reenter (fun _ => True) hpos _ (fun _ _ _ _ _ => trivial)
    (fun _ _ _ _ _ => trivial) (fun p hp => (mem_served hp).1) (wired_disable wired) trivial).1

end Pass

section Tick

variable {numShifts : Nat} {s : DebounceClients υ} {pin i : Nat} {port : BitVec 32}

theorem debounce_tick : (debounceTimerCb numShifts port s).app =
    { debounce := s.debounce.moved numShifts, users := s.history } := by
  unfold debounceTimerCb
  simp only
  split
  next => rfl
  next hzero =>
    have hclear : Function.update s.debounce.shiftarr
        (s.debounce.rotateBuffer numShifts).shiftarrCell0Index 0#32 = s.debounce.shiftarr := by
      rw [not_not] at hzero
      funext cell
      rw [Function.update_apply]
      split
      next heq =>
        rw [heq]
        exact hzero.symm
      next => rfl
    change ({ debounce := _, users := _ } : WithDebounce υ DebounceHistory) = _
    congr 1
    unfold Debounce.moved
    simp only
    rw [show (s.debounce.rotateBuffer numShifts).shiftarr = s.debounce.shiftarr from rfl, hclear]
    rfl

theorem gpio_tick : (debounceTimerCb numShifts port s).gpio =
    if s.debounce.cell numShifts 1 ≠ 0#32 then
      gpioSetEdgeCbMask (s.debounce.cell numShifts 1) port .debounceGpioCb s.gpio
    else s.gpio := by
  unfold debounceTimerCb
  simp only
  split
  next h => exact (if_pos h).symm
  next h => exact (if_neg h).symm

theorem history_tick (f : DebounceHistory → DebounceHistory) :
    (mapHistory f (debounceTimerCb numShifts port s)).history = f s.history := by
  change f (debounceTimerCb numShifts port s).app.users = _
  rw [debounce_tick]

/-- A tick arms the pins whose requests are one cell from the front. -/
theorem armed_tick (f : DebounceHistory → DebounceHistory) :
    armed (mapHistory f (debounceTimerCb numShifts port s)) pin =
      (s.armed pin || s.requested numShifts pin 1) := by
  change (debounceTimerCb numShifts port s).gpio.gpioIntEnabled.getLsbD pin = _
  rw [gpio_tick]
  split
  next => exact gpioSetEdgeCbMask_enabled
  next hzero =>
    have hnone : s.requested numShifts pin 1 = false := by
      unfold requested
      rw [not_not.mp hzero]
      exact BitVec.getLsbD_zero
    rw [hnone, Bool.or_false]
    rfl

theorem requested_tick (f : DebounceHistory → DebounceHistory) (ok : s.debounce.CellsOk numShifts)
    (hi : i ≤ numShifts) :
    requested numShifts (mapHistory f (debounceTimerCb numShifts port s)) pin i =
      (decide (0 < i ∧ i < numShifts) && s.requested numShifts pin (i + 1)) := by
  have hdebounce : (mapHistory f (debounceTimerCb numShifts port s)).debounce =
      s.debounce.moved numShifts := congrArg WithDebounce.debounce debounce_tick
  unfold requested
  rw [hdebounce, Debounce.cell_moved ok.head hi]
  split
  next hzero => simp [hzero]
  next hzero =>
    split
    next hlast =>
      rw [ok.empty 0 (Nat.zero_le numShifts) (.inl rfl)]
      simp [hlast]
    next hlast =>
      have hbetween : 0 < i ∧ i < numShifts := by omega
      simp [hbetween]

theorem wired_tick (f : DebounceHistory → DebounceHistory) (hpos : 0 < numShifts)
    (hrunning : s.debounce.timerRunning = true) (wired : Wired numShifts [] s) :
    Wired numShifts [] (mapHistory f (debounceTimerCb numShifts port s)) := by
  have hdebounce : (mapHistory f (debounceTimerCb numShifts port s)).debounce =
      s.debounce.moved numShifts := congrArg WithDebounce.debounce debounce_tick
  refine ⟨?_, ?_, ?_⟩
  · rw [hdebounce]
    exact wired.cells.moved hrunning
  · intro other hother hcase
    change (debounceTimerCb numShifts port s).gpio.callbacks other ≠ none
    rw [armed_tick, Bool.or_eq_true] at hcase
    rw [gpio_tick]
    split
    next =>
      rw [gpioSetEdgeCbMask_callbacks]
      split
      next => exact Option.some_ne_none _
      next hbit =>
        exact wired.gpio_callback other hother (hcase.imp_left (fun h => h.resolve_right hbit))
    next hzero =>
      refine wired.gpio_callback other hother (hcase.imp_left (fun h => h.resolve_right ?_))
      unfold requested
      rw [not_not.mp hzero]
      exact fun h => Bool.false_ne_true (BitVec.getLsbD_zero.symm.trans h)
  · intro other hother hcase
    rw [hdebounce]
    change s.debounce.callbacks other ≠ none
    refine wired.user_callback other hother ?_
    rw [armed_tick, Bool.or_eq_true] at hcase
    rcases hcase with (harmed | hnow) | hmem | ⟨i, hi, hrequested⟩
    · exact .inl harmed
    · exact .inr (.inr ⟨1, hpos, hnow⟩)
    · exact .inr (.inl hmem)
    · rw [requested_tick f wired.cells hi, Bool.and_eq_true, decide_eq_true_eq] at hrequested
      exact .inr (.inr ⟨i + 1, by omega, hrequested.2⟩)

end Tick

section Step

variable {numShifts : Nat} {s t : DebounceClients υ} {event : DebounceEvent υ}

theorem wired_reset : Wired numShifts [] (reset : DebounceClients υ) := by
  have hoff : ∀ pin, armed (reset : DebounceClients υ) pin = false := fun _ => BitVec.getLsbD_zero
  have hnone : ∀ pin i, requested numShifts (reset : DebounceClients υ) pin i = false :=
    fun _ _ => BitVec.getLsbD_zero
  refine ⟨Debounce.cellsOk_reset, ?_, ?_⟩
  · intro pin _ hcase
    simp [hoff] at hcase
  · intro pin _ hcase
    simp [hoff, hnone] at hcase

theorem arm_step {pin : Nat} {level : Bool} (hstep : s.step numShifts (.arm pin level) = some t) :
    s.debounce.callbacks pin ≠ none ∧
      t = mapHistory (·.register pin) (s.mapGpio (gpioSetEdgeCb pin level .debounceGpioCb)) := by
  simp only [step] at hstep
  split at hstep
  next hsome => exact ⟨Option.isSome_iff_ne_none.mp hsome, (Option.some.inj hstep).symm⟩
  next => cases hstep

theorem tick_step {port : BitVec 32} (hstep : s.step numShifts (.timerTick port) = some t) :
    s.debounce.timerRunning = true ∧
      t = mapHistory (·.tick numShifts) (debounceTimerCb numShifts port s) := by
  simp only [step] at hstep
  split at hstep
  next hrunning => exact ⟨hrunning, (Option.some.inj hstep).symm⟩
  next => cases hstep

theorem wired_step (hpos : 0 < numShifts) (wired : Wired numShifts [] s)
    (hstep : s.step numShifts event = some t) : Wired numShifts [] t := by
  cases event with
  | storeCallback pin callback =>
    cases Option.some.inj hstep
    exact wired_store wired callback
  | arm pin level =>
    obtain ⟨hcallback, rfl⟩ := arm_step hstep
    exact wired_arm wired hcallback
  | unsetEdgeCb pin =>
    cases Option.some.inj hstep
    exact wired_unset wired
  | edgeIrq levels reenter =>
    cases Option.some.inj hstep
    exact wired_irq hpos wired
  | timerTick port =>
    obtain ⟨hrunning, rfl⟩ := tick_step hstep
    exact wired_tick _ hpos hrunning wired

end Step

end DebounceClients

end MyMouse
