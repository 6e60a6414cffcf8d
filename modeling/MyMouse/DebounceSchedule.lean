import MyMouse.DebounceClients

namespace MyMouse

open BitMask Runs

variable {υ : Type}

namespace DebounceClients

/-- A pin is registered only while it is neither armed nor pending, nor still to be served. -/
def SetsIdle (numShifts : Nat) (due : List Nat) (s : DebounceClients υ) : DebounceCall υ → Prop
  | .setEdgeCb pin _ _ =>
    s.armed pin = false ∧ ¬ s.debounce.Pending numShifts pin ∧ pin ∉ due
  | .unsetEdgeCb _ => True

instance (numShifts : Nat) (due : List Nat) (s : DebounceClients υ) :
    ∀ call, Decidable (SetsIdle numShifts due s call)
  | .setEdgeCb _ _ _ => inferInstanceAs (Decidable (_ ∧ _))
  | .unsetEdgeCb _ => instDecidableTrue

def CallsIdle (numShifts : Nat) (due : List Nat) : List (DebounceCall υ) → DebounceClients υ → Prop
  | [], _ => True
  | call :: calls, s =>
    SetsIdle numShifts due s call ∧ CallsIdle numShifts due calls (call.run numShifts s)

instance decidableCallsIdle (numShifts : Nat) (due : List Nat) :
    ∀ (calls : List (DebounceCall υ)) (s : DebounceClients υ),
      Decidable (CallsIdle numShifts due calls s)
  | [], _ => instDecidableTrue
  | call :: calls, s =>
    have : Decidable (CallsIdle numShifts due calls (call.run numShifts s)) :=
      decidableCallsIdle numShifts due calls (call.run numShifts s)
    inferInstanceAs (Decidable (_ ∧ _))

def PassIdle (numShifts : Nat) (reenter : Nat → List (DebounceCall υ)) :
    List Nat → DebounceClients υ → Prop
  | [], _ => True
  | pin :: pins, s =>
    CallsIdle numShifts pins (reenter pin) (s.entered numShifts pin) ∧
      PassIdle numShifts reenter pins (serve numShifts reenter s pin)

instance decidablePassIdle (numShifts : Nat) (reenter : Nat → List (DebounceCall υ)) :
    ∀ (pins : List Nat) (s : DebounceClients υ), Decidable (PassIdle numShifts reenter pins s)
  | [], _ => instDecidableTrue
  | pin :: pins, s =>
    have : Decidable (PassIdle numShifts reenter pins (serve numShifts reenter s pin)) :=
      decidablePassIdle numShifts reenter pins (serve numShifts reenter s pin)
    inferInstanceAs (Decidable (_ ∧ _))

def RegistersIdle (numShifts : Nat) (s : DebounceClients υ) : DebounceEvent υ → Prop
  | .arm pin _ => s.armed pin = false ∧ ¬ s.debounce.Pending numShifts pin
  | .edgeIrq levels reenter =>
    PassIdle numShifts reenter (setBits (s.gpio.interruptsFrom levels))
      (s.mapGpio (·.disable (s.gpio.interruptsFrom levels)))
  | _ => True

instance (numShifts : Nat) (s : DebounceClients υ) :
    ∀ event, Decidable (RegistersIdle numShifts s event)
  | .edgeIrq _ reenter => decidablePassIdle numShifts reenter _ _
  | .storeCallback _ _ => instDecidableTrue
  | .arm _ _ => inferInstanceAs (Decidable (_ ∧ _))
  | .unsetEdgeCb _ => instDecidableTrue
  | .timerTick _ => instDecidableTrue

/-- The timer and the array in step, and every request in the cell that its ticks give. -/
structure OnSchedule (numShifts : Nat) (s : DebounceClients υ) : Prop where
  timer : s.debounce.timerRunning = true ↔ 0 < s.debounce.shiftarrMovesLeft
  moves : 0 ≤ s.debounce.shiftarrMovesLeft ∧ s.debounce.shiftarrMovesLeft ≤ numShifts
  empty : ∀ i ≤ numShifts, i = 0 ∨ s.debounce.shiftarrMovesLeft < i →
    s.debounce.cell numShifts i = 0#32
  pending : ∀ pin < 32, s.debounce.Pending numShifts pin →
    s.armed pin = false ∧ ∃! i, i ≤ numShifts ∧ s.requested numShifts pin i = true
  place : ∀ pin < 32, ∀ i ≤ numShifts, s.requested numShifts pin i = true ↔
    0 < i ∧ s.history.waiting pin = some (numShifts - i)

/-- A pin whose interrupt fires starts to wait, if no callback of the pass makes a call for it,
and a tick arms the pins that have waited for `numShifts` ticks with it, and no others. -/
def RearmsOnTime (numShifts : Nat) (s : DebounceClients υ) : DebounceEvent υ → Prop
  | .edgeIrq levels reenter =>
    ∀ pin ∈ setBits (s.gpio.interruptsFrom levels),
      lastTouch pin ((setBits (s.gpio.interruptsFrom levels)).flatMap reenter) = none →
        (history (debounceIrqHandler numShifts (clientCallback numShifts reenter) levels s)).waiting
          pin = some 0
  | .timerTick port =>
    ∀ pin < 32, armed (debounceTimerCb numShifts port s) pin =
      (s.armed pin || decide (s.history.waiting pin = some (numShifts - 1)))
  | _ => True

/-- The invariant behind it, also while the handler has the pins of `due` to serve. -/
structure ScheduleInv (numShifts : Nat) (due : List Nat) (s : DebounceClients υ) : Prop where
  wired : Wired numShifts due s
  place : ∀ pin < 32, ∀ i ≤ numShifts, s.requested numShifts pin i = true ↔
    0 < i ∧ s.history.waiting pin = some (numShifts - i)
  in_time : ∀ pin < 32, ∀ ticks, s.history.waiting pin = some ticks → ticks < numShifts
  idle : ∀ pin < 32, ∀ ticks, s.history.waiting pin = some ticks →
    s.armed pin = false ∧ pin ∉ due
  unserved : ∀ pin ∈ due, pin < 32 ∧ s.armed pin = false
  once : due.Nodup

variable {numShifts : Nat} {s t : DebounceClients υ} {pin : Nat} {due pins : List Nat}
  {event : DebounceEvent υ} {levels : BitVec 32} {reenter : Nat → List (DebounceCall υ)}

theorem waiting_of_pending (inv : ScheduleInv numShifts due s) (hpin : pin < 32)
    (hpending : s.debounce.Pending numShifts pin) : ∃ ticks, s.history.waiting pin = some ticks := by
  obtain ⟨i, hi, hrequested⟩ := hpending
  exact ⟨_, ((inv.place pin hpin i hi).mp hrequested).2⟩

theorem pending_of_waiting (inv : ScheduleInv numShifts due s) (hpin : pin < 32) {ticks : Nat}
    (hwaiting : s.history.waiting pin = some ticks) : s.debounce.Pending numShifts pin := by
  have htime := inv.in_time pin hpin ticks hwaiting
  refine ⟨numShifts - ticks, by omega, (inv.place pin hpin _ (by omega)).mpr ⟨by omega, ?_⟩⟩
  rw [hwaiting]
  congr 1
  omega

theorem onSchedule (inv : ScheduleInv numShifts [] s) : OnSchedule numShifts s := by
  have hcells := inv.wired.cells
  refine ⟨hcells.timer, ⟨hcells.moves_nonneg, hcells.moves_le⟩, hcells.empty, ?_, inv.place⟩
  intro pin hpin hpending
  obtain ⟨ticks, hwaiting⟩ := waiting_of_pending inv hpin hpending
  refine ⟨(inv.idle pin hpin ticks hwaiting).1, ?_⟩
  obtain ⟨i, hi, hrequested⟩ := hpending
  refine ⟨i, ⟨hi, hrequested⟩, ?_⟩
  rintro j ⟨hj, hother⟩
  have hthis := (inv.place pin hpin i hi).mp hrequested
  have hthat := (inv.place pin hpin j hj).mp hother
  have hsame := Option.some.inj (hthis.2.symm.trans hthat.2)
  omega

theorem schedule_unset (inv : ScheduleInv numShifts due s) (pin : Nat) :
    ScheduleInv numShifts due ((DebounceCall.unsetEdgeCb pin).run numShifts s) := by
  have hwaiting : ∀ other, ((DebounceCall.unsetEdgeCb pin).run numShifts s).history.waiting other =
      if other = pin then none else s.history.waiting other := fun other =>
    Function.update_apply _ _ _ _
  refine ⟨wired_unset inv.wired, ?_, ?_, ?_, ?_, inv.once⟩
  · intro other hother i hi
    rw [requested_unset inv.wired.cells hi hother, hwaiting]
    by_cases heq : other = pin
    · simp [heq]
    · simpa [heq] using inv.place other hother i hi
  · intro other hother ticks hsome
    rw [hwaiting] at hsome
    split at hsome
    next => cases hsome
    next => exact inv.in_time other hother ticks hsome
  · intro other hother ticks hsome
    rw [hwaiting] at hsome
    split at hsome
    next => cases hsome
    next =>
      obtain ⟨harmed, hdue⟩ := inv.idle other hother ticks hsome
      rw [armed_unset hother, harmed]
      exact ⟨rfl, hdue⟩
  · intro other hmem
    obtain ⟨hother, harmed⟩ := inv.unserved other hmem
    rw [armed_unset hother, harmed]
    exact ⟨hother, rfl⟩

/-- Registering keeps the schedule when the pin is idle. -/
theorem schedule_arm {level : Bool} (inv : ScheduleInv numShifts due s)
    (hcallback : s.debounce.callbacks pin ≠ none)
    (hpending : ¬ s.debounce.Pending numShifts pin) (hdue : pin ∉ due) :
    ScheduleInv numShifts due
      (mapHistory (·.register pin) (s.mapGpio (gpioSetEdgeCb pin level .debounceGpioCb))) := by
  refine ⟨wired_arm inv.wired hcallback, inv.place, inv.in_time, ?_, ?_, inv.once⟩
  · intro other hother ticks hsome
    change s.history.waiting other = some ticks at hsome
    have hne : other ≠ pin := fun heq => hpending (heq ▸ pending_of_waiting inv hother hsome)
    obtain ⟨hoff, hnotDue⟩ := inv.idle other hother ticks hsome
    rw [armed_arm hother, hoff, decide_eq_false hne]
    exact ⟨rfl, hnotDue⟩
  · intro other hmem
    obtain ⟨hother, hoff⟩ := inv.unserved other hmem
    have hne : other ≠ pin := fun heq => hdue (heq ▸ hmem)
    rw [armed_arm hother, hoff, decide_eq_false hne]
    exact ⟨hother, rfl⟩

theorem schedule_store (inv : ScheduleInv numShifts due s) (callback : υ) :
    ScheduleInv numShifts due (s.mapDebounce (fun d => { d with
      callbacks := Function.update d.callbacks pin (some callback) })) :=
  ⟨wired_store inv.wired callback, inv.place, inv.in_time, inv.idle, inv.unserved, inv.once⟩

theorem schedule_call (inv : ScheduleInv numShifts due s) (call : DebounceCall υ)
    (hidle : SetsIdle numShifts due s call) : ScheduleInv numShifts due (call.run numShifts s) := by
  cases call with
  | setEdgeCb pin level callback =>
    obtain ⟨-, hpending, hdue⟩ := hidle
    rw [set_eq]
    exact schedule_arm (schedule_store inv callback) (callback_stored _ pin callback) hpending hdue
  | unsetEdgeCb pin => exact schedule_unset inv pin

theorem schedule_calls (inv : ScheduleInv numShifts due s) (calls : List (DebounceCall υ))
    (hidle : CallsIdle numShifts due calls s) :
    ScheduleInv numShifts due (calls.foldl (DebounceCall.run numShifts) s) := by
  induction calls generalizing s with
  | nil => exact inv
  | cons call calls ih =>
    obtain ⟨hcall, hrest⟩ := hidle
    exact ih (schedule_call inv call hcall) hrest

/-- A pin about to be served has no request left. -/
theorem schedule_entered (hpos : 0 < numShifts) (inv : ScheduleInv numShifts (pin :: due) s) :
    ScheduleInv numShifts due (s.entered numShifts pin) := by
  obtain ⟨hpin, hoff⟩ := inv.unserved pin List.mem_cons_self
  obtain ⟨hnotMem, hnodup⟩ := List.nodup_cons.mp inv.once
  have hnone : s.history.waiting pin = none := by
    cases hwaiting : s.history.waiting pin with
    | none => rfl
    | some ticks => exact ((inv.idle pin hpin ticks hwaiting).2 List.mem_cons_self).elim
  have hwaiting : ∀ other, (s.entered numShifts pin).history.waiting other =
      if other = pin then some 0 else s.history.waiting other := fun other =>
    Function.update_apply _ _ _ _
  refine ⟨wired_entered hpos hpin inv.wired, ?_, ?_, ?_, ?_, hnodup⟩
  · intro other hother i hi
    rw [requested_entered hi hother, hwaiting, Bool.or_eq_true, decide_eq_true_eq,
      inv.place other hother i hi]
    by_cases heq : other = pin
    · subst heq
      rw [hnone, if_pos rfl]
      constructor
      · rintro (⟨-, habsurd⟩ | ⟨-, hlast⟩)
        · cases habsurd
        · rw [hlast, Nat.sub_self]
          exact ⟨hpos, rfl⟩
      · rintro ⟨-, hzero⟩
        have := Option.some.inj hzero
        exact .inr ⟨rfl, by omega⟩
    · simp [heq]
  · intro other hother ticks hsome
    rw [hwaiting] at hsome
    split at hsome
    next =>
      cases Option.some.inj hsome
      exact hpos
    next => exact inv.in_time other hother ticks hsome
  · intro other hother ticks hsome
    rw [hwaiting] at hsome
    split at hsome
    next heq =>
      rw [heq]
      exact ⟨hoff, hnotMem⟩
    next =>
      obtain ⟨harmed, hdue⟩ := inv.idle other hother ticks hsome
      exact ⟨harmed, fun h => hdue (List.mem_cons_of_mem pin h)⟩
  · exact fun other hmem => inv.unserved other (List.mem_cons_of_mem pin hmem)

theorem schedule_pass (hpos : 0 < numShifts) (inv : ScheduleInv numShifts pins s)
    (hidle : PassIdle numShifts reenter pins s) :
    ScheduleInv numShifts [] (pins.foldl (serve numShifts reenter) s) := by
  induction pins generalizing s with
  | nil => exact inv
  | cons p pins ih =>
    obtain ⟨hcalls, hrest⟩ := hidle
    exact ih (schedule_calls (schedule_entered hpos inv) (reenter p) hcalls) hrest

theorem schedule_disable (inv : ScheduleInv numShifts [] s) :
    ScheduleInv numShifts (setBits (s.gpio.interruptsFrom levels))
      (s.mapGpio (·.disable (s.gpio.interruptsFrom levels))) := by
  refine ⟨wired_disable inv.wired, inv.place, inv.in_time, ?_, ?_, setBits_nodup _⟩
  · intro other hother ticks hsome
    obtain ⟨hoff, -⟩ := inv.idle other hother ticks hsome
    rw [armed_disable hother, hoff]
    refine ⟨rfl, ?_⟩
    intro hmem
    rw [(mem_served hmem).2.1] at hoff
    cases hoff
  · exact fun p hp => ⟨(mem_served hp).1, (mem_served hp).2.2⟩

theorem schedule_irq (hpos : 0 < numShifts) (inv : ScheduleInv numShifts [] s)
    (hidle : RegistersIdle numShifts s (.edgeIrq levels reenter)) :
    ScheduleInv numShifts []
      (debounceIrqHandler numShifts (clientCallback numShifts reenter) levels s) := by
  rw [irq_eq hpos inv.wired]
  exact schedule_pass hpos (schedule_disable inv) hidle

theorem schedule_tick {port : BitVec 32} (hpos : 0 < numShifts)
    (hrunning : s.debounce.timerRunning = true) (inv : ScheduleInv numShifts [] s) :
    ScheduleInv numShifts []
      (mapHistory (·.tick numShifts) (debounceTimerCb numShifts port s)) := by
  have hwaiting : ∀ pin, (s.history.tick numShifts).waiting pin = (s.history.waiting pin).bind
      (fun ticks => if ticks + 1 = numShifts then none else some (ticks + 1)) := fun _ => rfl
  have hback : ∀ pin ticks, (s.history.tick numShifts).waiting pin = some ticks →
      ∃ before, s.history.waiting pin = some before ∧ before + 1 ≠ numShifts ∧
        before + 1 = ticks := by
    intro pin ticks hsome
    rw [hwaiting] at hsome
    obtain ⟨before, hbefore, hnext⟩ := Option.bind_eq_some_iff.mp hsome
    split at hnext
    next => cases hnext
    next hne => exact ⟨before, hbefore, hne, Option.some.inj hnext⟩
  refine ⟨wired_tick _ hpos hrunning inv.wired, ?_, ?_, ?_, ?_, List.nodup_nil⟩
  · intro pin hpin i hi
    rw [history_tick, requested_tick _ inv.wired.cells hi, Bool.and_eq_true, decide_eq_true_eq]
    constructor
    · rintro ⟨hbetween, hbefore⟩
      obtain ⟨-, hplace⟩ := (inv.place pin hpin (i + 1) (by omega)).mp hbefore
      refine ⟨hbetween.1, ?_⟩
      rw [hwaiting, hplace, Option.bind_some, if_neg (by omega)]
      congr 1
      omega
    · rintro ⟨hi', hsome⟩
      obtain ⟨before, hbefore, hne, hnext⟩ := hback pin _ hsome
      have hlast : i < numShifts := by omega
      refine ⟨⟨hi', hlast⟩, (inv.place pin hpin (i + 1) (by omega)).mpr ⟨by omega, ?_⟩⟩
      rw [hbefore]
      congr 1
      omega
  · intro pin hpin ticks hsome
    rw [history_tick] at hsome
    obtain ⟨before, hbefore, hne, hnext⟩ := hback pin ticks hsome
    have := inv.in_time pin hpin before hbefore
    omega
  · intro pin hpin ticks hsome
    rw [history_tick] at hsome
    obtain ⟨before, hbefore, hne, hnext⟩ := hback pin ticks hsome
    refine ⟨?_, List.not_mem_nil⟩
    rw [armed_tick, (inv.idle pin hpin before hbefore).1, Bool.false_or, ← Bool.not_eq_true,
      inv.place pin hpin 1 hpos, hbefore]
    rintro ⟨-, hlast⟩
    have := Option.some.inj hlast
    omega
  · intro pin hmem
    cases hmem

theorem schedule_step (hpos : 0 < numShifts) (inv : ScheduleInv numShifts [] s)
    (hidle : RegistersIdle numShifts s event) (hstep : s.step numShifts event = some t) :
    ScheduleInv numShifts [] t := by
  cases event with
  | storeCallback pin callback =>
    cases Option.some.inj hstep
    exact schedule_store inv callback
  | arm pin level =>
    obtain ⟨hcallback, rfl⟩ := arm_step hstep
    exact schedule_arm inv hcallback hidle.2 List.not_mem_nil
  | unsetEdgeCb pin =>
    cases Option.some.inj hstep
    exact schedule_unset inv pin
  | edgeIrq levels reenter =>
    cases Option.some.inj hstep
    exact schedule_irq hpos inv hidle
  | timerTick port =>
    obtain ⟨hrunning, rfl⟩ := tick_step hstep
    exact schedule_tick hpos hrunning inv

theorem schedule_reset : ScheduleInv numShifts [] (reset : DebounceClients υ) := by
  have hnone : ∀ pin i, requested numShifts (reset : DebounceClients υ) pin i = false :=
    fun _ _ => BitVec.getLsbD_zero
  have hwaiting : ∀ pin, (reset : DebounceClients υ).history.waiting pin = none := fun _ => rfl
  refine ⟨wired_reset, ?_, ?_, ?_, ?_, List.nodup_nil⟩
  · intro pin _ i _
    simp [hnone, hwaiting]
  · intro pin _ ticks hsome
    cases hsome
  · intro pin _ ticks hsome
    cases hsome
  · intro pin hmem
    cases hmem

theorem waiting_call (call : DebounceCall υ) (huntouched : call.touch pin = none) :
    (call.run numShifts s).history.waiting pin = s.history.waiting pin := by
  cases call with
  | setEdgeCb other level callback => rfl
  | unsetEdgeCb other =>
    change Function.update s.history.waiting other none pin = _
    refine Function.update_of_ne ?_ _ _
    intro heq
    simp [DebounceCall.touch, heq] at huntouched

theorem waiting_calls (calls : List (DebounceCall υ)) (huntouched : lastTouch pin calls = none) :
    (calls.foldl (DebounceCall.run numShifts) s).history.waiting pin = s.history.waiting pin := by
  induction calls generalizing s with
  | nil => rfl
  | cons call calls ih =>
    obtain ⟨hrest, hcall⟩ := Option.or_eq_none_iff.mp huntouched
    rw [List.foldl_cons, ih hrest, waiting_call call hcall]

theorem waiting_pass (huntouched : lastTouch pin (pins.flatMap reenter) = none) :
    (pins.foldl (serve numShifts reenter) s).history.waiting pin =
      if pin ∈ pins then some 0 else s.history.waiting pin := by
  induction pins generalizing s with
  | nil => simp
  | cons p pins ih =>
    rw [lastTouch_cons] at huntouched
    obtain ⟨hrest, hcalls⟩ := Option.or_eq_none_iff.mp huntouched
    have hserve : (serve numShifts reenter s p).history.waiting pin =
        if pin = p then some 0 else s.history.waiting pin := by
      unfold serve
      rw [waiting_calls (reenter p) hcalls]
      exact Function.update_apply _ _ _ _
    rw [List.foldl_cons, ih hrest, hserve]
    by_cases hmem : pin ∈ pins
    · simp [hmem]
    · simp [hmem]

theorem rearmsOnTime (hpos : 0 < numShifts) (inv : ScheduleInv numShifts [] s) :
    RearmsOnTime numShifts s event := by
  cases event with
  | storeCallback pin callback => trivial
  | arm pin level => trivial
  | unsetEdgeCb pin => trivial
  | edgeIrq levels reenter =>
    intro pin hmem huntouched
    rw [irq_eq hpos inv.wired, waiting_pass huntouched, if_pos hmem]
  | timerTick port =>
    intro pin hpin
    have htick : armed (debounceTimerCb numShifts port s) pin =
        (s.armed pin || s.requested numShifts pin 1) := armed_tick id
    have hplace : s.requested numShifts pin 1 =
        decide (s.history.waiting pin = some (numShifts - 1)) := by
      rw [Bool.eq_iff_iff, inv.place pin hpin 1 hpos, decide_eq_true_eq]
      exact and_iff_right Nat.one_pos
    rw [htick, hplace]

/-- As long as clients register idle pins only, every state is on schedule and every step keeps
the time of each request. -/
theorem run_onSchedule (hpos : 0 < numShifts)
    {trace : List (DebounceClients υ × DebounceEvent υ)} (run : Run (step numShifts) reset trace s)
    (idle : AllSteps (RegistersIdle numShifts) trace) :
    AllStates (OnSchedule numShifts) trace s ∧ AllSteps (RearmsOnTime numShifts) trace := by
  have invariant : AllStates (ScheduleInv numShifts []) trace s :=
    run.invariant idle schedule_reset
      (fun _ _ _ inv hidle hstep => schedule_step hpos inv hidle hstep)
  refine ⟨invariant.imp (fun _ inv => onSchedule inv), ?_⟩
  exact fun p hp => rearmsOnTime hpos (invariant.2 p hp)

/-- Pins 0 and 1 are pressed one tick apart; the callback of pin 0 registers pin 2, and pin 1
is unregistered while its request travels. -/
def pressedApart : List (DebounceEvent Unit) :=
  [.storeCallback 0 (), .arm 0 true, .storeCallback 1 (), .arm 1 true,
    .edgeIrq 2#32 (fun pin => if pin = 0 then [.setEdgeCb 2 true ()] else []), .timerTick 2#32,
    .edgeIrq 4#32 (fun _ => []), .timerTick 4#32, .unsetEdgeCb 1, .timerTick 4#32]

theorem run_onSchedule_pressedApart :
    ∃ trace s, Run (step 2) (reset : DebounceClients Unit) trace s ∧
      trace.map Prod.snd = pressedApart.reverse ∧ AllStates (OnSchedule 2) trace s ∧
      AllSteps (RearmsOnTime 2) trace := by
  have hreplay : (replay (guarded (RegistersIdle 2) (step 2)) (reset : DebounceClients Unit)
      pressedApart).isSome = true := by
    decide +kernel
  obtain ⟨trace, s, run, hok, hlabels⟩ := exists_allowed_run hreplay
  exact ⟨trace, s, run, hlabels, run_onSchedule (by decide) run hok⟩

/-- No client makes a call that concerns `pin`, from the callbacks of the step or outside them. -/
def LeavesPin (pin : Nat) (s : DebounceClients υ) : DebounceEvent υ → Prop
  | .arm other _ => other ≠ pin
  | .unsetEdgeCb other => other ≠ pin
  | .edgeIrq levels reenter =>
    lastTouch pin ((setBits (s.gpio.interruptsFrom levels)).flatMap reenter) = none
  | _ => True

def ticksOf : List (DebounceClients υ × DebounceEvent υ) → Nat
  | [] => 0
  | (_, .timerTick _) :: trace => ticksOf trace + 1
  | _ :: trace => ticksOf trace

theorem waiting_step (hpos : 0 < numShifts) (inv : ScheduleInv numShifts [] s) (hpin : pin < 32)
    (hleft : LeavesPin pin s event) (hstep : s.step numShifts event = some t) {ticks : Nat}
    (hwaiting : s.history.waiting pin = some ticks)
    (htime : ticksOf [(s, event)] + ticks < numShifts) :
    t.history.waiting pin = some (ticksOf [(s, event)] + ticks) := by
  cases event with
  | storeCallback other callback =>
    cases Option.some.inj hstep
    exact hwaiting.trans (congrArg some (Nat.zero_add ticks).symm)
  | arm other level =>
    obtain ⟨-, rfl⟩ := arm_step hstep
    exact hwaiting.trans (congrArg some (Nat.zero_add ticks).symm)
  | unsetEdgeCb other =>
    cases Option.some.inj hstep
    have huntouched : (DebounceCall.unsetEdgeCb other : DebounceCall υ).touch pin = none :=
      if_neg hleft
    rw [waiting_call _ huntouched]
    exact hwaiting.trans (congrArg some (Nat.zero_add ticks).symm)
  | edgeIrq levels reenter =>
    cases Option.some.inj hstep
    have hnotServed : pin ∉ setBits (s.gpio.interruptsFrom levels) := by
      intro hmem
      have harmed := (mem_served hmem).2.1
      rw [(inv.idle pin hpin ticks hwaiting).1] at harmed
      cases harmed
    rw [irq_eq hpos inv.wired, waiting_pass hleft, if_neg hnotServed]
    exact hwaiting.trans (congrArg some (Nat.zero_add ticks).symm)
  | timerTick port =>
    obtain ⟨-, rfl⟩ := tick_step hstep
    have hone : ticksOf [(s, (.timerTick port : DebounceEvent υ))] = 1 := rfl
    rw [hone] at htime ⊢
    rw [history_tick]
    change (s.history.waiting pin).bind _ = _
    rw [hwaiting, Option.bind_some, if_neg (by omega)]
    congr 1
    omega

theorem ticksOf_cons (step : DebounceClients υ × DebounceEvent υ)
    (trace : List (DebounceClients υ × DebounceEvent υ)) :
    ticksOf (step :: trace) = ticksOf [step] + ticksOf trace := by
  obtain ⟨s, event⟩ := step
  cases event with
  | timerTick port => exact Nat.add_comm (ticksOf trace) 1
  | storeCallback pin callback => exact (Nat.zero_add _).symm
  | arm pin level => exact (Nat.zero_add _).symm
  | unsetEdgeCb pin => exact (Nat.zero_add _).symm
  | edgeIrq levels reenter => exact (Nat.zero_add _).symm

/-- A pin whose interrupt has fired and that is left alone is not armed before the last of
`numShifts` ticks, and that tick arms it. -/
theorem run_rearmed (hpos : 0 < numShifts) {u : DebounceClients υ}
    {before after : List (DebounceClients υ × DebounceEvent υ)}
    (run : Run (step numShifts) reset before u) (idle : AllSteps (RegistersIdle numShifts) before)
    (hidle : RegistersIdle numShifts u (.edgeIrq levels reenter))
    (hleft : LeavesPin pin u (.edgeIrq levels reenter))
    (hfired : pin ∈ setBits (u.gpio.interruptsFrom levels))
    (rest : Run (step numShifts)
      (debounceIrqHandler numShifts (clientCallback numShifts reenter) levels u) after s)
    (restIdle : AllSteps (RegistersIdle numShifts) after) (restLeft : AllSteps (LeavesPin pin) after) :
    (ticksOf after < numShifts → s.armed pin = false) ∧
      (ticksOf after + 1 = numShifts → ∀ port,
        armed (debounceTimerCb numShifts port s) pin = true) := by
  have hpin := (mem_served hfired).1
  have invariant : AllStates (ScheduleInv numShifts []) before u :=
    run.invariant idle schedule_reset
      (fun _ _ _ inv hidle hstep => schedule_step hpos inv hidle hstep)
  have hstart := schedule_irq hpos invariant.1 hidle
  have hafter : ScheduleInv numShifts [] s ∧
      (ticksOf after < numShifts → s.history.waiting pin = some (ticksOf after)) := by
    induction rest with
    | start =>
      refine ⟨hstart, fun _ => ?_⟩
      rw [irq_eq hpos invariant.1.wired, waiting_pass hleft, if_pos hfired]
      rfl
    | @next trace v event t _ hstep ih =>
      obtain ⟨hidle', hrestIdle⟩ := allSteps_cons.mp restIdle
      obtain ⟨hleft', hrestLeft⟩ := allSteps_cons.mp restLeft
      obtain ⟨inv, hwaiting⟩ := ih hrestIdle hrestLeft
      refine ⟨schedule_step hpos inv hidle' hstep, ?_⟩
      intro htime
      rw [ticksOf_cons] at htime ⊢
      exact waiting_step hpos inv hpin hleft' hstep (hwaiting (by omega)) htime
  obtain ⟨inv, hwaiting⟩ := hafter
  constructor
  · exact fun htime => (inv.idle pin hpin _ (hwaiting htime)).1
  · intro hlast port
    have hrearms := @rearmsOnTime _ numShifts s (.timerTick port) hpos inv pin hpin
    have hnow : s.history.waiting pin = some (numShifts - 1) := by
      rw [hwaiting (by omega)]
      congr 1
      omega
    rw [hrearms, hnow, decide_eq_true rfl, Bool.or_true]

end DebounceClients

end MyMouse
