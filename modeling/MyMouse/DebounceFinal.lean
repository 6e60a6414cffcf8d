import MyMouse.DebounceClients

namespace MyMouse

open BitMask Runs

variable {υ : Type}

namespace DebounceClients

/-- No user callback has come for a pin that was unregistered, and no such pin is armed. -/
def StaysUnregistered (s : DebounceClients υ) : Prop :=
  s.history.late = [] ∧ ∀ pin < 32, s.history.gone pin = true → s.armed pin = false

instance (s : DebounceClients υ) : Decidable (StaysUnregistered s) :=
  inferInstanceAs (Decidable (_ ∧ ∀ pin < 32, _))

/-- No pin the pass has yet to serve has been unregistered by the calls `before`, unless it has
been registered again. -/
def ServesRegistered (reenter : Nat → List (DebounceCall υ)) :
    List (DebounceCall υ) → List Nat → Prop
  | _, [] => True
  | before, pin :: pins =>
    lastTouch pin before ≠ some false ∧ ServesRegistered reenter (before ++ reenter pin) pins

instance decidableServesRegistered (reenter : Nat → List (DebounceCall υ)) :
    ∀ (before : List (DebounceCall υ)) (pins : List Nat),
      Decidable (ServesRegistered reenter before pins)
  | _, [] => instDecidableTrue
  | before, pin :: pins =>
    have : Decidable (ServesRegistered reenter (before ++ reenter pin) pins) :=
      decidableServesRegistered reenter (before ++ reenter pin) pins
    inferInstanceAs (Decidable (_ ∧ _))

def UnregistersSafely (s : DebounceClients υ) : DebounceEvent υ → Prop
  | .edgeIrq levels reenter =>
    ServesRegistered reenter [] (setBits (s.gpio.interruptsFrom levels))
  | _ => True

instance (s : DebounceClients υ) : ∀ event, Decidable (UnregistersSafely s event)
  | .edgeIrq levels reenter =>
    decidableServesRegistered reenter [] (setBits (s.gpio.interruptsFrom levels))
  | .storeCallback _ _ => instDecidableTrue
  | .arm _ _ => instDecidableTrue
  | .unsetEdgeCb _ => instDecidableTrue
  | .timerTick _ => instDecidableTrue

/-- As long as no callback came late, no request is left for an unregistered pin. -/
def Withdrawn (numShifts : Nat) (s : DebounceClients υ) : Prop :=
  s.history.late = [] → ∀ pin < 32, s.history.gone pin = true →
    ∀ i ≤ numShifts, s.requested numShifts pin i = false

variable {numShifts : Nat} {s t : DebounceClients υ} {pin : Nat} {due : List Nat}
  {event : DebounceEvent υ} {levels : BitVec 32} {reenter : Nat → List (DebounceCall υ)}

theorem late_call (call : DebounceCall υ) : (call.run numShifts s).history.late = s.history.late := by
  cases call with
  | setEdgeCb pin level callback => rfl
  | unsetEdgeCb pin => rfl

theorem gone_call (call : DebounceCall υ) :
    (call.run numShifts s).history.gone pin =
      ((call.touch pin).map Bool.not).getD (s.history.gone pin) := by
  cases call with
  | setEdgeCb other level callback =>
    change Function.update s.history.gone other false pin = _
    unfold DebounceCall.touch
    by_cases heq : other = pin
    · simp [heq]
    · simp [heq, Ne.symm heq]
  | unsetEdgeCb other =>
    change Function.update s.history.gone other true pin = _
    unfold DebounceCall.touch
    by_cases heq : other = pin
    · simp [heq]
    · simp [heq, Ne.symm heq]

theorem late_calls (calls : List (DebounceCall υ)) :
    (calls.foldl (DebounceCall.run numShifts) s).history.late = s.history.late := by
  induction calls generalizing s with
  | nil => rfl
  | cons call calls ih => rw [List.foldl_cons, ih, late_call]

theorem gone_calls (calls : List (DebounceCall υ)) :
    (calls.foldl (DebounceCall.run numShifts) s).history.gone pin =
      ((lastTouch pin calls).map Bool.not).getD (s.history.gone pin) := by
  induction calls generalizing s with
  | nil => rfl
  | cons call calls ih =>
    have hcons : lastTouch pin (call :: calls) = (lastTouch pin calls).or (call.touch pin) := rfl
    rw [List.foldl_cons, ih, gone_call, hcons]
    cases lastTouch pin calls with
    | none => simp
    | some registered => simp

theorem late_serve {p : Nat} : (serve numShifts reenter s p).history.late = [] ↔
    s.history.late = [] ∧ s.history.gone p = false := by
  unfold serve
  rw [late_calls, history_entered]
  change (if s.history.gone p = true then p :: s.history.late else s.history.late) = [] ↔ _
  cases s.history.gone p with
  | true => simp
  | false => simp

theorem gone_serve {p : Nat} : (serve numShifts reenter s p).history.gone pin =
    ((lastTouch pin (reenter p)).map Bool.not).getD (s.history.gone pin) := by
  unfold serve
  rw [gone_calls]
  rfl

/-- A pass calls back late exactly if it serves a pin that callbacks before have unregistered. -/
theorem late_pass {before : List (DebounceCall υ)} (pins : List Nat)
    (hgone : ∀ p ∈ pins, s.history.gone p = (lastTouch p before == some false)) :
    (pins.foldl (serve numShifts reenter) s).history.late = [] ↔
      s.history.late = [] ∧ ServesRegistered reenter before pins := by
  induction pins generalizing s before with
  | nil => exact (and_iff_left trivial).symm
  | cons p pins ih =>
    have hrest : ∀ q ∈ pins, (serve numShifts reenter s p).history.gone q =
        (lastTouch q (before ++ reenter p) == some false) := by
      intro q hq
      have happend : lastTouch q (before ++ reenter p) =
          (lastTouch q (reenter p)).or (lastTouch q before) := lastSome_append
      rw [gone_serve, hgone q (List.mem_cons_of_mem p hq), happend]
      cases lastTouch q (reenter p) with
      | none => simp
      | some registered => cases registered <;> rfl
    have hfirst : s.history.gone p = false ↔ lastTouch p before ≠ some false := by
      rw [hgone p (by simp), beq_eq_false_iff_ne]
    have hserves : ServesRegistered reenter before (p :: pins) ↔
        lastTouch p before ≠ some false ∧ ServesRegistered reenter (before ++ reenter p) pins :=
      Iff.rfl
    rw [List.foldl_cons, ih hrest, late_serve, hfirst, hserves, and_assoc]

/-- What a call leaves armed has been registered. -/
theorem gone_unarmed_call (h : ∀ pin < 32, s.history.gone pin = true → s.armed pin = false)
    (call : DebounceCall υ) :
    ∀ pin < 32, (call.run numShifts s).history.gone pin = true →
      (call.run numShifts s).armed pin = false := by
  intro pin hpin hgone
  rw [gone_call] at hgone
  cases call with
  | setEdgeCb other level callback =>
    rw [armed_set hpin]
    by_cases heq : other = pin
    · simp [DebounceCall.touch, heq] at hgone
    · have hbefore : s.history.gone pin = true := by simpa [DebounceCall.touch, heq] using hgone
      simp [h pin hpin hbefore, Ne.symm heq]
  | unsetEdgeCb other =>
    rw [armed_unset hpin]
    by_cases heq : other = pin
    · simp [heq]
    · have hbefore : s.history.gone pin = true := by simpa [DebounceCall.touch, heq] using hgone
      simp [h pin hpin hbefore]

theorem withdrawn_call (ok : s.debounce.CellsOk numShifts) (h : Withdrawn numShifts s)
    (call : DebounceCall υ) : Withdrawn numShifts (call.run numShifts s) := by
  intro hlate pin hpin hgone i hi
  rw [late_call] at hlate
  rw [gone_call] at hgone
  cases call with
  | setEdgeCb other level callback =>
    change s.requested numShifts pin i = false
    by_cases heq : other = pin
    · simp [DebounceCall.touch, heq] at hgone
    · have hbefore : s.history.gone pin = true := by simpa [DebounceCall.touch, heq] using hgone
      exact h hlate pin hpin hbefore i hi
  | unsetEdgeCb other =>
    rw [requested_unset ok hi hpin]
    by_cases heq : other = pin
    · simp [heq]
    · have hbefore : s.history.gone pin = true := by simpa [DebounceCall.touch, heq] using hgone
      simp [h hlate pin hpin hbefore i hi]

/-- A request entered for an unregistered pin comes with a late callback. -/
theorem withdrawn_entered (h : Withdrawn numShifts s) (p : Nat) :
    Withdrawn numShifts (s.entered numShifts p) := by
  intro hlate pin hpin hgone i hi
  rw [history_entered] at hlate hgone
  change s.history.gone pin = true at hgone
  change (if s.history.gone p = true then p :: s.history.late else s.history.late) = [] at hlate
  split at hlate
  next => cases hlate
  next hp =>
    have hne : pin ≠ p := fun heq => hp (heq ▸ hgone)
    rw [requested_entered hi hpin, h hlate pin hpin hgone i hi]
    simp [hne]

structure FinalInv (numShifts : Nat) (s : DebounceClients υ) : Prop where
  wired : Wired numShifts [] s
  withdrawn : Withdrawn numShifts s

theorem withdrawn_irq (hpos : 0 < numShifts) (inv : FinalInv numShifts s) :
    Withdrawn numShifts
      (debounceIrqHandler numShifts (clientCallback numShifts reenter) levels s) := by
  refine irq_keeps hpos ?_ ?_ inv.wired inv.withdrawn
  · exact fun p _ u _ h => withdrawn_entered h p
  · exact fun call _ u wired h => withdrawn_call wired.cells h call

theorem unarmed_irq (hpos : 0 < numShifts) (wired : Wired numShifts [] s)
    (hunarmed : ∀ pin < 32, s.history.gone pin = true → s.armed pin = false) :
    ∀ pin < 32,
      (history (debounceIrqHandler numShifts (clientCallback numShifts reenter) levels s)).gone pin =
          true →
        armed (debounceIrqHandler numShifts (clientCallback numShifts reenter) levels s) pin =
          false := by
  have hkeeps := @irq_keeps _ numShifts s levels reenter
    (fun u => ∀ pin < 32, u.history.gone pin = true → u.armed pin = false) hpos
  refine hkeeps ?_ ?_ wired ?_
  · exact fun p _ u _ h => h
  · exact fun call _ u _ h => gone_unarmed_call h call
  · intro pin hpin hgone
    rw [armed_disable hpin, hunarmed pin hpin hgone, Bool.false_and]

theorem withdrawn_step (hpos : 0 < numShifts) (inv : FinalInv numShifts s)
    (hstep : s.step numShifts event = some t) : Withdrawn numShifts t := by
  cases event with
  | storeCallback pin callback =>
    cases Option.some.inj hstep
    exact inv.withdrawn
  | arm pin level =>
    obtain ⟨-, rfl⟩ := arm_step hstep
    intro hlate other hother hgone
    refine inv.withdrawn hlate other hother ?_
    change Function.update s.history.gone pin false other = true at hgone
    rw [Function.update_apply] at hgone
    split at hgone
    next => cases hgone
    next => exact hgone
  | unsetEdgeCb pin =>
    cases Option.some.inj hstep
    exact withdrawn_call inv.wired.cells inv.withdrawn (.unsetEdgeCb pin)
  | edgeIrq levels reenter =>
    cases Option.some.inj hstep
    exact withdrawn_irq hpos inv
  | timerTick port =>
    obtain ⟨-, rfl⟩ := tick_step hstep
    intro hlate pin hpin hgone i hi
    rw [history_tick] at hlate hgone
    rw [requested_tick _ inv.wired.cells hi]
    by_cases hbetween : 0 < i ∧ i < numShifts
    · rw [inv.withdrawn hlate pin hpin hgone (i + 1) (by omega), Bool.and_false]
    · simp [hbetween]

theorem finalInv_step (hpos : 0 < numShifts) (inv : FinalInv numShifts s)
    (hstep : s.step numShifts event = some t) : FinalInv numShifts t :=
  ⟨wired_step hpos inv.wired hstep, withdrawn_step hpos inv hstep⟩

theorem finalInv_reset : FinalInv numShifts (reset : DebounceClients υ) := by
  refine ⟨wired_reset, ?_⟩
  intro _ pin _ hgone
  cases hgone

theorem staysUnregistered_irq (hpos : 0 < numShifts) (inv : FinalInv numShifts s)
    (hstays : StaysUnregistered s) :
    StaysUnregistered (debounceIrqHandler numShifts (clientCallback numShifts reenter) levels s) ↔
      ServesRegistered reenter [] (setBits (s.gpio.interruptsFrom levels)) := by
  have hnotGone : ∀ p ∈ setBits (s.gpio.interruptsFrom levels), s.history.gone p = false := by
    intro p hp
    obtain ⟨hlt, harmed, -⟩ := mem_served hp
    rw [← Bool.not_eq_true]
    intro hgone
    rw [hstays.2 p hlt hgone] at harmed
    cases harmed
  have hlate : (history (debounceIrqHandler numShifts (clientCallback numShifts reenter) levels
      s)).late = [] ↔ s.history.late = [] ∧
        ServesRegistered reenter [] (setBits (s.gpio.interruptsFrom levels)) := by
    rw [irq_eq hpos inv.wired]
    exact late_pass _ hnotGone
  constructor
  · exact fun h => (hlate.mp h.1).2
  · exact fun h => ⟨hlate.mpr ⟨hstays.1, h⟩, unarmed_irq hpos inv.wired hstays.2⟩

theorem staysUnregistered_tick {port : BitVec 32} (hpos : 0 < numShifts)
    (inv : FinalInv numShifts s) (hstays : StaysUnregistered s) :
    StaysUnregistered (mapHistory (·.tick numShifts) (debounceTimerCb numShifts port s)) := by
  unfold StaysUnregistered
  rw [history_tick]
  refine ⟨hstays.1, ?_⟩
  intro pin hpin hgone
  have hrequested : s.requested numShifts pin 1 = false :=
    inv.withdrawn hstays.1 pin hpin hgone 1 hpos
  rw [armed_tick, hstays.2 pin hpin hgone, hrequested]
  rfl

theorem staysUnregistered_step (hpos : 0 < numShifts) (inv : FinalInv numShifts s)
    (hstays : StaysUnregistered s) (hstep : s.step numShifts event = some t) :
    StaysUnregistered t ↔ UnregistersSafely s event := by
  cases event with
  | storeCallback pin callback =>
    cases Option.some.inj hstep
    exact iff_of_true hstays trivial
  | arm pin level =>
    obtain ⟨hcallback, rfl⟩ := arm_step hstep
    obtain ⟨callback, -⟩ := Option.ne_none_iff_exists'.mp hcallback
    have hunarmed := @gone_unarmed_call _ numShifts s hstays.2 (.setEdgeCb pin level callback)
    exact iff_of_true ⟨hstays.1, hunarmed⟩ trivial
  | unsetEdgeCb pin =>
    cases Option.some.inj hstep
    refine iff_of_true ⟨?_, gone_unarmed_call hstays.2 _⟩ trivial
    rw [late_call]
    exact hstays.1
  | edgeIrq levels reenter =>
    cases Option.some.inj hstep
    exact staysUnregistered_irq hpos inv hstays
  | timerTick port =>
    obtain ⟨-, rfl⟩ := tick_step hstep
    exact iff_of_true (staysUnregistered_tick hpos inv hstays) trivial

/-- Unregistering is final exactly in the runs where no user callback unregisters a pin that
its pass has yet to serve, without it being registered again before. -/
theorem run_staysUnregistered (hpos : 0 < numShifts)
    {trace : List (DebounceClients υ × DebounceEvent υ)} (run : Run (step numShifts) reset trace s) :
    AllStates StaysUnregistered trace s ↔ AllSteps UnregistersSafely trace := by
  have allowed : AllSteps (fun (_ : DebounceClients υ) (_ : DebounceEvent υ) => True) trace :=
    fun _ _ => trivial
  have invariant : AllStates (FinalInv numShifts) trace s :=
    run.invariant allowed finalInv_reset (fun _ _ _ inv _ hstep => finalInv_step hpos inv hstep)
  have start : StaysUnregistered (reset : DebounceClients υ) :=
    ⟨rfl, fun pin _ hgone => by cases hgone⟩
  exact run.allStates_iff_of_invariant invariant start
    (fun _ _ _ inv hstays hstep => staysUnregistered_step hpos inv hstays hstep)

/-- Pins 0 and 1 are registered and pressed together; the callback of pin 0 unregisters its own
pin, and the requests are served by the ticks. -/
def unsetOwn : List (DebounceEvent Unit) :=
  [.storeCallback 0 (), .arm 0 true, .storeCallback 1 (), .arm 1 true,
    .edgeIrq 0#32 (fun pin => if pin = 0 then [.unsetEdgeCb 0] else []), .timerTick 0#32,
    .timerTick 0#32]

theorem run_staysUnregistered_unsetOwn :
    ∃ trace s, Run (step 2) (reset : DebounceClients Unit) trace s ∧
      trace.map Prod.snd = unsetOwn.reverse ∧ AllStates StaysUnregistered trace s := by
  have hreplay : (replay (guarded UnregistersSafely (step 2)) (reset : DebounceClients Unit)
      unsetOwn).isSome = true := by
    decide +kernel
  obtain ⟨trace, s, run, hok, hlabels⟩ := exists_allowed_run hreplay
  exact ⟨trace, s, run, hlabels, (run_staysUnregistered (by decide) run).mpr hok⟩

/-- The callback of pin 0 unregisters pin 1, which the pass serves next. -/
def unsetNext : List (DebounceEvent Unit) :=
  [.storeCallback 0 (), .arm 0 true, .storeCallback 1 (), .arm 1 true,
    .edgeIrq 0#32 (fun pin => if pin = 0 then [.unsetEdgeCb 1] else []), .timerTick 0#32,
    .timerTick 0#32]

theorem called_and_armed_unsetNext :
    ∃ trace s, Run (step 2) (reset : DebounceClients Unit) trace s ∧
      trace.map Prod.snd = unsetNext.reverse ∧ s.history.late = [1] ∧
      s.history.gone 1 = true ∧ s.armed 1 = true := by
  have hreplay : (replay (step 2) (reset : DebounceClients Unit) unsetNext).any
      (fun s => decide (s.history.late = [1] ∧ s.history.gone 1 = true ∧ s.armed 1 = true)) =
        true := by
    decide +kernel
  obtain ⟨trace, s, run, hlabels, hcalled⟩ := exists_run_of_replay hreplay
  exact ⟨trace, s, run, hlabels, of_decide_eq_true hcalled⟩

end DebounceClients

end MyMouse
