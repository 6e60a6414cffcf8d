import MyMouse.DebounceClients

namespace MyMouse

open BitMask Runs

variable {υ : Type}

namespace DebounceClients

/-- A user callback for `pin` would not come too early. -/
def Rested (numShifts : Nat) (s : DebounceClients υ) (pin : Nat) : Prop :=
  s.history.tooEarly numShifts pin = false

instance (numShifts : Nat) (s : DebounceClients υ) (pin : Nat) :
    Decidable (Rested numShifts s pin) :=
  inferInstanceAs (Decidable (_ = false))

/-- No user callback has come too early, and none can with the next interrupt. -/
def NeverEarly (numShifts : Nat) (s : DebounceClients υ) : Prop :=
  s.history.early = [] ∧ ∀ levels reenter,
    (history (debounceIrqHandler numShifts (clientCallback numShifts reenter) levels s)).early = []

/-- No user callback has come too early, and every armed pin has rested. -/
def Spaced (numShifts : Nat) (s : DebounceClients υ) : Prop :=
  s.history.early = [] ∧ ∀ pin < 32, s.armed pin = true → Rested numShifts s pin

/-- What a client registers has rested, and is not registered from the pass that serves it. -/
def ArmsRested (numShifts : Nat) (s : DebounceClients υ) : DebounceEvent υ → Prop
  | .arm pin _ => pin < 32 → Rested numShifts s pin
  | .edgeIrq levels reenter =>
    ∀ pin < 32,
      lastTouch pin ((setBits (s.gpio.interruptsFrom levels)).flatMap reenter) = some true →
        pin ∉ setBits (s.gpio.interruptsFrom levels) ∧ Rested numShifts s pin
  | _ => True

instance (numShifts : Nat) (s : DebounceClients υ) : ∀ event, Decidable (ArmsRested numShifts s event)
  | .edgeIrq _ _ => inferInstanceAs (Decidable (∀ pin < 32, _))
  | .storeCallback _ _ => instDecidableTrue
  | .arm pin _ => inferInstanceAs (Decidable (pin < 32 → _))
  | .unsetEdgeCb _ => instDecidableTrue
  | .timerTick _ => instDecidableTrue

/-- As long as no callback came early, the cell of a request is one for each tick that is left. -/
def Placed (numShifts : Nat) (s : DebounceClients υ) : Prop :=
  s.history.early = [] → ∀ pin < 32, ∀ i ≤ numShifts, s.requested numShifts pin i = true →
    s.history.since pin = some (numShifts - i)

variable {numShifts : Nat} {s t : DebounceClients υ} {pin : Nat} {due pins : List Nat}
  {event : DebounceEvent υ} {levels : BitVec 32} {reenter : Nat → List (DebounceCall υ)}

theorem since_call (call : DebounceCall υ) :
    (call.run numShifts s).history.since = s.history.since := by
  cases call with
  | setEdgeCb pin level callback => rfl
  | unsetEdgeCb pin => rfl

theorem early_call (call : DebounceCall υ) :
    (call.run numShifts s).history.early = s.history.early := by
  cases call with
  | setEdgeCb pin level callback => rfl
  | unsetEdgeCb pin => rfl

theorem since_calls (calls : List (DebounceCall υ)) :
    (calls.foldl (DebounceCall.run numShifts) s).history.since = s.history.since := by
  induction calls generalizing s with
  | nil => rfl
  | cons call calls ih => rw [List.foldl_cons, ih, since_call]

theorem early_calls (calls : List (DebounceCall υ)) :
    (calls.foldl (DebounceCall.run numShifts) s).history.early = s.history.early := by
  induction calls generalizing s with
  | nil => rfl
  | cons call calls ih => rw [List.foldl_cons, ih, early_call]

theorem since_serve : (serve numShifts reenter s pin).history.since =
    Function.update s.history.since pin (some 0) := by
  unfold serve
  rw [since_calls]
  rfl

theorem early_serve : (serve numShifts reenter s pin).history.early =
    if s.history.tooEarly numShifts pin then pin :: s.history.early else s.history.early := by
  unfold serve
  rw [early_calls]
  rfl

theorem since_pass : (pins.foldl (serve numShifts reenter) s).history.since pin =
    if pin ∈ pins then some 0 else s.history.since pin := by
  induction pins generalizing s with
  | nil => simp
  | cons p pins ih =>
    rw [List.foldl_cons, ih, since_serve, Function.update_apply]
    by_cases hmem : pin ∈ pins
    · simp [hmem]
    · simp [hmem]

/-- A pass that serves each pin once calls back early exactly the pins that have not rested. -/
theorem early_pass (nodup : pins.Nodup) :
    (pins.foldl (serve numShifts reenter) s).history.early = [] ↔
      s.history.early = [] ∧ ∀ p ∈ pins, Rested numShifts s p := by
  induction pins generalizing s with
  | nil => simp
  | cons p pins ih =>
    obtain ⟨hnotMem, hnodup⟩ := List.nodup_cons.mp nodup
    have hserve : (serve numShifts reenter s p).history.early = [] ↔
        s.history.early = [] ∧ Rested numShifts s p := by
      unfold Rested
      rw [early_serve]
      cases s.history.tooEarly numShifts p with
      | true => simp
      | false => simp
    have hothers : ∀ q ∈ pins,
        (Rested numShifts (serve numShifts reenter s p) q ↔ Rested numShifts s q) := by
      intro q hq
      have hne : q ≠ p := fun heq => hnotMem (heq ▸ hq)
      unfold Rested DebounceHistory.tooEarly
      rw [since_serve, Function.update_of_ne hne]
    rw [List.foldl_cons, ih hnodup, hserve, List.forall_mem_cons, and_assoc]
    exact and_congr_right fun _ => and_congr_right fun _ => forall₂_congr hothers

theorem placed_call (ok : s.debounce.CellsOk numShifts) (h : Placed numShifts s)
    (call : DebounceCall υ) : Placed numShifts (call.run numShifts s) := by
  intro hearly pin hpin i hi hrequested
  rw [early_call] at hearly
  rw [since_call]
  refine h hearly pin hpin i hi ?_
  cases call with
  | setEdgeCb other level callback => exact hrequested
  | unsetEdgeCb other =>
    rw [requested_unset ok hi hpin, Bool.and_eq_true] at hrequested
    exact hrequested.1

/-- A pin whose callback is not early has no request left. -/
theorem placed_entered (ok : s.debounce.CellsOk numShifts) (h : Placed numShifts s) (p : Nat) :
    Placed numShifts (s.entered numShifts p) := by
  intro hearly pin hpin i hi hrequested
  change (if s.history.tooEarly numShifts p = true then p :: s.history.early
    else s.history.early) = [] at hearly
  split at hearly
  next => cases hearly
  next hrested =>
    change Function.update s.history.since p (some 0) pin = _
    rw [requested_entered hi hpin, Bool.or_eq_true, decide_eq_true_eq] at hrequested
    by_cases heq : pin = p
    · subst heq
      rw [Function.update_self]
      rcases hrequested with hbefore | ⟨-, hlast⟩
      · have hsince := h hearly pin hpin i hi hbefore
        have hzero : i = 0 := by
          have hlate : ¬ numShifts - i < numShifts := by
            simpa [DebounceHistory.tooEarly, hsince] using hrested
          omega
        unfold requested at hbefore
        rw [ok.empty i hi (.inl hzero)] at hbefore
        simp at hbefore
      · rw [hlast, Nat.sub_self]
    · rw [Function.update_of_ne heq]
      exact h hearly pin hpin i hi (hrequested.resolve_right (fun hlast => heq hlast.1))

structure SpacedInv (numShifts : Nat) (s : DebounceClients υ) : Prop where
  wired : Wired numShifts [] s
  placed : Placed numShifts s

theorem placed_irq (hpos : 0 < numShifts) (inv : SpacedInv numShifts s) :
    Placed numShifts
      (debounceIrqHandler numShifts (clientCallback numShifts reenter) levels s) := by
  refine irq_keeps hpos ?_ ?_ inv.wired inv.placed
  · exact fun p _ u wired h => placed_entered wired.cells h p
  · exact fun call _ u wired h => placed_call wired.cells h call

theorem placed_tick {port : BitVec 32} (inv : SpacedInv numShifts s) :
    Placed numShifts (mapHistory (·.tick numShifts) (debounceTimerCb numShifts port s)) := by
  intro hearly pin hpin i hi hrequested
  rw [history_tick] at hearly ⊢
  rw [requested_tick _ inv.wired.cells hi, Bool.and_eq_true, decide_eq_true_eq] at hrequested
  obtain ⟨hbetween, hbefore⟩ := hrequested
  have hsince := inv.placed hearly pin hpin (i + 1) (by omega) hbefore
  change (s.history.since pin).map (· + 1) = _
  rw [hsince, Option.map_some]
  congr 1
  omega

theorem spacedInv_step (hpos : 0 < numShifts) (inv : SpacedInv numShifts s)
    (hstep : s.step numShifts event = some t) : SpacedInv numShifts t := by
  refine ⟨wired_step hpos inv.wired hstep, ?_⟩
  cases event with
  | storeCallback pin callback =>
    cases Option.some.inj hstep
    exact inv.placed
  | arm pin level =>
    obtain ⟨-, rfl⟩ := arm_step hstep
    exact inv.placed
  | unsetEdgeCb pin =>
    cases Option.some.inj hstep
    exact placed_call inv.wired.cells inv.placed (.unsetEdgeCb pin)
  | edgeIrq levels reenter =>
    cases Option.some.inj hstep
    exact placed_irq hpos inv
  | timerTick port =>
    obtain ⟨-, rfl⟩ := tick_step hstep
    exact placed_tick inv

theorem spacedInv_reset : SpacedInv numShifts (reset : DebounceClients υ) := by
  refine ⟨wired_reset, ?_⟩
  intro _ pin _ i _ hrequested
  have hnone : requested numShifts (reset : DebounceClients υ) pin i = false := BitVec.getLsbD_zero
  rw [hnone] at hrequested
  cases hrequested

theorem early_irq (hpos : 0 < numShifts) (wired : Wired numShifts [] s) :
    (history (debounceIrqHandler numShifts (clientCallback numShifts reenter) levels s)).early = [] ↔
      s.history.early = [] ∧
        ∀ p ∈ setBits (s.gpio.interruptsFrom levels), Rested numShifts s p := by
  rw [irq_eq hpos wired]
  exact early_pass (setBits_nodup _)

theorem neverEarly_iff (hpos : 0 < numShifts) (wired : Wired numShifts [] s) :
    NeverEarly numShifts s ↔ Spaced numShifts s := by
  constructor
  · intro h
    -- at these levels every armed pin is served
    obtain ⟨hearly, hserved⟩ :=
      (early_irq hpos wired).mp (h.2 (~~~s.gpio.gpioIntFromLevel) (fun _ => []))
    refine ⟨hearly, ?_⟩
    intro pin hpin harmed
    refine hserved pin (mem_setBits.mpr ?_)
    have henabled : s.gpio.gpioIntEnabled.getLsbD pin = true := harmed
    rw [interruptsFrom_bit, BitVec.getLsbD_not, henabled]
    simp [hpin]
  · intro h
    refine ⟨h.1, fun levels reenter => (early_irq hpos wired).mpr ⟨h.1, ?_⟩⟩
    exact fun p hp => h.2 p (mem_served hp).1 (mem_served hp).2.1

theorem spaced_irq (hpos : 0 < numShifts) (wired : Wired numShifts [] s)
    (hspaced : Spaced numShifts s) :
    Spaced numShifts
        (debounceIrqHandler numShifts (clientCallback numShifts reenter) levels s) ↔
      ArmsRested numShifts s (.edgeIrq levels reenter) := by
  have hearly := ((neverEarly_iff hpos wired).mpr hspaced).2 levels reenter
  have hrested : ∀ pin, Rested numShifts
      (debounceIrqHandler numShifts (clientCallback numShifts reenter) levels s) pin ↔
      pin ∉ setBits (s.gpio.interruptsFrom levels) ∧ Rested numShifts s pin := by
    intro pin
    unfold Rested DebounceHistory.tooEarly
    rw [irq_eq hpos wired, since_pass]
    by_cases hmem : pin ∈ setBits (s.gpio.interruptsFrom levels)
    · simp [hmem, hpos]
    · simp only [hmem, ↓reduceIte, not_false_eq_true, true_and]
      rfl
  have harmed : ∀ pin < 32, armed
      (debounceIrqHandler numShifts (clientCallback numShifts reenter) levels s) pin =
      (lastTouch pin ((setBits (s.gpio.interruptsFrom levels)).flatMap reenter)).getD
        (s.armed pin && !(s.gpio.interruptsFrom levels).getLsbD pin) := by
    intro pin hpin
    rw [irq_eq hpos wired, armed_pass hpin, armed_disable hpin]
  constructor
  · intro h pin hpin hlast
    refine (hrested pin).mp (h.2 pin hpin ?_)
    rw [harmed pin hpin, hlast]
    rfl
  · intro harms
    refine ⟨hearly, ?_⟩
    intro pin hpin hnow
    rw [harmed pin hpin] at hnow
    rw [hrested]
    cases hlast : lastTouch pin ((setBits (s.gpio.interruptsFrom levels)).flatMap reenter) with
    | none =>
      rw [hlast, Option.getD_none, Bool.and_eq_true, Bool.not_eq_true'] at hnow
      refine ⟨?_, hspaced.2 pin hpin hnow.1⟩
      rw [mem_setBits, hnow.2]
      exact Bool.false_ne_true
    | some registered =>
      rw [hlast, Option.getD_some] at hnow
      rw [hnow] at hlast
      exact harms pin hpin hlast

theorem spaced_tick {port : BitVec 32} (hpos : 0 < numShifts) (inv : SpacedInv numShifts s)
    (hspaced : Spaced numShifts s) :
    Spaced numShifts (mapHistory (·.tick numShifts) (debounceTimerCb numShifts port s)) := by
  unfold Spaced Rested
  rw [history_tick]
  refine ⟨hspaced.1, ?_⟩
  intro pin hpin harmed
  rw [armed_tick, Bool.or_eq_true] at harmed
  change ((s.history.since pin).map (· + 1)).any (· < numShifts) = false
  rcases harmed with hbefore | hnow
  · have hrested : (s.history.since pin).any (· < numShifts) = false :=
      hspaced.2 pin hpin hbefore
    cases hsince : s.history.since pin with
    | none => rfl
    | some ticks =>
      rw [hsince] at hrested
      simp only [Option.any_some, decide_eq_false_iff_not, Option.map_some] at hrested ⊢
      omega
  · have hsince := inv.placed hspaced.1 pin hpin 1 hpos hnow
    rw [hsince]
    simp only [Option.map_some, Option.any_some, decide_eq_false_iff_not]
    omega

theorem spaced_step (hpos : 0 < numShifts) (inv : SpacedInv numShifts s)
    (hspaced : Spaced numShifts s) (hstep : s.step numShifts event = some t) :
    Spaced numShifts t ↔ ArmsRested numShifts s event := by
  cases event with
  | storeCallback pin callback =>
    cases Option.some.inj hstep
    exact iff_of_true hspaced trivial
  | arm pin level =>
    obtain ⟨-, rfl⟩ := arm_step hstep
    constructor
    · intro h hpin
      refine h.2 pin hpin ?_
      rw [armed_arm hpin]
      simp
    · intro harms
      refine ⟨hspaced.1, ?_⟩
      intro other hother hnow
      rw [armed_arm hother, Bool.or_eq_true, decide_eq_true_eq] at hnow
      rcases hnow with hbefore | heq
      · exact hspaced.2 other hother hbefore
      · subst heq
        exact harms hother
  | unsetEdgeCb pin =>
    cases Option.some.inj hstep
    refine iff_of_true ⟨hspaced.1, ?_⟩ trivial
    intro other hother harmed
    rw [armed_unset hother, Bool.and_eq_true] at harmed
    exact hspaced.2 other hother harmed.1
  | edgeIrq levels reenter =>
    cases Option.some.inj hstep
    exact spaced_irq hpos inv.wired hspaced
  | timerTick port =>
    obtain ⟨-, rfl⟩ := tick_step hstep
    exact iff_of_true (spaced_tick hpos inv hspaced) trivial

/-- Callbacks are spaced exactly in the runs whose clients register rested pins only. -/
theorem run_neverEarly (hpos : 0 < numShifts)
    {trace : List (DebounceClients υ × DebounceEvent υ)} (run : Run (step numShifts) reset trace s) :
    AllStates (NeverEarly numShifts) trace s ↔ AllSteps (ArmsRested numShifts) trace := by
  have allowed : AllSteps (fun (_ : DebounceClients υ) (_ : DebounceEvent υ) => True) trace :=
    fun _ _ => trivial
  have invariant : AllStates (SpacedInv numShifts) trace s :=
    run.invariant allowed spacedInv_reset (fun _ _ _ inv _ hstep => spacedInv_step hpos inv hstep)
  have hreset : Spaced numShifts (reset : DebounceClients υ) :=
    ⟨rfl, fun pin _ harmed => by
      have hoff : armed (reset : DebounceClients υ) pin = false := BitVec.getLsbD_zero
      rw [hoff] at harmed
      cases harmed⟩
  refine run.allStates_iff_of_invariant invariant ((neverEarly_iff hpos wired_reset).mpr hreset) ?_
  intro u event v inv hnever hstep
  have hspaced := (neverEarly_iff hpos inv.wired).mp hnever
  rw [neverEarly_iff hpos (wired_step hpos inv.wired hstep)]
  exact spaced_step hpos inv hspaced hstep

/-- Pin 3 is pressed, armed again by the second tick and released. -/
def pressAndRelease : List (DebounceEvent Unit) :=
  [.storeCallback 3 (), .arm 3 true, .edgeIrq 0#32 (fun _ => []), .timerTick 0#32,
    .timerTick 0#32, .edgeIrq 8#32 (fun _ => [])]

theorem run_neverEarly_pressAndRelease :
    ∃ trace s, Run (step 2) (reset : DebounceClients Unit) trace s ∧
      trace.map Prod.snd = pressAndRelease.reverse ∧ AllStates (NeverEarly 2) trace s := by
  have hreplay : (replay (guarded (ArmsRested 2) (step 2)) (reset : DebounceClients Unit)
      pressAndRelease).isSome = true := by
    decide +kernel
  obtain ⟨trace, s, run, hok, hlabels⟩ := exists_allowed_run hreplay
  exact ⟨trace, s, run, hlabels, (run_neverEarly (by decide) run).mpr hok⟩

/-- The callback registers its own pin again, as `button_mode_gpio_callback` does, and the
contact bounces before the timer has ticked. -/
def rearmOwn : List (DebounceEvent Unit) :=
  [.storeCallback 3 (), .arm 3 true, .edgeIrq 0#32 (fun pin => [.setEdgeCb pin false ()]),
    .edgeIrq 8#32 (fun pin => [.setEdgeCb pin true ()])]

theorem early_rearmOwn :
    ∃ trace s, Run (step 2) (reset : DebounceClients Unit) trace s ∧
      trace.map Prod.snd = rearmOwn.reverse ∧ s.history.early = [3] := by
  have hreplay : (replay (step 2) (reset : DebounceClients Unit) rearmOwn).any
      (fun s => decide (s.history.early = [3])) = true := by
    decide +kernel
  obtain ⟨trace, s, run, hlabels, hearly⟩ := exists_run_of_replay hreplay
  exact ⟨trace, s, run, hlabels, of_decide_eq_true hearly⟩

end DebounceClients

end MyMouse
