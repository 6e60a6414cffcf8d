import MyMouse.ButtonPath

namespace MyMouse

open BitMask Runs

namespace ButtonPath

variable {numShifts numSources : Nat} {id : Fin MAX_NUM_OF_HID_SOURCES} {s t : ButtonPath}

/-- A pin is armed with the level that its button's callback was last called with: the level
read by the tick that serves its re-enable request, and by its registration. -/
def ArmedAsDelivered (numShifts : Nat) (s : ButtonPath) : PathStep → Prop
  | .register button => s.level.getLsbD button.pin = s.lastDelivered button
  | .timerTick => ∀ button, (s.nextRequests numShifts).getLsbD button.pin = true →
      s.level.getLsbD button.pin = s.lastDelivered button
  | _ => True

instance (numShifts : Nat) (s : ButtonPath) (a : PathStep) :
    Decidable (ArmedAsDelivered numShifts s a) :=
  match a with
  | .register _ => inferInstanceAs (Decidable (_ = _))
  | .timerTick => decidable_of_iff _ forall_button
  | .pinLevel _ _ => inferInstanceAs (Decidable True)
  | .initQueue _ => inferInstanceAs (Decidable True)
  | .registerOther _ => inferInstanceAs (Decidable True)
  | .edgeIrq => inferInstanceAs (Decidable True)
  | .source _ => inferInstanceAs (Decidable True)

namespace View

def lastDelivered (v : View) : Bool := v.levels.headD v.initial

/-- An armed pin waits for the other level, so that each delivery brings a new one. -/
structure Faithful (v : View) : Prop where
  armed : v.armed = true → v.fromLevel = v.lastDelivered
  new : v.levels ≠ [] → ∃ level ∈ v.levels, level ≠ v.initial

variable {v : View}

theorem Faithful.serve (h : v.Faithful) {cell : Nat} (hdisabled : v.armed = false)
    (hnew : v.level ≠ v.lastDelivered) : (v.serve cell).Faithful := by
  refine ⟨?_, ?_⟩
  · intro harmed
    change v.armed = true at harmed
    rw [hdisabled] at harmed
    cases harmed
  · intro _
    cases hlevels : v.levels with
    | nil =>
      refine ⟨v.level, List.mem_cons_self, ?_⟩
      unfold lastDelivered at hnew
      rw [hlevels] at hnew
      exact hnew
    | cons last rest =>
      have hsome : v.levels ≠ [] := by
        rw [hlevels]
        exact List.cons_ne_nil last rest
      obtain ⟨level, hmem, hne⟩ := h.new hsome
      exact ⟨level, List.mem_cons_of_mem v.level hmem, hne⟩

theorem Faithful.tick (h : v.Faithful) {head : Nat}
    (hsame : v.requested head = true → v.level = v.lastDelivered) : (v.tick head).Faithful := by
  refine ⟨?_, h.new⟩
  intro harmed
  change (v.armed || v.requested head) = true at harmed
  change (if v.requested head then v.level else v.fromLevel) = v.lastDelivered
  cases hrequested : v.requested head with
  | true =>
    rw [if_pos rfl]
    exact hsame hrequested
  | false =>
    rw [if_neg Bool.false_ne_true]
    rw [hrequested, Bool.or_false] at harmed
    exact h.armed harmed

theorem Faithful.disable (h : v.Faithful) : v.disable.Faithful :=
  ⟨fun hf => Bool.noConfusion hf, h.new⟩

theorem Faithful.moveTo (h : v.Faithful) {level : Bool} : (v.moveTo level).Faithful :=
  ⟨h.armed, h.new⟩

theorem Faithful.register (h : v.Faithful) (hsame : v.level = v.lastDelivered) :
    v.register.Faithful :=
  ⟨fun _ => hsame, h.new⟩

theorem Ok.initQueue_faithful (h : v.Ok) (hunready : v.ready = false) : v.initQueue.Faithful := by
  have hlevels := h.unready hunready
  refine ⟨?_, fun hsome => absurd hlevels hsome⟩
  intro harmed
  have hready := h.registered (h.armed harmed)
  rw [hunready] at hready
  cases hready

end View

def Faithful (s : ButtonPath) : Prop := ∀ button, (s.view button).Faithful

/-- The handler has disabled the button's pin, whose level is not the one last delivered. -/
def DueNew (s : ButtonPath) (button : Button) : Prop :=
  (s.view button).Registered ∧ s.armed button.pin = false ∧
    s.level.getLsbD button.pin ≠ s.lastDelivered button

theorem faithful_foldl_served (pins : List Nat) (distinct : pins.Nodup) (h : Faithful s)
    (hdue : ∀ button : Button, button.pin ∈ pins → s.DueNew button) :
    Faithful (pins.foldl (served numShifts id) s) := by
  induction pins generalizing s with
  | nil => exact h
  | cons pin pins ih =>
    obtain ⟨hnot, hrest⟩ := List.nodup_cons.mp distinct
    rw [List.foldl_cons]
    refine ih hrest ?_ ?_
    · intro button
      by_cases heq : button.pin = pin
      · obtain ⟨hregistered, hdisabled, hnew⟩ := hdue button (heq ▸ List.mem_cons_self)
        subst heq
        rcases @view_served_same numShifts id s button hregistered with hsame | hserve
        · rw [hsame]
          exact h button
        · rw [hserve]
          exact (h button).serve hdisabled hnew
      · rw [view_served_ne heq]
        exact h button
    · intro button hmem
      have hne : button.pin ≠ pin := fun heq => hnot (heq ▸ hmem)
      obtain ⟨hregistered, hdisabled, hnew⟩ := hdue button (List.mem_cons_of_mem pin hmem)
      have hview := @view_served_ne numShifts id s pin button hne
      refine ⟨?_, (congrArg View.armed hview).trans hdisabled, ?_⟩
      · rw [hview]
        exact hregistered
      · change ((s.served numShifts id pin).view button).level ≠
          ((s.served numShifts id pin).view button).lastDelivered
        rw [hview]
        exact hnew

theorem faithful_edgeIrq (h : Inv id s) (faithful : Faithful s) :
    Faithful { s with system := debounceIrqHandler numShifts (userCall id) s.level s.system } := by
  rw [edgeIrq_eq]
  refine faithful_foldl_served _ (setBits_nodup _) ?_ ?_
  · intro button
    rw [view_disabled]
    split
    next => exact (faithful button).disable
    next => exact faithful button
  · intro button hmem
    rw [mem_setBits, interruptsFrom_bit, Bool.and_eq_true, bne_iff_ne] at hmem
    obtain ⟨hmoved, harmed⟩ := hmem
    refine ⟨(h.views button).armed harmed, ?_, ?_⟩
    · change (s.system.gpio.disable _).gpioIntEnabled.getLsbD button.pin = false
      rw [disable_enabled (pin_lt button), interruptsFrom_bit, harmed, Bool.true_and, Bool.and_true,
        Bool.not_eq_false', bne_iff_ne]
      exact hmoved
    · have hfrom : s.fromLevel button.pin = s.lastDelivered button := (faithful button).armed harmed
      change s.level.getLsbD button.pin ≠ s.lastDelivered button
      rw [← hfrom]
      exact hmoved

theorem faithful_step {a : PathStep} (h : Inv id s) (faithful : Faithful s)
    (armed : ArmedAsDelivered numShifts s a) (hstep : step numShifts numSources id s a = some t) :
    Faithful t := by
  intro button
  cases a with
  | pinLevel pin level =>
    simp only [step] at hstep
    split at hstep
    next =>
      cases Option.some.inj hstep
      exact faithful button
    next =>
      cases Option.some.inj hstep
      rw [view_pinLevel]
      split
      next => exact (faithful button).moveTo
      next => exact faithful button
  | initQueue other =>
    simp only [step] at hstep
    split at hstep
    next => cases hstep
    next hready =>
      cases Option.some.inj hstep
      rw [view_initQueue]
      split
      next heq =>
        subst heq
        exact (h.views button).initQueue_faithful (Bool.not_eq_true _ ▸ hready)
      next => exact faithful button
  | register other =>
    simp only [step] at hstep
    split at hstep
    next =>
      cases Option.some.inj hstep
      rw [view_setEdgeCb (pin_lt other)]
      by_cases heq : button.pin = other.pin
      · cases Button.pin_injective heq
        rw [if_pos rfl]
        exact (faithful _).register armed
      · rw [if_neg heq]
        exact faithful button
    next => cases hstep
  | registerOther pin =>
    simp only [step] at hstep
    split at hstep
    next hguard =>
      cases Option.some.inj hstep
      rw [view_setEdgeCb hguard.1, if_neg]
      · exact faithful button
      · rintro rfl
        exact hguard.2 (mem_buttonPins.mpr ⟨button, rfl⟩)
    next => cases hstep
  | edgeIrq =>
    cases Option.some.inj hstep
    exact faithful_edgeIrq h faithful button
  | timerTick =>
    simp only [step] at hstep
    split at hstep
    next =>
      cases Option.some.inj hstep
      rw [view_tick]
      exact (faithful button).tick (armed button)
    next => cases hstep
  | source a =>
    obtain ⟨source, hsource, rfl, hother, _⟩ := step_source hstep
    have hlevels := ButtonsCollector.step_keeps_levels hother hsource
    have hview : (s.mapUsers ({ · with source := source })).view button = s.view button := by
      ext1
      case levels => exact congrFun hlevels button
      all_goals rfl
    rw [hview]
    exact faithful button

/-- With no edge pending on a button's pin and nothing left to collect, the report tells
whether the button is held down. -/
def Settled (id : Fin MAX_NUM_OF_HID_SOURCES) (s : ButtonPath) : Prop :=
  ∀ button, s.armed button.pin = true → s.level.getLsbD button.pin = s.fromLevel button.pin →
    ¬ s.source.collector.InFiller id → ¬ s.source.collector.Noticed id →
    s.source.levels button ≠ [] →
    button.bit s.source.collector.report = !s.level.getLsbD button.pin

theorem Inv.settled (h : Inv id s) (faithful : Faithful s) : s.Settled id := by
  intro button harmed hlevel hout hnot hsome
  have hnew := (faithful button).new hsome
  have hfrom : s.fromLevel button.pin = s.lastDelivered button := (faithful button).armed harmed
  rw [h.source.settled hout hnot hnew, hlevel, hfrom]
  rfl

/-- No press or release is missed in a run that arms every pin with the level last delivered. -/
theorem settled_run {level : BitVec 32} {trace : List (ButtonPath × PathStep)}
    (run : Run (step numShifts numSources id) (reset level) trace s)
    (room : AllSteps Room trace) (armed : AllSteps (ArmedAsDelivered numShifts) trace) :
    AllStates (Settled id) trace s := by
  have allowed : AllSteps (fun s a => Room s a ∧ ArmedAsDelivered numShifts s a) trace :=
    fun p hp => ⟨room p hp, armed p hp⟩
  have start : Inv id (reset level) ∧ Faithful (reset level) := by
    refine ⟨inv_reset id level, ?_⟩
    intro button
    refine ⟨?_, fun hsome => absurd rfl hsome⟩
    intro harmed
    have hregistered := ((inv_reset id level).views button).armed harmed
    cases hregistered
  have invariant : AllStates (fun s => Inv id s ∧ Faithful s) trace s :=
    run.invariant allowed start (fun s a t hs hok hstep =>
      ⟨inv_step hs.1 hok.1 hstep, faithful_step hs.1 hs.2 hok.2 hstep⟩)
  exact invariant.imp (fun s hs => hs.1.settled hs.2)

theorem settled_run_bouncedPress :
    ∃ (trace : List (ButtonPath × PathStep)) (s : ButtonPath),
      Run (step 2 4 ButtonsCollector.secondSource) (reset (BitVec.allOnes 32)) trace s ∧
      trace.map Prod.snd = bouncedPress.reverse ∧
      AllStates (Settled ButtonsCollector.secondSource) trace s := by
  have replayed : (replay (guarded (fun s a => Room s a ∧ ArmedAsDelivered 2 s a)
      (step 2 4 ButtonsCollector.secondSource)) (reset (BitVec.allOnes 32)) bouncedPress).isSome =
        true := by
    decide +kernel
  obtain ⟨trace, s, run, allowed, labels⟩ := exists_allowed_run replayed
  have room : AllSteps Room trace := fun p hp => (allowed p hp).1
  have armed : AllSteps (ArmedAsDelivered 2) trace := fun p hp => (allowed p hp).2
  exact ⟨trace, s, run, labels, settled_run run room armed⟩

end ButtonPath

end MyMouse
