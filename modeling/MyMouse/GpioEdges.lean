import MyMouse.Run
import MyMouse.GpioPort

namespace MyMouse

open BitMask Runs

namespace GpioPort

variable {κ : Type} {s t : GpioPort κ}

theorem sensed_eq (s : GpioPort κ) (pin : Nat) :
    s.sensed pin = (s.gpio.sense pin).detects (s.level.getLsbD pin) := rfl

theorem detect_eq_false : s.detect = false ↔ ∀ pin < 32, s.sensed pin = false := by
  simp only [detect, List.any_eq_false, List.mem_range, Bool.not_eq_true]

theorem setter_loop {fromLevel : BitVec 32} {callback : κ} (n : Nat) {pinmask : BitVec 32}
    (hlen : (setBits pinmask).length = n) (hs : s.setter = some ⟨pinmask, fromLevel, callback⟩) :
    ∃ t, replay step s (List.replicate n .setterPin) = some t ∧
      t.setter = some ⟨0#32, fromLevel, callback⟩ ∧ t.handler = s.handler ∧ t.level = s.level ∧
      t.gpio = (setBits pinmask).foldl (Gpio.setEdgeCbPin fromLevel callback) s.gpio := by
  induction n generalizing s pinmask with
  | zero =>
    have hnil := List.length_eq_zero_iff.mp hlen
    have hz := setBits_eq_nil.mp hnil
    exact ⟨s, rfl, by rw [hs, hz], rfl, rfl, by rw [hnil]; rfl⟩
  | succ n ih =>
    have hne : pinmask ≠ 0#32 := by
      rintro rfl
      simp at hlen
    have hlen' := setBits_rest_length hne
    obtain ⟨t, ht, hsetter, hhandler, hlevel, hgpio⟩ := ih (s := latch s { s with
        gpio := s.gpio.setEdgeCbPin fromLevel callback (getNextBitPos pinmask).1
        setter := some ⟨(getNextBitPos pinmask).2, fromLevel, callback⟩ }) (by omega) rfl
    refine ⟨t, ?_, hsetter, hhandler, hlevel, ?_⟩
    · simp only [List.replicate_succ, replay, step, hs, if_neg hne, Option.bind_some]
      exact ht
    · rw [hgpio, setBits_cons hne, List.foldl_cons]
      rfl

/-- A setter during which nothing else happens computes `gpio_set_edge_cb_mask`. -/
theorem setter_uninterrupted {pinmask fromLevel : BitVec 32} {callback : κ}
    (hs : s.setter = none) :
    ∃ t, replay step s (.setEdgeCbMask pinmask fromLevel callback ::
        (List.replicate (setBits pinmask).length .setterPin ++ [.setterReturn])) = some t ∧
      t.setter = none ∧ t.handler = s.handler ∧ t.level = s.level ∧
      t.gpio = gpioSetEdgeCbMask pinmask fromLevel callback s.gpio := by
  obtain ⟨u, hu, hsetter, hhandler, hlevel, hgpio⟩ := setter_loop
    (s := { s with
      gpio := s.gpio.setEdgeCbEnter pinmask fromLevel
      setter := some ⟨pinmask, fromLevel, callback⟩ }) (setBits pinmask).length rfl rfl
  refine ⟨{ u with setter := none }, ?_, rfl, hhandler, hlevel, ?_⟩
  · simp only [replay, step, hs, Option.bind_some]
    rw [replay_append, hu]
    simp [replay, step, hsetter]
  · rw [gpioSetEdgeCbMask, whileBits_eq_foldl]
    exact hgpio

/-- Between steps the SENSE fields follow the driver's masks, but for the pins a running
setter or handler pass has yet to come to; and while the PORT event is clear DETECT is
low, unless the running handler pass is still going to look at the pins that hold it. -/
structure Inv (s : GpioPort κ) : Prop where
  setter_armed : ∀ f, s.setter = some f → ∀ pin, f.pinmask.getLsbD pin = true →
    s.gpio.gpioIntEnabled.getLsbD pin = true ∧
      s.gpio.gpioIntFromLevel.getLsbD pin = f.fromLevel.getLsbD pin
  sense_follows : ∀ pin < 32, s.unset.getLsbD pin = false →
    s.interruptsFrom.getLsbD pin = false → s.gpio.sense pin =
      if s.gpio.gpioIntEnabled.getLsbD pin then senseFrom (s.gpio.gpioIntFromLevel.getLsbD pin)
      else .noSense
  settled : s.portEvent = true ∨ s.handler = .cleared ∨ s.interruptsFrom ≠ 0#32 ∨
    s.detect = false

theorem inv_reset (level : BitVec 32) : Inv (reset level : GpioPort κ) := by
  refine ⟨by intro f hf; simp [reset] at hf, ?_, ?_⟩
  · intro pin _ _ _
    simp [reset, Gpio.reset]
  · right; right; right
    rw [detect_eq_false]
    intro pin _
    rfl

/-- A rise of DETECT leaves the PORT event set, so an edge is settled as it happens. -/
theorem latch_settled (before after : GpioPort κ) (hevent : after.portEvent = before.portEvent)
    (hhandler : after.handler = before.handler)
    (h : before.portEvent = true ∨ before.handler = .cleared ∨ before.interruptsFrom ≠ 0#32 ∨
      before.detect = false) :
    (latch before after).portEvent = true ∨ (latch before after).handler = .cleared ∨
      (latch before after).interruptsFrom ≠ 0#32 ∨ (latch before after).detect = false := by
  have hfrom : (latch before after).interruptsFrom = before.interruptsFrom := by
    simp only [interruptsFrom, latch, hhandler]
  have hdetect : (latch before after).detect = after.detect := rfl
  rcases h with event | cleared | serving | low
  · exact Or.inl (by simp [latch, hevent, event])
  · exact Or.inr (Or.inl (by simp [latch, hhandler, cleared]))
  · exact Or.inr (Or.inr (Or.inl (by rwa [hfrom])))
  · cases hafter : after.detect with
    | false => exact Or.inr (Or.inr (Or.inr (by rw [hdetect, hafter])))
    | true => exact Or.inl (by simp [latch, low, hafter])

theorem inv_pinLevel {pin : Nat} {level : Bool} (h : Inv s)
    (hstep : step s (.pinLevel pin level) = some t) : Inv t := by
  cases Option.some.inj hstep
  exact ⟨h.setter_armed, h.sense_follows, latch_settled s _ rfl rfl h.settled⟩

theorem inv_setEdgeCbMask {pinmask fromLevel : BitVec 32} {callback : κ} (h : Inv s)
    (hstep : step s (.setEdgeCbMask pinmask fromLevel callback) = some t) : Inv t := by
  simp only [step] at hstep
  split at hstep
  next => simp at hstep
  next hsetter =>
    cases Option.some.inj hstep
    have hunset : s.unset = 0#32 := by simp [unset, hsetter]
    refine ⟨?_, ?_, h.settled⟩
    · intro f hf pin hpin
      cases Option.some.inj hf
      have hlt := BitVec.lt_of_getLsbD hpin
      simp only [setEdgeCbEnter_enabled, setEdgeCbEnter_fromLevel hlt, hpin, Bool.or_true, if_true,
        and_self]
    · intro pin hlt hpin hserved
      have hout : pinmask.getLsbD pin = false := hpin
      have hold := h.sense_follows pin hlt (by simp [hunset]) hserved
      simp only [setEdgeCbEnter_enabled, setEdgeCbEnter_fromLevel hlt, hout, Bool.or_false]
      exact hold

theorem inv_setterPin (h : Inv s) (hstep : step s .setterPin = some t) : Inv t := by
  simp only [step] at hstep
  split at hstep
  next pinmask fromLevel callback hsetter =>
    split at hstep
    next => simp at hstep
    next hne =>
      cases Option.some.inj hstep
      have hunset : s.unset = pinmask := by simp [unset, hsetter]
      have hpos := getNextBitPos_set hne
      have harmed := h.setter_armed _ hsetter
      refine ⟨?_, ?_, latch_settled s _ rfl rfl h.settled⟩
      · intro f hf pin hpin
        cases Option.some.inj hf
        have hlt := BitVec.lt_of_getLsbD hpin
        have hrest := getNextBitPos_rest pinmask hlt
        have hmem : pinmask.getLsbD pin = true := by
          change (getNextBitPos pinmask).2.getLsbD pin = true at hpin
          rw [hpin] at hrest
          split at hrest
          next => simp at hrest
          next => exact hrest.symm
        exact harmed pin hmem
      · intro pin hlt hpin hserved
        have hrest := getNextBitPos_rest pinmask hlt
        have hout : (getNextBitPos pinmask).2.getLsbD pin = false := hpin
        change (s.gpio.setEdgeCbPin fromLevel callback (getNextBitPos pinmask).1).sense pin = _
        rw [setEdgeCbPin_sense]
        by_cases heq : pin = (getNextBitPos pinmask).1
        · obtain ⟨henabled, hfrom⟩ := harmed pin (by rw [heq]; exact hpos)
          change _ = if s.gpio.gpioIntEnabled.getLsbD pin = true then
            senseFrom (s.gpio.gpioIntFromLevel.getLsbD pin) else .noSense
          rw [if_pos heq, henabled, if_pos rfl, hfrom, heq]
        · rw [if_neg heq]
          rw [if_neg heq] at hrest
          exact h.sense_follows pin hlt (by rw [hunset, ← hrest, hout]) hserved
  next => simp at hstep

theorem inv_setterReturn (h : Inv s) (hstep : step s .setterReturn = some t) : Inv t := by
  simp only [step] at hstep
  split at hstep
  next f hsetter =>
    split at hstep
    next hz =>
      cases Option.some.inj hstep
      have hunset : s.unset = 0#32 := by simp [unset, hsetter, hz]
      refine ⟨by intro f hf; simp at hf, ?_, h.settled⟩
      intro pin hlt _ hserved
      exact h.sense_follows pin hlt (by simp [hunset]) hserved
    next => simp at hstep
  next => simp at hstep

theorem inv_irqClear (h : Inv s) (hstep : step s .irqClear = some t) : Inv t := by
  simp only [step] at hstep
  split at hstep
  next hsetter hhandler =>
    split at hstep
    next =>
      cases Option.some.inj hstep
      refine ⟨h.setter_armed, ?_, Or.inr (Or.inl rfl)⟩
      intro pin hlt hpin _
      exact h.sense_follows pin hlt hpin (by simp [interruptsFrom, hhandler])
    next => simp at hstep
  next => simp at hstep

/-- After the port read, an enabled pin that holds DETECT high is going to be served. -/
theorem inv_irqRead (h : Inv s) (hstep : step s .irqRead = some t) : Inv t := by
  simp only [step] at hstep
  split at hstep
  next hsetter hhandler =>
    cases Option.some.inj hstep
    have hserving : s.interruptsFrom = 0#32 := by simp [interruptsFrom, hhandler]
    have hunset : s.unset = 0#32 := by simp [unset, hsetter]
    have hsense : ∀ pin < 32, s.gpio.sense pin =
        if s.gpio.gpioIntEnabled.getLsbD pin then senseFrom (s.gpio.gpioIntFromLevel.getLsbD pin)
        else .noSense :=
      fun pin hlt => h.sense_follows pin hlt (by simp [hunset]) (by simp [hserving])
    refine ⟨by intro f hf; simp [hsetter] at hf, ?_, ?_⟩
    · intro pin hlt _ hserved
      have hout : (s.gpio.interruptsFrom s.level).getLsbD pin = false := hserved
      change s.gpio.sense pin = _
      rw [hsense pin hlt]
      simp only [disable_enabled hlt, hout, Bool.not_false, Bool.and_true]
      rfl
    · by_cases hz : s.gpio.interruptsFrom s.level = 0#32
      · right; right; right
        rw [detect_eq_false]
        intro pin hlt
        have hbit : (s.gpio.interruptsFrom s.level).getLsbD pin = false := by simp [hz]
        rw [interruptsFrom_bit] at hbit
        change (s.gpio.sense pin).detects (s.level.getLsbD pin) = false
        rw [hsense pin hlt]
        cases henabled : s.gpio.gpioIntEnabled.getLsbD pin with
        | false => rfl
        | true =>
          rw [if_pos rfl, senseFrom_detects]
          simpa [henabled] using hbit
      · exact Or.inr (Or.inr (Or.inl hz))
  next => simp at hstep

theorem inv_irqUnsense (h : Inv s) (safe : UnsenseSafe s .irqUnsense)
    (hstep : step s .irqUnsense = some t) : Inv t := by
  simp only [step] at hstep
  split at hstep
  next levels rest hsetter hhandler =>
    split at hstep
    next => simp at hstep
    next hne =>
      cases Option.some.inj hstep
      obtain ⟨hdisabled, hlast⟩ := safe rfl
      have hserving : s.interruptsFrom = rest := by simp [interruptsFrom, hhandler]
      rw [hserving] at hdisabled hlast
      refine ⟨by intro f hf; simp [latch, hsetter] at hf, ?_, ?_⟩
      · intro pin hlt hpin hserved
        have hrest := getNextBitPos_rest rest hlt
        have hout : (getNextBitPos rest).2.getLsbD pin = false := hserved
        change (s.gpio.cfgSenseSet (getNextBitPos rest).1 .noSense).sense pin =
          if s.gpio.gpioIntEnabled.getLsbD pin = true then
            senseFrom (s.gpio.gpioIntFromLevel.getLsbD pin) else .noSense
        rw [cfgSenseSet_sense]
        by_cases heq : pin = (getNextBitPos rest).1
        · rw [if_pos heq, heq, hdisabled]
          rfl
        · rw [if_neg heq]
          rw [if_neg heq] at hrest
          exact h.sense_follows pin hlt hpin (by rw [hserving, ← hrest, hout])
      · by_cases hz : (getNextBitPos rest).2 = 0#32
        · rcases hlast hz with event | others
          · exact Or.inl (by simp [latch, event])
          · right; right; right
            rw [detect_eq_false]
            intro pin hlt
            change ((s.gpio.cfgSenseSet (getNextBitPos rest).1 .noSense).sense pin).detects
              (s.level.getLsbD pin) = false
            rw [cfgSenseSet_sense]
            by_cases heq : pin = (getNextBitPos rest).1
            · rw [if_pos heq]
              rfl
            · rw [if_neg heq]
              exact others pin hlt heq
        · exact Or.inr (Or.inr (Or.inl hz))
  next => simp at hstep

theorem inv_irqCallback (h : Inv s) (hstep : step s .irqCallback = some t) : Inv t := by
  simp only [step] at hstep
  split at hstep
  next levels rest pin hsetter hhandler =>
    cases Option.some.inj hstep
    have hserving : s.interruptsFrom = rest := by simp [interruptsFrom, hhandler]
    refine ⟨h.setter_armed, ?_, ?_⟩
    · intro pin hlt hpin hserved
      exact h.sense_follows pin hlt hpin (by rw [hserving]; exact hserved)
    · have := h.settled
      rw [hhandler, hserving] at this
      rcases this with event | cleared | serving | low
      · exact Or.inl event
      · simp at cleared
      · exact Or.inr (Or.inr (Or.inl serving))
      · exact Or.inr (Or.inr (Or.inr low))
  next => simp at hstep

theorem inv_irqReturn (h : Inv s) (hstep : step s .irqReturn = some t) : Inv t := by
  simp only [step] at hstep
  split at hstep
  next levels rest hsetter hhandler =>
    split at hstep
    next hz =>
      cases Option.some.inj hstep
      have hserving : s.interruptsFrom = 0#32 := by simp [interruptsFrom, hhandler, hz]
      refine ⟨h.setter_armed, ?_, ?_⟩
      · intro pin hlt hpin _
        exact h.sense_follows pin hlt hpin (by simp [hserving])
      · have := h.settled
        rw [hhandler, hserving] at this
        rcases this with event | cleared | serving | low
        · exact Or.inl event
        · simp at cleared
        · simp at serving
        · exact Or.inr (Or.inr (Or.inr low))
    next => simp at hstep
  next => simp at hstep

theorem inv_step {a : GpioStep κ} (h : Inv s) (safe : UnsenseSafe s a)
    (hstep : step s a = some t) : Inv t := by
  cases a with
  | pinLevel => exact inv_pinLevel h hstep
  | setEdgeCbMask => exact inv_setEdgeCbMask h hstep
  | setterPin => exact inv_setterPin h hstep
  | setterReturn => exact inv_setterReturn h hstep
  | irqClear => exact inv_irqClear h hstep
  | irqRead => exact inv_irqRead h hstep
  | irqUnsense => exact inv_irqUnsense h safe hstep
  | irqCallback => exact inv_irqCallback h hstep
  | irqReturn => exact inv_irqReturn h hstep

theorem Inv.noEdgePending (h : Inv s) (quiet : Quiet s) (clear : s.portEvent = false) :
    NoEdgePending s := by
  obtain ⟨hsetter, hhandler⟩ := quiet
  have hserving : s.interruptsFrom = 0#32 := by simp [interruptsFrom, hhandler]
  have hunset : s.unset = 0#32 := by simp [unset, hsetter]
  have low : s.detect = false := by
    rcases h.settled with event | cleared | serving | low
    · simp [clear] at event
    · simp [hhandler] at cleared
    · simp [hserving] at serving
    · exact low
  intro pin henabled
  have hlt := BitVec.lt_of_getLsbD henabled
  have hnot := detect_eq_false.mp low pin hlt
  rw [sensed_eq, h.sense_follows pin hlt (by simp [hunset]) (by simp [hserving]), henabled,
    if_pos rfl, senseFrom_detects] at hnot
  simpa using hnot

/-- Whenever the last unsensing of a pass is not safe, and only the callback follows, the
pass ends with DETECT stuck high: some armed edge raises no interrupt any more. -/
theorem edge_stuck_of_unsafe {u v : GpioPort κ} {other : Nat} (h : Inv s)
    (hlast : (getNextBitPos s.interruptsFrom).2 = 0#32) (hlt : other < 32)
    (hother : other ≠ (getNextBitPos s.interruptsFrom).1) (hsensed : s.sensed other = true)
    (hclear : s.portEvent = false) (hunsense : step s .irqUnsense = some t)
    (hcall : step t .irqCallback = some u) (hreturn : step u .irqReturn = some v) :
    Quiet v ∧ v.portEvent = false ∧ ¬ NoEdgePending v := by
  simp only [step] at hunsense
  split at hunsense
  next levels rest hsetter hhandler =>
    split at hunsense
    next => simp at hunsense
    next hne =>
      cases Option.some.inj hunsense
      have hserving : s.interruptsFrom = rest := by simp [interruptsFrom, hhandler]
      rw [hserving] at hlast hother
      have hunset : s.unset = 0#32 := by simp [unset, hsetter]
      have hdetect : s.detect = true := by
        rw [← Bool.not_eq_false]
        intro low
        have := detect_eq_false.mp low other hlt
        simp [hsensed] at this
      simp only [step, latch, hsetter] at hcall
      cases Option.some.inj hcall
      simp only [step, hlast, if_true] at hreturn
      cases Option.some.inj hreturn
      refine ⟨⟨rfl, rfl⟩, by simp [hclear, hdetect], ?_⟩
      intro none_pending
      have hrest : rest.getLsbD other = false := by
        have := getNextBitPos_rest rest hlt
        rw [if_neg hother, hlast] at this
        simpa using this.symm
      rw [sensed_eq, h.sense_follows other hlt (by simp [hunset]) (by rw [hserving, hrest])]
        at hsensed
      cases henabled : s.gpio.gpioIntEnabled.getLsbD other with
      | false => simp [henabled, PinSense.detects] at hsensed
      | true =>
        rw [henabled, if_pos rfl, senseFrom_detects] at hsensed
        have hlevel : s.level.getLsbD other = s.gpio.gpioIntFromLevel.getLsbD other :=
          none_pending other henabled
        simp [hlevel] at hsensed
  next => simp at hunsense

/-- No armed edge is lost in a run whose unsensing steps are all safe. -/
theorem no_edge_lost {level : BitVec 32} {trace : List (GpioPort κ × GpioStep κ)}
    (run : Run step (reset level) trace s) (safe : AllSteps UnsenseSafe trace) :
    AllStates (fun s => Quiet s → s.portEvent = false → NoEdgePending s) trace s := by
  have invariant := run.invariant safe (inv_reset level)
    (fun s a t hs hok hstep => inv_step hs hok hstep)
  exact invariant.imp (fun s hs quiet clear => hs.noEdgePending quiet clear)

/-- Two pins are armed from high; the second one falls after the first one's unsensing. -/
def servedEdges : List (GpioStep Unit) :=
  [.setEdgeCbMask 3#32 3#32 (), .setterPin, .setterPin, .setterReturn, .pinLevel 0 false,
    .irqClear, .irqRead, .irqUnsense, .pinLevel 1 false, .irqCallback, .irqReturn,
    .irqClear, .irqRead, .irqUnsense, .irqCallback, .irqReturn]

theorem no_edge_lost_servedEdges :
    ∃ (trace : List (GpioPort Unit × GpioStep Unit)) (s : GpioPort Unit),
      Run step (reset 3#32) trace s ∧ trace.map Prod.snd = servedEdges.reverse ∧
      AllStates (fun s => Quiet s → s.portEvent = false → NoEdgePending s) trace s := by
  have replayed : (replay (guarded UnsenseSafe step) (reset 3#32) servedEdges).isSome = true := by
    decide +kernel
  obtain ⟨trace, s, run, safe, labels⟩ := exists_allowed_run replayed
  exact ⟨trace, s, run, labels, no_edge_lost run safe⟩

/-- Two pins are armed from high; the second one falls between the port read for the first
one and its unsensing. -/
def maskedEdge : List (GpioStep Unit) :=
  [.setEdgeCbMask 3#32 3#32 (), .setterPin, .setterPin, .setterReturn, .pinLevel 0 false,
    .irqClear, .irqRead, .pinLevel 1 false, .irqUnsense, .irqCallback, .irqReturn]

theorem edge_lost_maskedEdge :
    ∃ (trace : List (GpioPort Unit × GpioStep Unit)) (s : GpioPort Unit),
      Run step (reset 3#32) trace s ∧ trace.map Prod.snd = maskedEdge.reverse ∧
      Quiet s ∧ s.portEvent = false ∧ ¬ NoEdgePending s := by
  obtain ⟨trace, s, run, labels, hs⟩ := exists_run_of_replay
    (p := fun s => decide (Quiet s) && !s.portEvent && s.gpio.gpioIntEnabled.getLsbD 1 &&
      (s.level.getLsbD 1 != s.gpio.gpioIntFromLevel.getLsbD 1))
    (show (replay step (reset 3#32) maskedEdge).any _ = true by decide +kernel)
  simp only [Bool.and_eq_true, decide_eq_true_eq, Bool.not_eq_true', bne_iff_ne] at hs
  obtain ⟨⟨⟨quiet, clear⟩, armed⟩, moved⟩ := hs
  exact ⟨trace, s, run, labels, quiet, clear, fun none_pending => moved (none_pending 1 armed)⟩

end GpioPort

end MyMouse
