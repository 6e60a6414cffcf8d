import MyMouse.CollectorWakeup
import MyMouse.Gpio
import MyMouse.OptSensor

namespace MyMouse

open BitMask Runs

/-- The source of the optical sensor among the registered ones, and its motion pin. -/
structure OptSensorSource where
  numSources : Nat
  sourceId : Nat
  motPin : Nat
  surfQualThreshold : Nat
  registered : CollectorWakeup.Registered numSources sourceId
  motPin_lt : motPin < 32

inductive OptSensorGpio
  | hidSrcOptSensorGpioCb
  deriving DecidableEq

abbrev MotionSystem := WithGpio OptSensorGpio CollectorWakeup

/-- How far the filler of the sensor has got with the motion burst. -/
inductive FetchPc
  | idle
  | reading
  | fetched (read : BurstRead)
  deriving DecidableEq

/-- The collector, the gpio driver and the sensor with the level of its motion pin. `port` is
what the running interrupt handler has read of the port, or `hid_src_opt_sensor_init`, which runs
before the threads do. -/
structure MotionWakeup where
  system : MotionSystem
  data : Adns7530Data
  fetch : FetchPc
  mot : Bool
  initialized : Bool
  port : Option (BitVec 32)

/-- Of the steps of the collector and its callers, those of the sensor's own filler are left to
`fetch`, `fetched` and `fill`. -/
inductive MotionStep
  | motFalls
  | motRises
  | readPort (levels : BitVec 32)
  | serve
  | fetch
  | fetched (read : BurstRead)
  | fill
  | collector (step : WakeupStep)
  deriving DecidableEq

def CollectorWakeup.notify (sourceId : Nat) (c : CollectorWakeup) : CollectorWakeup :=
  { c with
    collector := hidCollectorNotifyDataAvailable sourceId c.collector
    awaited := Function.update c.awaited sourceId true }

def WithGpio.mapCollector (f : CollectorWakeup → CollectorWakeup) (s : MotionSystem) :
    MotionSystem :=
  { s with app := f s.app }

def hidSrcOptSensorGpioCb (source : OptSensorSource) (pin : Nat) (newValue : Bool)
    (s : MotionSystem) : MotionSystem :=
  let s := if !newValue then s.mapCollector (·.notify source.sourceId) else s
  s.mapGpio (gpioSetEdgeCb pin newValue .hidSrcOptSensorGpioCb)

def optSensorIrqHandler (source : OptSensorSource) (levels : BitVec 32) (s : MotionSystem) :
    MotionSystem :=
  gpioteIrqHandler (fun _ => hidSrcOptSensorGpioCb source) levels s

namespace MotionWakeup

def reset (mot : Bool) : MotionWakeup :=
  { system := { gpio := Gpio.reset, app := CollectorWakeup.start }, data := ⟨0#16, 0#16⟩,
    fetch := .idle, mot := mot, initialized := false, port := none }

def fromLevel (source : OptSensorSource) (s : MotionWakeup) : Bool :=
  s.system.gpio.gpioIntFromLevel.getLsbD source.motPin

/-- The motion pin is armed, and its level is not the one it was armed from. -/
def edgePending (source : OptSensorSource) (s : MotionWakeup) : Bool :=
  s.system.gpio.gpioIntEnabled.getLsbD source.motPin && (s.mot != s.fromLevel source)

def inFiller (source : OptSensorSource) (s : MotionWakeup) : Bool :=
  match s.system.app.collector.pc with
  | .filling sourceId _ => sourceId = source.sourceId
  | _ => false

/-- The collector's thread runs when no interrupt is pending or being served. -/
def ThreadRuns (source : OptSensorSource) (s : MotionWakeup) : Prop :=
  s.initialized = true ∧ s.port = none ∧ s.edgePending source = false

instance (source : OptSensorSource) (s : MotionWakeup) : Decidable (ThreadRuns source s) :=
  inferInstanceAs (Decidable (_ ∧ _ ∧ _))

/-- The sensor's source stays enabled. -/
def MayStep (source : OptSensorSource) (s : MotionWakeup) : WakeupStep → Prop
  | .thread => ThreadRuns source s
  | .filler _ => ThreadRuns source s ∧ s.inFiller source = false
  | .setEnabled _ sourceId enabled => sourceId = source.sourceId → enabled = true
  | _ => True

instance (source : OptSensorSource) (s : MotionWakeup) : ∀ a, Decidable (MayStep source s a)
  | .thread => inferInstanceAs (Decidable (ThreadRuns source s))
  | .filler _ => inferInstanceAs (Decidable (_ ∧ _))
  | .notify _ => instDecidableTrue
  | .setEnabled _ _ _ => inferInstanceAs (Decidable (_ → _))
  | .storeEnabled _ => instDecidableTrue
  | .postChanged _ => instDecidableTrue

def serve (source : OptSensorSource) (levels : BitVec 32) (s : MotionWakeup) : MotionWakeup :=
  { s with
    system :=
      if s.initialized then optSensorIrqHandler source levels s.system
      else hidSrcOptSensorGpioCb source source.motPin (levels.getLsbD source.motPin) s.system
    initialized := true
    port := none }

/-- The filler from the end of the burst on: it looks at the motion pin again. -/
def fill (source : OptSensorSource) (read : BurstRead) (s : MotionWakeup) : Option MotionWakeup :=
  let (report, data, notify) := hidSrcOptSensorReportFiller source.surfQualThreshold
    ⟨read, s.mot, s.system.app.collector.report⟩ s.data
  let c := if notify then s.system.app.notify source.sourceId else s.system.app
  (CollectorWakeup.step source.numSources c (.filler report)).map (fun c =>
    { s with system := { s.system with app := c }, data := data, fetch := .idle })

def step (source : OptSensorSource) (s : MotionWakeup) : MotionStep → Option MotionWakeup
  | .motFalls => some { s with mot := false }
  | .motRises => if s.fetch = .reading then some { s with mot := true } else none
  | .readPort levels =>
    if s.port = none ∧ levels.getLsbD source.motPin = s.mot then some { s with port := some levels }
    else none
  | .serve => s.port.map (fun levels => s.serve source levels)
  | .fetch =>
    if ThreadRuns source s ∧ s.inFiller source ∧ s.fetch = .idle then
      some { s with fetch := .reading }
    else none
  | .fetched read =>
    if ThreadRuns source s ∧ s.fetch = .reading then some { s with fetch := .fetched read } else none
  | .fill =>
    match s.fetch with
    | .fetched read => if ThreadRuns source s then s.fill source read else none
    | _ => none
  | .collector a =>
    if MayStep source s a then
      (CollectorWakeup.step source.numSources s.system.app a).map (fun c =>
        { s with system := { s.system with app := c } })
    else none

/-- While the thread is blocked and no interrupt is pending, the motion pin is high. -/
def MotionSeen (source : OptSensorSource) (s : MotionWakeup) : Prop :=
  s.system.app.Blocked → s.port = none → s.edgePending source = false → s.mot = true

/-- Every mask that the thread or a caller holds has the source enabled. -/
structure SensorEnabled (sourceId : Nat) (c : CollectorWakeup) : Prop where
  current : c.collector.enabledSources.getLsbD sourceId = true
  loaded : ∀ mask, c.loaded = some mask → mask.getLsbD sourceId = true
  calls : ∀ caller mask id enabled, c.calls caller = .loaded mask id enabled →
    mask.getLsbD sourceId = true ∧ (id = sourceId → enabled = true)
  waiting : ∀ mask, c.collector.pc = .waiting mask → mask.getLsbD sourceId = true

/-- A notification of the source is not served yet, or its filler is running. -/
def Attended (sourceId : Nat) (c : CollectorWakeup) : Prop :=
  c.awaited sourceId = true ∨ c.collector.InFiller sourceId

section Collector

variable {numSources sourceId : Nat} {c d : CollectorWakeup} {a : WakeupStep}

theorem step_notify {i : Nat} (hi : i < numSources) :
    CollectorWakeup.step numSources c (.notify i) = some (c.notify i) :=
  if_pos hi

theorem existing_getLsbD (registered : CollectorWakeup.Registered numSources sourceId) :
    (getExistingSourcesBitmask numSources).getLsbD sourceId = true := by
  obtain ⟨hlt, hmax⟩ := registered
  have hbound : sourceId < 31 := hmax
  unfold getExistingSourcesBitmask
  split
  next =>
    rw [bitMask_getLsbD _ (by decide) sourceId (by omega)]
    exact decide_eq_true hmax
  next hle =>
    have hle' : ¬ numSources > 31 := hle
    rw [bitMask_getLsbD _ (by omega) sourceId (by omega)]
    exact decide_eq_true hlt

/-- A thread step changes the mask only when it starts, and waits for the mask it has read. -/
theorem enabled_threadStep {c d : Collector}
    (registered : CollectorWakeup.Registered numSources sourceId)
    (hstep : Collector.ThreadStep numSources c d)
    (hcurrent : c.enabledSources.getLsbD sourceId = true) :
    d.enabledSources.getLsbD sourceId = true ∧
      ∀ mask, d.pc = .waiting mask → mask.getLsbD sourceId = true := by
  cases hstep with
  | start hpc =>
    refine ⟨?_, fun mask hmask => by cases hmask⟩
    rw [BitVec.getLsbD_and, hcurrent, existing_getLsbD registered]
    rfl
  | sample hpc =>
    refine ⟨hcurrent, ?_⟩
    intro mask hmask
    cases hmask
    rw [BitVec.getLsbD_or, hcurrent, Bool.true_or]
  | receive mask hpc hne => exact ⟨hcurrent, fun mask hmask => by cases hmask⟩
  | restart events hpc hchanged => exact ⟨hcurrent, fun mask hmask => by cases hmask⟩
  | take events hpc hsame => exact ⟨hcurrent, fun mask hmask => by cases hmask⟩
  | fill events hpc hsome => exact ⟨hcurrent, fun mask hmask => by cases hmask⟩
  | sink hpc => exact ⟨hcurrent, fun mask hmask => by cases hmask⟩
  | clear hpc => exact ⟨hcurrent, fun mask hmask => by cases hmask⟩

theorem sensorEnabled_notify {i : Nat} (h : SensorEnabled sourceId c) :
    SensorEnabled sourceId (c.notify i) := by
  have hposts := Collector.notify_posts i c.collector
  refine ⟨?_, h.loaded, h.calls, ?_⟩
  · change (hidCollectorNotifyDataAvailable i c.collector).enabledSources.getLsbD sourceId = true
    unfold hidCollectorNotifyDataAvailable
    split
    next => exact h.current
    next => exact h.current
  · intro mask hpc
    exact h.waiting mask (hposts.pc.symm.trans hpc)

theorem sensorEnabled_thread (registered : CollectorWakeup.Registered numSources sourceId)
    (h : SensorEnabled sourceId c) (hstep : CollectorWakeup.threadStep numSources c = some d) :
    SensorEnabled sourceId d := by
  unfold CollectorWakeup.threadStep at hstep
  split at hstep
  next hstart =>
    cases Option.some.inj hstep
    refine ⟨h.current, ?_, h.calls, h.waiting⟩
    intro mask hmask
    cases Option.some.inj hmask
    exact h.current
  next =>
    obtain ⟨after, hafter, rfl⟩ := Option.map_eq_some_iff.mp hstep
    have hseen : c.seen.collector.enabledSources.getLsbD sourceId = true := by
      change (c.loaded.getD c.collector.enabledSources).getLsbD sourceId = true
      cases hloaded : c.loaded with
      | none => exact h.current
      | some mask => exact h.loaded mask hloaded
    obtain ⟨hcurrent, hwaiting⟩ :=
      enabled_threadStep registered (Collector.threadStep_of_step hafter) hseen
    refine ⟨hcurrent, ?_, h.calls, hwaiting⟩
    intro mask hmask
    cases hmask

theorem call_of_update {calls : Nat → SetCall} {caller other : Nat} {value call : SetCall}
    (hcall : Function.update calls caller value other = call) : value = call ∨ calls other = call := by
  rw [Function.update_apply] at hcall
  split at hcall
  next => exact .inl hcall
  next => exact .inr hcall

theorem sensorEnabled_step (registered : CollectorWakeup.Registered numSources sourceId)
    (h : SensorEnabled sourceId c)
    (hkeeps : ∀ caller enabled, a = .setEnabled caller sourceId enabled → enabled = true)
    (hstep : CollectorWakeup.step numSources c a = some d) : SensorEnabled sourceId d := by
  cases a with
  | thread => exact sensorEnabled_thread registered h hstep
  | filler report =>
    simp only [CollectorWakeup.step] at hstep
    split at hstep
    next filled events hpc =>
      cases Option.some.inj hstep
      have hfilled : ({ c.collector with report := report } : Collector).filled =
          { c.collector with report := report, pc := .serving events } :=
        @Collector.filled_of_pc { c.collector with report := report } filled events hpc
      rw [hfilled]
      exact ⟨h.current, h.loaded, h.calls, fun mask hmask => by cases hmask⟩
    next => simp at hstep
  | notify i =>
    simp only [CollectorWakeup.step] at hstep
    split at hstep
    next =>
      cases Option.some.inj hstep
      exact sensorEnabled_notify h
    next => simp at hstep
  | setEnabled caller id enabled =>
    simp only [CollectorWakeup.step] at hstep
    split at hstep
    next =>
      split at hstep
      next =>
        cases Option.some.inj hstep
        exact h
      next hrange =>
        cases Option.some.inj hstep
        refine ⟨h.current, h.loaded, ?_, h.waiting⟩
        intro other mask stored value hcall
        rcases call_of_update hcall with hnew | hold
        · cases hnew
          refine ⟨h.current, ?_⟩
          intro hid
          have hsame : id = (sourceId : Int) := by omega
          rw [hsame] at hkeeps
          exact hkeeps caller enabled rfl
        · exact h.calls other mask stored value hold
    next => simp at hstep
  | storeEnabled caller =>
    simp only [CollectorWakeup.step] at hstep
    split at hstep
    next mask stored value hcall =>
      cases Option.some.inj hstep
      obtain ⟨hmask, hvalue⟩ := h.calls caller mask stored value hcall
      have hlt : sourceId < 32 := BitVec.lt_of_getLsbD hmask
      refine ⟨?_, h.loaded, ?_, h.waiting⟩
      · change (writeBit mask stored value).getLsbD sourceId = true
        rw [getLsbD_writeBit hlt]
        split
        next hid => exact hvalue hid.symm
        next => exact hmask
      · intro other mask stored value hother
        rcases call_of_update hother with hnew | hold
        · cases hnew
        · exact h.calls other mask stored value hold
    next => simp at hstep
  | postChanged caller =>
    simp only [CollectorWakeup.step] at hstep
    split at hstep
    next hcall =>
      cases Option.some.inj hstep
      refine ⟨h.current, h.loaded, ?_, h.waiting⟩
      intro other mask stored value hother
      rcases call_of_update hother with hnew | hold
      · cases hnew
      · exact h.calls other mask stored value hold
    next => simp at hstep

theorem inFiller_notify {i : Nat} : (c.notify i).collector.InFiller sourceId ↔
    c.collector.InFiller sourceId :=
  (Collector.notify_posts i c.collector).inFiller

theorem awaited_notify {i : Nat} (h : c.awaited sourceId = true) :
    (c.notify i).awaited sourceId = true := by
  change Function.update c.awaited i true sourceId = true
  rw [Function.update_apply]
  split
  next => rfl
  next => exact h

theorem attended_notified : Attended sourceId (c.notify sourceId) :=
  .inl (Function.update_self ..)

theorem attended_thread (h : Attended sourceId c)
    (hstep : CollectorWakeup.threadStep numSources c = some d) : Attended sourceId d := by
  unfold CollectorWakeup.threadStep at hstep
  split at hstep
  next =>
    cases Option.some.inj hstep
    exact h
  next =>
    obtain ⟨after, hafter, rfl⟩ := Option.map_eq_some_iff.mp hstep
    have hstep' := Collector.threadStep_of_step hafter
    have hawaited : c.awaited sourceId = true := h.resolve_right hstep'.not_inFiller
    by_cases hin : after.InFiller sourceId
    · exact .inr hin
    · refine .inl ?_
      change CollectorWakeup.awaitedAt c.awaited after.pc sourceId = true
      cases hpc : after.pc with
      | filling id events =>
        have hne : sourceId ≠ id := fun heq => hin ⟨events, heq ▸ hpc⟩
        exact (Function.update_of_ne hne _ _).trans hawaited
      | start => exact hawaited
      | sampling => exact hawaited
      | waiting mask => exact hawaited
      | received events => exact hawaited
      | serving events => exact hawaited
      | sinking => exact hawaited

/-- The steps of the collector's callers leave its thread where it is. -/
theorem caller_step (hthread : a ≠ .thread) (hfiller : ∀ report, a ≠ .filler report)
    (hstep : CollectorWakeup.step numSources c a = some d) :
    d.collector.pc = c.collector.pc ∧
      (c.awaited sourceId = true → d.awaited sourceId = true) := by
  cases a with
  | thread => exact (hthread rfl).elim
  | filler report => exact (hfiller report rfl).elim
  | notify i =>
    simp only [CollectorWakeup.step] at hstep
    split at hstep
    next =>
      cases Option.some.inj hstep
      exact ⟨(Collector.notify_posts i c.collector).pc, awaited_notify⟩
    next => simp at hstep
  | setEnabled caller id enabled =>
    simp only [CollectorWakeup.step] at hstep
    split at hstep
    next =>
      split at hstep
      next =>
        cases Option.some.inj hstep
        exact ⟨rfl, fun hawaited => hawaited⟩
      next =>
        cases Option.some.inj hstep
        exact ⟨rfl, fun hawaited => hawaited⟩
    next => simp at hstep
  | storeEnabled caller =>
    simp only [CollectorWakeup.step] at hstep
    split at hstep
    next =>
      cases Option.some.inj hstep
      exact ⟨rfl, fun hawaited => hawaited⟩
    next => simp at hstep
  | postChanged caller =>
    simp only [CollectorWakeup.step] at hstep
    split at hstep
    next =>
      cases Option.some.inj hstep
      exact ⟨rfl, fun hawaited => hawaited⟩
    next => simp at hstep

theorem inFiller_of_pc {c d : Collector} (hpc : d.pc = c.pc) (h : c.InFiller sourceId) :
    d.InFiller sourceId := by
  obtain ⟨events, hfilling⟩ := h
  exact ⟨events, hpc.trans hfilling⟩

theorem attended_step (h : Attended sourceId c)
    (hother : ∀ report, a = .filler report → ¬ c.collector.InFiller sourceId)
    (hstep : CollectorWakeup.step numSources c a = some d) : Attended sourceId d := by
  by_cases hthread : a = .thread
  · subst hthread
    exact attended_thread h hstep
  by_cases hfiller : ∃ report, a = .filler report
  · obtain ⟨report, rfl⟩ := hfiller
    have hawaited : c.awaited sourceId = true := h.resolve_right (hother report rfl)
    simp only [CollectorWakeup.step] at hstep
    split at hstep
    next =>
      cases Option.some.inj hstep
      exact .inl hawaited
    next => simp at hstep
  · obtain ⟨hpc, hawaited⟩ :=
      @caller_step _ sourceId _ _ _ hthread (fun report heq => hfiller ⟨report, heq⟩) hstep
    exact h.imp hawaited (inFiller_of_pc hpc)

/-- Only its own return ends a filler. -/
theorem inFiller_step (h : c.collector.InFiller sourceId)
    (hother : ∀ report, a = .filler report → ¬ c.collector.InFiller sourceId)
    (hstep : CollectorWakeup.step numSources c a = some d) : d.collector.InFiller sourceId := by
  by_cases hthread : a = .thread
  · subst hthread
    obtain ⟨events, hpc⟩ := h
    have hstart : c.collector.pc ≠ .start := by
      rw [hpc]
      exact CollectorPc.noConfusion
    simp only [CollectorWakeup.step, CollectorWakeup.threadStep] at hstep
    rw [if_neg (fun hboth => hstart hboth.1)] at hstep
    obtain ⟨after, hafter, -⟩ := Option.map_eq_some_iff.mp hstep
    exact ((Collector.threadStep_of_step hafter).not_inFiller ⟨events, hpc⟩).elim
  have hfiller : ∀ report, a ≠ .filler report := fun report heq => hother report heq h
  exact inFiller_of_pc (@caller_step _ sourceId _ _ _ hthread hfiller hstep).1 h

end Collector

section Handler

variable {source : OptSensorSource} {s : MotionSystem} {levels : BitVec 32}

/-- The motion pin is the only one armed, with the callback of the sensor. -/
structure Armed (source : OptSensorSource) (g : Gpio OptSensorGpio) : Prop where
  enabled : ∀ pin < 32, g.gpioIntEnabled.getLsbD pin = decide (pin = source.motPin)
  callback : g.callbacks source.motPin = some .hidSrcOptSensorGpioCb

/-- The callback arms the pin again from the level it was called with. -/
theorem gpioCb_spec (hothers : ∀ pin < 32, pin ≠ source.motPin →
    s.gpio.gpioIntEnabled.getLsbD pin = false) (newValue : Bool) :
    Armed source (hidSrcOptSensorGpioCb source source.motPin newValue s).gpio ∧
    (hidSrcOptSensorGpioCb source source.motPin newValue s).gpio.gpioIntFromLevel.getLsbD
      source.motPin = newValue ∧
    (hidSrcOptSensorGpioCb source source.motPin newValue s).app =
      if newValue then s.app else s.app.notify source.sourceId := by
  have hgpio : (hidSrcOptSensorGpioCb source source.motPin newValue s).gpio =
      gpioSetEdgeCb source.motPin newValue .hidSrcOptSensorGpioCb s.gpio := by
    cases newValue with
    | true => rfl
    | false => rfl
  refine ⟨⟨?_, ?_⟩, ?_, ?_⟩
  · intro pin hpin
    rw [hgpio, gpioSetEdgeCb_enabled hpin]
    by_cases heq : pin = source.motPin
    · simp [heq]
    · simp [heq, hothers pin hpin heq]
  · rw [hgpio, gpioSetEdgeCb_callbacks source.motPin_lt, if_pos rfl]
  · rw [hgpio, gpioSetEdgeCb_fromLevel source.motPin_lt, if_pos rfl]
  · cases newValue with
    | true => rfl
    | false => rfl

/-- A pass leaves the pin armed from the level that it has read, and has the collector notified
if that level is low and the one before was not. -/
theorem irqHandler_spec (armed : Armed source s.gpio) :
    Armed source (optSensorIrqHandler source levels s).gpio ∧
    (optSensorIrqHandler source levels s).gpio.gpioIntFromLevel.getLsbD source.motPin =
      levels.getLsbD source.motPin ∧
    ((optSensorIrqHandler source levels s).app = s.app.notify source.sourceId ∨
      (optSensorIrqHandler source levels s).app = s.app ∧
        (levels.getLsbD source.motPin = false →
          s.gpio.gpioIntFromLevel.getLsbD source.motPin = false)) := by
  have hfrom : ∀ pin < 32, (s.gpio.interruptsFrom levels).getLsbD pin =
      ((levels.getLsbD pin != s.gpio.gpioIntFromLevel.getLsbD pin) &&
        decide (pin = source.motPin)) := by
    intro pin hpin
    rw [interruptsFrom_bit, armed.enabled pin hpin]
  unfold optSensorIrqHandler gpioteIrqHandler
  rw [whileBits_eq_foldl]
  by_cases hsame : levels.getLsbD source.motPin = s.gpio.gpioIntFromLevel.getLsbD source.motPin
  · have hzero : s.gpio.interruptsFrom levels = 0#32 := by
      apply BitVec.eq_of_getLsbD_eq
      intro pin hpin
      rw [hfrom pin hpin, BitVec.getLsbD_zero]
      by_cases heq : pin = source.motPin
      · simp [heq, hsame]
      · simp [heq]
    have hdisable : s.gpio.disable 0#32 = s.gpio := by
      unfold Gpio.disable
      rw [BitVec.not_zero, BitVec.and_allOnes]
    rw [hzero, setBits_zero, List.foldl_nil]
    change Armed source (s.gpio.disable 0#32) ∧
      (s.gpio.disable 0#32).gpioIntFromLevel.getLsbD source.motPin = _ ∧ (s.app = _ ∨ s.app = s.app ∧ _)
    rw [hdisable]
    exact ⟨armed, hsame.symm, .inr ⟨rfl, fun hlow => hsame.symm.trans hlow⟩⟩
  · have hsingle : setBits (s.gpio.interruptsFrom levels) = [source.motPin] := by
      refine setBits_single ?_ source.motPin_lt
      intro pin hpin
      rw [hfrom pin hpin]
      by_cases heq : pin = source.motPin
      · simp [heq, hsame]
      · simp [heq]
    have hserve : ∀ g : Gpio OptSensorGpio, g.callbacks source.motPin =
        some .hidSrcOptSensorGpioCb → ∀ app,
        gpioteServePin (fun _ => hidSrcOptSensorGpioCb source) levels ⟨g, app⟩ source.motPin =
          hidSrcOptSensorGpioCb source source.motPin (levels.getLsbD source.motPin)
            ⟨g.cfgSenseSet source.motPin .noSense, app⟩ := by
      intro g hcallback app
      simp only [gpioteServePin, WithGpio.mapGpio, cfgSenseSet_callbacks, hcallback]
    rw [hsingle, List.foldl_cons, List.foldl_nil]
    change Armed source (gpioteServePin _ levels ⟨s.gpio.disable _, s.app⟩ source.motPin).gpio ∧
      (gpioteServePin _ levels ⟨s.gpio.disable _, s.app⟩
        source.motPin).gpio.gpioIntFromLevel.getLsbD source.motPin = _ ∧
      ((gpioteServePin _ levels ⟨s.gpio.disable _, s.app⟩ source.motPin).app = _ ∨
        (gpioteServePin _ levels ⟨s.gpio.disable _, s.app⟩ source.motPin).app = _ ∧ _)
    rw [hserve (s.gpio.disable (s.gpio.interruptsFrom levels)) armed.callback s.app]
    obtain ⟨harmed, hlevel, happ⟩ := @gpioCb_spec source
      ⟨(s.gpio.disable (s.gpio.interruptsFrom levels)).cfgSenseSet source.motPin .noSense, s.app⟩ (by
        intro pin hpin hne
        rw [cfgSenseSet_enabled, disable_enabled hpin, armed.enabled pin hpin]
        simp [hne]) (levels.getLsbD source.motPin)
    refine ⟨harmed, hlevel, ?_⟩
    rw [happ]
    cases hlow : levels.getLsbD source.motPin with
    | true => exact .inr ⟨rfl, fun h => by cases h⟩
    | false => exact .inl rfl

end Handler

variable {source : OptSensorSource} {s t : MotionWakeup} {event : MotionStep}

theorem inFiller_iff : s.inFiller source = true ↔
    s.system.app.collector.InFiller source.sourceId := by
  unfold inFiller Collector.InFiller
  cases s.system.app.collector.pc with
  | filling id events => simp
  | start => simp
  | sampling => simp
  | waiting mask => simp
  | received events => simp
  | serving events => simp
  | sinking => simp

/-- A low motion pin is pending or attended to; a high one was seen high, or the burst that
raised it is still being read. -/
structure MotionInv (source : OptSensorSource) (s : MotionWakeup) : Prop where
  collector : CollectorWakeup.Inv source.numSources s.system.app
  enabled : SensorEnabled source.sourceId s.system.app
  asleep : s.initialized = false → s.system.app.collector.pc = .start
  unarmed : s.initialized = false → s.system.gpio.gpioIntEnabled = 0#32
  armed : s.initialized = true → Armed source s.system.gpio
  fetch : s.fetch ≠ .idle → s.system.app.collector.InFiller source.sourceId
  port : ∀ levels, s.port = some levels → levels.getLsbD source.motPin = false → s.mot = true →
    s.fetch = .reading
  high : s.initialized = true → s.mot = true → s.fromLevel source = true ∨ s.fetch = .reading
  low : s.initialized = true → s.mot = false → s.fromLevel source = false →
    Attended source.sourceId s.system.app

theorem motionInv_reset (mot : Bool) : MotionInv source (reset mot) := by
  have hsource : source.sourceId < 31 := source.registered.2
  refine ⟨CollectorWakeup.inv_start, ⟨?_, ?_, ?_, ?_⟩, fun _ => rfl, fun _ => rfl, ?_, ?_, ?_, ?_, ?_⟩
  · change (bitMask MAX_NUM_OF_HID_SOURCES).getLsbD source.sourceId = true
    rw [bitMask_getLsbD _ (by decide) source.sourceId (by omega)]
    exact decide_eq_true source.registered.2
  · intro mask hmask
    cases hmask
  · intro caller mask id enabled hcall
    cases hcall
  · intro mask hpc
    cases hpc
  · intro hinit
    cases hinit
  · intro hfetch
    exact (hfetch rfl).elim
  · intro levels hport
    cases hport
  · intro hinit
    cases hinit
  · intro hinit
    cases hinit

/-- When the thread runs, the motion pin is at the level it was armed from. -/
theorem fromLevel_of_runs (inv : MotionInv source s) (hruns : ThreadRuns source s) :
    s.fromLevel source = s.mot := by
  obtain ⟨hinit, -, hpending⟩ := hruns
  unfold edgePending at hpending
  rw [(inv.armed hinit).enabled source.motPin source.motPin_lt, decide_eq_true rfl,
    Bool.true_and, bne_eq_false_iff_eq] at hpending
  exact hpending.symm

theorem motionInv_serve {levels : BitVec 32} (inv : MotionInv source s)
    (hport : s.port = some levels) : MotionInv source (s.serve source levels) := by
  have happ : Armed source (s.serve source levels).system.gpio ∧
      (s.serve source levels).fromLevel source = levels.getLsbD source.motPin ∧
      ((s.serve source levels).system.app = s.system.app.notify source.sourceId ∨
        (s.serve source levels).system.app = s.system.app ∧
          (levels.getLsbD source.motPin = false →
            s.initialized = true ∧ s.fromLevel source = false)) := by
    unfold serve fromLevel
    simp only
    cases hinit : s.initialized with
    | true =>
      obtain ⟨harmed, hlevel, hnotify⟩ := @irqHandler_spec source s.system levels (inv.armed hinit)
      exact ⟨harmed, hlevel, hnotify.imp_right (And.imp_right fun hlow h => ⟨rfl, hlow h⟩)⟩
    | false =>
      obtain ⟨harmed, hlevel, hnotify⟩ := @gpioCb_spec source s.system (by
        intro pin _ _
        rw [inv.unarmed hinit]
        exact BitVec.getLsbD_zero) (levels.getLsbD source.motPin)
      refine ⟨harmed, hlevel, ?_⟩
      cases hlow : levels.getLsbD source.motPin with
      | true =>
        rw [hlow] at hnotify
        exact .inr ⟨hnotify, fun h => by cases h⟩
      | false =>
        rw [hlow] at hnotify
        exact .inl hnotify
  obtain ⟨harmed, hlevel, happ⟩ := happ
  have hcollector : CollectorWakeup.Inv source.numSources (s.serve source levels).system.app ∧
      SensorEnabled source.sourceId (s.serve source levels).system.app ∧
      (s.system.app.collector.InFiller source.sourceId →
        (s.serve source levels).system.app.collector.InFiller source.sourceId) := by
    rcases happ with hnotify | ⟨hsame, -⟩
    · rw [hnotify]
      exact ⟨CollectorWakeup.inv_notify inv.collector (step_notify source.registered.1),
        sensorEnabled_notify inv.enabled, inFiller_notify.mpr⟩
    · rw [hsame]
      exact ⟨inv.collector, inv.enabled, id⟩
  refine ⟨hcollector.1, hcollector.2.1, ?_, ?_, fun _ => harmed, ?_, ?_, ?_, ?_⟩
  · intro hinit
    cases hinit
  · intro hinit
    cases hinit
  · exact fun hfetch => hcollector.2.2 (inv.fetch hfetch)
  · intro other hother
    cases hother
  · intro _ hmot
    rw [hlevel]
    cases hlow : levels.getLsbD source.motPin with
    | true => exact .inl rfl
    | false => exact .inr (inv.port levels hport hlow hmot)
  · intro _ hmot hfrom
    rw [hlevel] at hfrom
    rcases happ with hnotify | ⟨hsame, hlow⟩
    · rw [hnotify]
      exact attended_notified
    · obtain ⟨hinit, hbefore⟩ := hlow hfrom
      rw [hsame]
      exact inv.low hinit hmot hbefore

theorem motionInv_fill {read : BurstRead} (inv : MotionInv source s)
    (hruns : ThreadRuns source s)
    (hfill : s.fill source read = some t) : MotionInv source t := by
  obtain ⟨d, hd, rfl⟩ := Option.map_eq_some_iff.mp hfill
  simp only at hd
  have hfrom := fromLevel_of_runs inv hruns
  have hbefore : CollectorWakeup.Inv source.numSources
      (if !s.mot then s.system.app.notify source.sourceId else s.system.app) ∧
      SensorEnabled source.sourceId
        (if !s.mot then s.system.app.notify source.sourceId else s.system.app) := by
    cases s.mot with
    | true => exact ⟨inv.collector, inv.enabled⟩
    | false => exact ⟨CollectorWakeup.inv_notify inv.collector (step_notify source.registered.1),
        sensorEnabled_notify inv.enabled⟩
  refine ⟨CollectorWakeup.inv_step hbefore.1 hd, ?_, ?_, inv.unarmed, inv.armed, ?_, ?_, ?_, ?_⟩
  · refine sensorEnabled_step source.registered hbefore.2 ?_ hd
    intro caller enabled heq
    cases heq
  · intro hinit
    change s.initialized = false at hinit
    rw [hruns.1] at hinit
    cases hinit
  · intro hidle
    exact (hidle rfl).elim
  · intro levels hport
    change s.port = some levels at hport
    rw [hruns.2.1] at hport
    cases hport
  · intro _ hmot
    change s.mot = true at hmot
    exact .inl (hfrom.trans hmot)
  · intro _ hmot _
    change s.mot = false at hmot
    rw [hmot] at hd
    simp only [CollectorWakeup.step] at hd
    split at hd
    next =>
      cases Option.some.inj hd
      exact .inl (Function.update_self ..)
    next => simp at hd

theorem motionInv_collector {a : WakeupStep} (inv : MotionInv source s)
    (hmay : MayStep source s a) {d : CollectorWakeup}
    (hd : CollectorWakeup.step source.numSources s.system.app a = some d) :
    MotionInv source { s with system := { s.system with app := d } } := by
  have hother : ∀ report, a = .filler report →
      ¬ s.system.app.collector.InFiller source.sourceId := by
    intro report heq hin
    subst heq
    have hnot : s.inFiller source = false := hmay.2
    rw [inFiller_iff.mpr hin] at hnot
    cases hnot
  refine ⟨CollectorWakeup.inv_step inv.collector hd, ?_, ?_, inv.unarmed, inv.armed, ?_, inv.port,
    inv.high, ?_⟩
  · refine sensorEnabled_step source.registered inv.enabled ?_ hd
    intro caller enabled heq
    subst heq
    exact hmay rfl
  · intro hinit
    change s.initialized = false at hinit
    have hstays : ¬ ThreadRuns source s := by
      intro hruns
      rw [hruns.1] at hinit
      cases hinit
    have hthread : a ≠ .thread := by
      rintro rfl
      exact hstays hmay
    have hfiller : ∀ report, a ≠ .filler report := by
      rintro report rfl
      exact hstays hmay.1
    exact (@caller_step _ source.sourceId _ _ _ hthread hfiller hd).1.trans (inv.asleep hinit)
  · exact fun hfetch => inFiller_step (inv.fetch hfetch) hother hd
  · exact fun hinit hmot hfrom => attended_step (inv.low hinit hmot hfrom) hother hd

theorem motionInv_step (inv : MotionInv source s) (hstep : s.step source event = some t) :
    MotionInv source t := by
  cases event with
  | motFalls =>
    cases Option.some.inj hstep
    refine ⟨inv.collector, inv.enabled, inv.asleep, inv.unarmed, inv.armed, inv.fetch, ?_, ?_, ?_⟩
    · intro levels _ _ hmot
      cases hmot
    · intro _ hmot
      cases hmot
    · intro hinit _ hfrom
      change s.fromLevel source = false at hfrom
      cases hmot : s.mot with
      | false => exact inv.low hinit hmot hfrom
      | true =>
        rcases inv.high hinit hmot with hhigh | hreading
        · rw [hfrom] at hhigh
          cases hhigh
        · refine .inr (inv.fetch ?_)
          rw [hreading]
          exact FetchPc.noConfusion
  | motRises =>
    simp only [step] at hstep
    split at hstep
    next hreading =>
      cases Option.some.inj hstep
      refine ⟨inv.collector, inv.enabled, inv.asleep, inv.unarmed, inv.armed, inv.fetch, ?_, ?_, ?_⟩
      · exact fun _ _ _ _ => hreading
      · exact fun _ _ => .inr hreading
      · intro _ hmot
        cases hmot
    next => simp at hstep
  | readPort levels =>
    simp only [step] at hstep
    split at hstep
    next hread =>
      cases Option.some.inj hstep
      refine ⟨inv.collector, inv.enabled, inv.asleep, inv.unarmed, inv.armed, inv.fetch, ?_, inv.high, inv.low⟩
      intro other hother hlow hmot
      cases Option.some.inj hother
      change s.mot = true at hmot
      rw [hread.2, hmot] at hlow
      cases hlow
    next => simp at hstep
  | serve =>
    obtain ⟨levels, hport, rfl⟩ := Option.map_eq_some_iff.mp hstep
    exact motionInv_serve inv hport
  | fetch =>
    simp only [step] at hstep
    split at hstep
    next hready =>
      cases Option.some.inj hstep
      obtain ⟨hruns, hin, hidle⟩ := hready
      refine ⟨inv.collector, inv.enabled, inv.asleep, inv.unarmed, inv.armed, fun _ => inFiller_iff.mp hin, ?_,
        fun _ _ => .inr rfl, inv.low⟩
      exact fun _ _ _ _ => rfl
    next => simp at hstep
  | fetched read =>
    simp only [step] at hstep
    split at hstep
    next hready =>
      cases Option.some.inj hstep
      obtain ⟨hruns, hreading⟩ := hready
      have hfrom := fromLevel_of_runs inv hruns
      refine ⟨inv.collector, inv.enabled, inv.asleep, inv.unarmed, inv.armed, ?_, ?_, ?_, inv.low⟩
      · intro _
        refine inv.fetch ?_
        rw [hreading]
        exact FetchPc.noConfusion
      · intro levels hport
        change s.port = some levels at hport
        rw [hruns.2.1] at hport
        cases hport
      · exact fun _ hmot => .inl (hfrom.trans hmot)
    next => simp at hstep
  | fill =>
    simp only [step] at hstep
    split at hstep
    next read _ =>
      split at hstep
      next hruns => exact motionInv_fill inv hruns hstep
      next => simp at hstep
    next => simp at hstep
  | collector a =>
    simp only [step] at hstep
    split at hstep
    next hmay =>
      obtain ⟨d, hd, rfl⟩ := Option.map_eq_some_iff.mp hstep
      exact motionInv_collector inv hmay hd
    next => simp at hstep

/-- An attended source has an event posted, and the thread is not blocked. -/
theorem motionSeen (inv : MotionInv source s) : MotionSeen source s := by
  rintro ⟨mask, hpc, hnone⟩ hport hpending
  cases hmot : s.mot with
  | true => rfl
  | false =>
    have hinit : s.initialized = true := by
      rw [← Bool.not_eq_false]
      intro hinit
      have hstart := inv.asleep hinit
      rw [hpc] at hstart
      cases hstart
    have hfrom := fromLevel_of_runs inv ⟨hinit, hport, hpending⟩
    have hattended := inv.low hinit hmot (hfrom.trans hmot)
    have hawaited : s.system.app.awaited source.sourceId = true := by
      refine hattended.resolve_right ?_
      rintro ⟨events, hfilling⟩
      rw [hpc] at hfilling
      cases hfilling
    have hnoticed := inv.collector.notified source.sourceId source.registered.2 hawaited
    have hevent := hnoticed.event_of_taken (by rw [Collector.taken, hpc])
    have hunmasked := CollectorWakeup.getLsbD_and_zero hnone hevent
    rw [inv.enabled.waiting mask hpc] at hunmasked
    cases hunmasked

/-- In every run the thread is never left blocked, without an interrupt to come, while the
sensor reports motion. -/
theorem run_motionSeen {mot : Bool} {trace : List (MotionWakeup × MotionStep)}
    (run : Run (step source) (reset mot) trace s) : AllStates (MotionSeen source) trace s := by
  have allowed : AllSteps (fun (_ : MotionWakeup) (_ : MotionStep) => True) trace :=
    fun _ _ => trivial
  have invariant : AllStates (MotionInv source) trace s :=
    run.invariant allowed (motionInv_reset mot) (fun _ _ _ inv _ hstep => motionInv_step inv hstep)
  exact invariant.imp (fun _ inv => motionSeen inv)

/-- The third of three sources, its pin 4. -/
def opticalSensor : OptSensorSource :=
  { numSources := 3, sourceId := 2, motPin := 4, surfQualThreshold := 120,
    registered := ⟨by decide, by decide⟩, motPin_lt := by decide }

/-- The pin falls after the thread has gone to sleep, stays low through a first burst, and goes
high in a second one; the thread ends up waiting again. -/
def lowThroughBurst : List MotionStep :=
  [.readPort 16#32, .serve, .collector .thread, .collector .thread, .collector .thread, .motFalls,
    .readPort 0#32, .serve, .collector .thread, .collector .thread, .collector .thread, .fetch,
    .fetched (.failed (- EIO)), .fill, .collector .thread, .collector .thread, .collector .thread,
    .collector .thread, .collector .thread, .collector .thread, .fetch, .motRises, .readPort 16#32,
    .serve, .fetched (.failed (- EIO)), .fill, .collector .thread, .collector .thread,
    .collector .thread]

theorem run_motionSeen_lowThroughBurst :
    ∃ (trace : List (MotionWakeup × MotionStep)) (s : MotionWakeup),
      Run (step opticalSensor) (reset true) trace s ∧
      trace.map Prod.snd = lowThroughBurst.reverse ∧ AllStates (MotionSeen opticalSensor) trace s := by
  have hreplay : (replay (step opticalSensor) (reset true) lowThroughBurst).any
      (fun s => decide (s.system.app.collector.pc = .waiting 0x80000007#32)) = true := by
    decide +kernel
  obtain ⟨trace, s, run, hlabels, -⟩ := exists_run_of_replay hreplay
  exact ⟨trace, s, run, hlabels, run_motionSeen run⟩

end MotionWakeup

end MyMouse
