import MyMouse.ButtonQueues
import MyMouse.DebouncePin
import MyMouse.Run

namespace MyMouse

open BitMask Runs

namespace DebouncePort

variable {numShifts pin : Nat} {s t : DebouncePort}

def view (s : DebouncePort) (pin : Nat) : PinView :=
  { level := s.level.getLsbD pin
    armed := s.armed pin
    fromLevel := s.fromLevel pin
    gpioCallback := s.system.gpio.callbacks pin
    userCallback := s.debounce.callbacks pin
    requested := fun i => (s.debounce.shiftarr i).getLsbD pin
    delivered := s.users.delivered pin
    readAt := s.users.readAt pin
    changes := s.users.changes pin
    registrations := s.users.registrations pin
    queueReady := s.users.queueReady pin
    queue := (queueForPin buttonPins pin).map s.users.buttons.queues }

structure Inv (s : DebouncePort) : Prop where
  pins : ∀ pin < 32, PinOk pin (s.view pin)
  in_port : ∀ pin, 0 < s.users.registrations pin → pin < 32
  put_accepted : -EINVAL ∉ s.users.putResults

theorem buttonPins_lt (h : pin ∈ buttonPins) : pin < 32 := by
  simp only [buttonPins, List.mem_cons, List.not_mem_nil, or_false] at h
  omega

theorem inv_reset (level : BitVec 32) : Inv (reset level) := by
  refine ⟨?_, by simp [reset, users], by simp [reset, users]⟩
  intro pin _
  refine ⟨fun _ => ⟨?_, rfl, ?_⟩, ?_, ?_, ?_, ?_, ?_, ?_, ?_, ?_⟩
  · simp [view, reset, armed, Gpio.reset]
  · intro i
    simp [view, reset, debounce, Debounce.reset]
  · intro ha
    simp [view, reset, armed, Gpio.reset] at ha
  · intro hr
    simp [view, reset, users] at hr
  · intro _
    exact ⟨Nat.zero_le 1, fun hr => by simp [view, reset, users] at hr⟩
  all_goals
    intro hr
    simp [view, reset, users] at hr

theorem view_pinLevel {level : Bool} {other : Nat} (hlt : other < 32) :
    view { s.mapUsers (fun u => { u with
        changes := Function.update u.changes pin (u.changes pin + 1) }) with
      level := writeBit s.level pin level } other =
      if other = pin then (s.view pin).moveTo level else s.view other := by
  by_cases heq : other = pin
  · subst heq
    rw [if_pos rfl]
    ext1 <;> simp [view, mapUsers, PinView.moveTo, users, armed, fromLevel, debounce,
      getLsbD_writeBit hlt]
  · rw [if_neg heq]
    ext1 <;> simp [view, mapUsers, users, armed, fromLevel, debounce, heq, getLsbD_writeBit hlt]

/-- A change of the queue of `pin` is none of another pin's. -/
theorem map_update_queue {i : Nat} (hi : queueForPin buttonPins pin = some i) {other : Nat}
    (heq : other ≠ pin) (queues : Nat → ToggleQueue) (queue : ToggleQueue) :
    (queueForPin buttonPins other).map (Function.update queues i queue) =
      (queueForPin buttonPins other).map queues := by
  cases ho : queueForPin buttonPins other with
  | none => rfl
  | some j =>
    have hne : j ≠ i := by
      rintro rfl
      exact heq (queueForPin_injective buttonPins_ne_nil buttonPins_nodup ho hi)
    simp [hne]

theorem view_initQueue (hpin : pin ∈ buttonPins) {other : Nat} :
    view (s.mapUsers (·.recordInitQueue pin (s.level.getLsbD pin))) other =
      if other = pin then (s.view pin).initQueue else s.view other := by
  obtain ⟨i, hi⟩ := (exists_queueForPin_iff buttonPins_ne_nil buttonPins_nodup).mpr hpin
  by_cases heq : other = pin
  · subst heq
    rw [if_pos rfl]
    ext1 <;> simp [view, mapUsers, PinView.initQueue, users, armed, fromLevel, debounce,
      DebounceUsers.recordInitQueue, ButtonsSource.initQueue, hi]
  · rw [if_neg heq]
    have hqueue : (queueForPin buttonPins other).map
        (s.users.buttons.initQueue pin (s.level.getLsbD pin)).queues =
        (queueForPin buttonPins other).map s.users.buttons.queues := by
      simp only [ButtonsSource.initQueue, hi]
      exact map_update_queue hi heq _ _
    ext1
    case queue => exact hqueue
    all_goals simp [view, mapUsers, users, armed, fromLevel, debounce,
      DebounceUsers.recordInitQueue, heq]

/-- The state after `debounce_set_edge_cb`, whoever calls it. -/
def registered (s : DebouncePort) (pin : Nat) (callback : DebounceUser) : DebouncePort :=
  { s.mapUsers (·.recordRegistration pin (s.level.getLsbD pin)) with
    system := debounceSetEdgeCb pin (s.level.getLsbD pin) callback
      (s.mapUsers (·.recordRegistration pin (s.level.getLsbD pin))).system }

theorem view_registered {callback : DebounceUser} {other : Nat} (hlt : other < 32) :
    view (s.registered pin callback) other =
      if other = pin then (s.view pin).register callback else s.view other := by
  by_cases heq : other = pin
  · subst heq
    rw [if_pos rfl]
    ext1 <;> simp [view, registered, mapUsers, PinView.register, users, armed, fromLevel, debounce,
      DebounceUsers.recordRegistration, debounceSetEdgeCb, WithGpio.mapGpio, WithGpio.mapDebounce,
      gpioSetEdgeCb_enabled hlt, gpioSetEdgeCb_fromLevel hlt, gpioSetEdgeCb_callbacks hlt]
  · rw [if_neg heq]
    ext1 <;> simp [view, registered, mapUsers, users, armed, fromLevel, debounce,
      DebounceUsers.recordRegistration, debounceSetEdgeCb, WithGpio.mapGpio, WithGpio.mapDebounce,
      gpioSetEdgeCb_enabled hlt, gpioSetEdgeCb_fromLevel hlt, gpioSetEdgeCb_callbacks hlt, heq]

def disabled (s : DebouncePort) (pinmask : BitVec 32) : DebouncePort :=
  { s with system := s.system.mapGpio (·.disable pinmask) }

theorem view_disabled {pinmask : BitVec 32} (hlt : pin < 32) :
    view (s.disabled pinmask) pin =
      if pinmask.getLsbD pin then (s.view pin).disable else s.view pin := by
  cases hbit : pinmask.getLsbD pin with
  | true =>
    rw [if_pos rfl]
    ext1
    case armed =>
      change (s.system.gpio.disable pinmask).gpioIntEnabled.getLsbD pin = false
      rw [disable_enabled hlt, hbit]
      simp
    all_goals rfl
  | false =>
    rw [if_neg (by simp)]
    ext1
    case armed =>
      change (s.system.gpio.disable pinmask).gpioIntEnabled.getLsbD pin = _
      rw [disable_enabled hlt, hbit]
      simp [view, armed]
    all_goals rfl

def served (numShifts : Nat) (s : DebouncePort) (pin : Nat) : DebouncePort :=
  { s with
    system := gpioteServePin
      (fun _ pin newLevel => debounceGpioCb numShifts userCall pin newLevel) s.level s.system pin }

theorem foldl_served (pins : List Nat) :
    pins.foldl (served numShifts) s = { s with
      system := pins.foldl (gpioteServePin
        (fun _ pin newLevel => debounceGpioCb numShifts userCall pin newLevel) s.level)
        s.system } := by
  induction pins generalizing s with
  | nil => rfl
  | cons first pins ih =>
    rw [List.foldl_cons, ih]
    rfl

theorem edgeIrq_eq : s.edgeIrq numShifts =
    (setBits (s.system.gpio.interruptsFrom s.level)).foldl (served numShifts)
      (s.disabled (s.system.gpio.interruptsFrom s.level)) := by
  rw [foldl_served]
  unfold edgeIrq debounceIrqHandler gpioteIrqHandler
  rw [whileBits_eq_foldl]
  rfl

theorem served_eq {gpioCallback : DebounceGpio} {callback : DebounceUser}
    (hgpio : s.system.gpio.callbacks pin = some gpioCallback)
    (huser : s.debounce.callbacks pin = some callback) :
    s.served numShifts pin = { s with
      system :=
        { gpio := s.system.gpio.cfgSenseSet pin .noSense
          app :=
            { debounce := s.debounce.request numShifts pin
              users := s.users.call callback pin (s.level.getLsbD pin) } } } := by
  have hd : (s.system.app.debounce.request numShifts pin).callbacks pin = some callback := huser
  simp only [served, gpioteServePin, WithGpio.mapGpio, cfgSenseSet_callbacks, hgpio, debounceGpioCb,
    WithGpio.mapDebounce, hd, userCall]
  rfl

/-- Beyond the record of the delivery, a user callback touches the buttons source only. -/
theorem call_frame (callback : DebounceUser) (pin : Nat) (newLevel : Bool) (u : DebounceUsers) :
    u.call callback pin newLevel = { u.recordDelivery pin newLevel with
      buttons := (u.call callback pin newLevel).buttons
      putResults := (u.call callback pin newLevel).putResults } := by
  cases callback with
  | other => rfl
  | hidSrcButtonsInterruptCb =>
    simp only [DebounceUsers.call]
    cases hidSrcButtonsInterruptCb pin newLevel (u.recordDelivery pin newLevel).buttons <;> rfl

@[simp] theorem userCall_registrations {callback : DebounceUser} {newLevel : Bool}
    {w : DebounceSystem DebounceUser DebounceUsers} :
    (userCall callback pin newLevel w).app.users.registrations = w.app.users.registrations := by
  change (w.app.users.call callback pin newLevel).registrations = _
  rw [call_frame]
  rfl

theorem served_registrations :
    (s.served numShifts pin).users.registrations = s.users.registrations := by
  simp only [users, served, gpioteServePin, WithGpio.mapGpio, cfgSenseSet_callbacks]
  split
  next =>
    simp only [debounceGpioCb, WithGpio.mapDebounce]
    split
    next => exact userCall_registrations
    next => rfl
  next => rfl

theorem request_bit {d : Debounce DebounceUser} {other i : Nat} (hlt : other < 32) :
    ((d.request numShifts pin).shiftarr i).getLsbD other =
      if i = d.circularIndexToPhys numShifts numShifts ∧ other = pin then true
      else (d.shiftarr i).getLsbD other := by
  simp only [Debounce.request, Function.update_apply]
  by_cases hi : i = d.circularIndexToPhys numShifts numShifts
  · simp [hi, getLsbD_writeBit hlt]
  · simp [hi]

theorem view_served (hlt : pin < 32) (hok : PinOk pin (s.view pin))
    (hgpio : s.system.gpio.callbacks pin = some .debounceGpioCb)
    (hreg : 0 < s.users.registrations pin) {other : Nat} (hother : other < 32) :
    view (s.served numShifts pin) other =
      if other = pin then
        (s.view pin).serve (s.debounce.circularIndexToPhys numShifts numShifts)
      else s.view other := by
  have huser : s.debounce.callbacks pin = some (debounceUserOf pin) := hok.user_callback hreg
  rw [served_eq hgpio huser]
  have hqueue : (queueForPin buttonPins other).map
      (s.users.call (debounceUserOf pin) pin (s.level.getLsbD pin)).buttons.queues =
      if other = pin then ((queueForPin buttonPins pin).map s.users.buttons.queues).map
        (fun q => (toggleQueuePut q !s.level.getLsbD pin).2)
      else (queueForPin buttonPins other).map s.users.buttons.queues := by
    by_cases hb : pin ∈ buttonPins
    · obtain ⟨i, hi⟩ := (exists_queueForPin_iff buttonPins_ne_nil buttonPins_nodup).mpr hb
      simp only [debounceUserOf, if_pos hb, DebounceUsers.call, DebounceUsers.recordDelivery,
        hidSrcButtonsInterruptCb, hi]
      by_cases heq : other = pin
      · subst heq
        simp [hi]
      · rw [if_neg heq]
        exact map_update_queue hi heq _ _
    · simp only [debounceUserOf, if_neg hb, DebounceUsers.call, DebounceUsers.recordDelivery]
      by_cases heq : other = pin
      · subst heq
        simp [(queueForPin_eq_none_iff buttonPins_ne_nil buttonPins_nodup).mpr hb]
      · rw [if_neg heq]
  have hframe := call_frame (debounceUserOf pin) pin (s.level.getLsbD pin) s.users
  generalize s.users.call (debounceUserOf pin) pin (s.level.getLsbD pin) = u at *
  by_cases heq : other = pin
  · subst heq
    rw [if_pos rfl]
    ext1
    case queue => exact hqueue.trans (if_pos rfl)
    case requested =>
      funext i
      change ((s.debounce.request numShifts other).shiftarr i).getLsbD other = _
      rw [request_bit hother]
      simp [PinView.serve, view, Function.update_apply]
    all_goals
      rw [hframe]
      simp [view, PinView.serve, users, armed, fromLevel, debounce, Debounce.request,
        DebounceUsers.recordDelivery]
  · rw [if_neg heq]
    ext1
    case queue => exact hqueue.trans (if_neg heq)
    case requested =>
      funext i
      change ((s.debounce.request numShifts pin).shiftarr i).getLsbD other = _
      rw [request_bit hother]
      simp [view, heq]
    all_goals
      rw [hframe]
      simp [view, users, armed, fromLevel, debounce, Debounce.request,
        DebounceUsers.recordDelivery, heq]

structure Due (v : PinView) : Prop where
  disabled : v.armed = false
  callback : v.gpioCallback = some .debounceGpioCb
  registered : 0 < v.registrations
  news : v.registrations = 1 → v.level ≠ v.lastDelivered

theorem inv_served (h : Inv s) (hlt : pin < 32) (due : Due (s.view pin)) :
    Inv (s.served numShifts pin) := by
  have hok := h.pins pin hlt
  refine ⟨?_, by rw [served_registrations]; exact h.in_port, ?_⟩
  · intro other hother
    rw [view_served hlt hok due.callback due.registered hother]
    by_cases heq : other = pin
    · subst heq
      rw [if_pos rfl]
      exact hok.serve due.registered due.disabled due.news
    · rw [if_neg heq]
      exact h.pins other hother
  · have huser : s.debounce.callbacks pin = some (debounceUserOf pin) :=
      hok.user_callback due.registered
    rw [served_eq due.callback huser]
    change -EINVAL ∉ (s.users.call (debounceUserOf pin) pin (s.level.getLsbD pin)).putResults
    by_cases hb : pin ∈ buttonPins
    · obtain ⟨i, hi⟩ := (exists_queueForPin_iff buttonPins_ne_nil buttonPins_nodup).mpr hb
      have hq : (s.view pin).queue = some (s.users.buttons.queues i) := by
        simp [view, hi]
      have haccepted := hok.serve_put_accepted due.registered due.news hb hq
      simp only [debounceUserOf, if_pos hb, DebounceUsers.call, DebounceUsers.recordDelivery,
        hidSrcButtonsInterruptCb, hi, List.mem_cons, not_or]
      exact ⟨Ne.symm haccepted, h.put_accepted⟩
    · simp only [debounceUserOf, if_neg hb, DebounceUsers.call, DebounceUsers.recordDelivery]
      exact h.put_accepted

theorem inv_foldl_served (numShifts : Nat) (pins : List Nat) (nodup : pins.Nodup) (h : Inv s)
    (due : ∀ pin ∈ pins, pin < 32 ∧ Due (s.view pin)) :
    Inv (pins.foldl (served numShifts) s) ∧ ∀ other < 32,
      (other ∉ pins → view (pins.foldl (served numShifts) s) other = s.view other) ∧
      (other ∈ pins →
        (view (pins.foldl (served numShifts) s) other).lastDelivered = (s.view other).level) := by
  induction pins generalizing s with
  | nil => exact ⟨h, fun other _ => ⟨fun _ => rfl, fun hm => by simp at hm⟩⟩
  | cons first pins ih =>
    obtain ⟨hfirst, hnodup⟩ := List.nodup_cons.mp nodup
    obtain ⟨hlt, hdue⟩ := due first (by simp)
    have hview : ∀ other < 32, other ≠ first →
        view (s.served numShifts first) other = s.view other := by
      intro other hother hne
      rw [view_served hlt (h.pins first hlt) hdue.callback hdue.registered hother, if_neg hne]
    have hrest : ∀ pin ∈ pins, pin < 32 ∧ Due (view (s.served numShifts first) pin) := by
      intro pin hpin
      obtain ⟨hpinlt, hpindue⟩ := due pin (by simp [hpin])
      have hne : pin ≠ first := by
        rintro rfl
        exact hfirst hpin
      exact ⟨hpinlt, by rw [hview pin hpinlt hne]; exact hpindue⟩
    obtain ⟨hinv, hothers⟩ := ih hnodup (inv_served h hlt hdue) hrest
    refine ⟨hinv, ?_⟩
    intro other hother
    obtain ⟨hout, hin⟩ := hothers other hother
    rw [List.foldl_cons]
    constructor
    · intro hmem
      simp only [List.mem_cons, not_or] at hmem
      rw [hout hmem.2, hview other hother hmem.1]
    · intro hmem
      by_cases heq : other = first
      · subst heq
        rw [hout hfirst, view_served hlt (h.pins other hlt) hdue.callback hdue.registered hother,
          if_pos rfl]
        rfl
      · have hmem' : other ∈ pins := by simpa [heq] using hmem
        rw [hin hmem', hview other hother heq]

theorem inv_disabled (h : Inv s) (pinmask : BitVec 32) : Inv (s.disabled pinmask) := by
  refine ⟨?_, h.in_port, h.put_accepted⟩
  intro pin hlt
  rw [view_disabled hlt]
  split
  next => exact (h.pins pin hlt).disable
  next => exact h.pins pin hlt

/-- A pass of the interrupt handler keeps the invariant and brings every armed pin's user
up to date. -/
theorem inv_edgeIrq (h : Inv s) : Inv (s.edgeIrq numShifts) ∧
    ∀ pin < 32, s.users.registrations pin = 1 → s.armed pin = true →
      (view (s.edgeIrq numShifts) pin).lastDelivered = s.level.getLsbD pin := by
  rw [edgeIrq_eq]
  generalize hmask : s.system.gpio.interruptsFrom s.level = pinmask
  have hbit : ∀ pin, pinmask.getLsbD pin =
      ((s.level.getLsbD pin != s.fromLevel pin) && s.armed pin) := by
    intro pin
    rw [← hmask, interruptsFrom_bit]
    rfl
  have due : ∀ pin ∈ setBits pinmask, pin < 32 ∧ Due (view (s.disabled pinmask) pin) := by
    intro pin hpin
    have hset := mem_setBits.mp hpin
    have hlt := BitVec.lt_of_getLsbD hset
    have hok := h.pins pin hlt
    have hcond := hbit pin
    rw [hset] at hcond
    obtain ⟨hne, harmed⟩ := Bool.and_eq_true_iff.mp hcond.symm
    have hreg : 0 < s.users.registrations pin := by
      rcases Nat.eq_zero_or_pos (s.users.registrations pin) with hz | hpos
      · have hunarmed : s.armed pin = false := (hok.fresh hz).1
        simp [harmed] at hunarmed
      · exact hpos
    rw [view_disabled hlt, if_pos hset]
    refine ⟨hlt, rfl, hok.gpio_callback harmed, hreg, ?_⟩
    intro hone
    have hfrom : s.fromLevel pin = (s.view pin).lastDelivered := hok.armed_from hone harmed
    have hdiff : s.level.getLsbD pin ≠ s.fromLevel pin := by simpa using hne
    rw [hfrom] at hdiff
    exact hdiff
  obtain ⟨hinv, hothers⟩ :=
    inv_foldl_served numShifts _ (setBits_nodup pinmask) (inv_disabled h pinmask) due
  refine ⟨hinv, ?_⟩
  intro pin hlt hone harmed
  obtain ⟨hout, hin⟩ := hothers pin hlt
  by_cases hset : pinmask.getLsbD pin = true
  · rw [hin (mem_setBits.mpr hset)]
    rfl
  · have hsame : s.level.getLsbD pin = s.fromLevel pin := by
      have hcond := hbit pin
      rw [Bool.eq_false_iff.mpr hset, harmed, Bool.and_true] at hcond
      simpa using hcond.symm
    rw [hout (by rw [mem_setBits]; exact hset), view_disabled hlt, if_neg hset, hsame]
    exact ((h.pins pin hlt).armed_from hone harmed).symm

theorem view_timerTick {other : Nat} (hlt : other < 32) :
    view { s with system := debounceTimerCb numShifts s.level s.system } other =
      (s.view other).tick (s.debounce.circularIndexToPhys numShifts 1) := by
  generalize hhead : s.debounce.circularIndexToPhys numShifts 1 = head
  have hrotate : (s.system.app.debounce.rotateBuffer numShifts).shiftarrCell0Index = head := hhead
  by_cases hz : s.debounce.shiftarr head = 0#32
  · have hreq : (s.view other).requested head = false := by
      simp [view, hz]
    have hrequests : (s.system.app.debounce.rotateBuffer numShifts).shiftarr head = 0#32 := hz
    have htick : (s.view other).tick head = s.view other := by
      ext1 <;> simp [PinView.tick, hreq]
    rw [htick]
    simp only [debounceTimerCb, WithGpio.mapDebounce, hrotate, hrequests, ne_eq, not_true_eq_false,
      if_false]
    rfl
  · have hrequests : (s.system.app.debounce.rotateBuffer numShifts).shiftarr head =
        s.debounce.shiftarr head := rfl
    simp only [debounceTimerCb, WithGpio.mapDebounce, WithGpio.mapGpio, hrotate, hrequests, ne_eq, hz,
      not_false_eq_true, if_true]
    ext1
    case armed => exact gpioSetEdgeCbMask_enabled
    case fromLevel => exact gpioSetEdgeCbMask_fromLevel hlt
    case gpioCallback => exact gpioSetEdgeCbMask_callbacks
    case requested =>
      funext i
      by_cases hi : i = head
      · simp [view, debounce, Debounce.finishMove, PinView.tick, hi]
      · simp [view, debounce, Debounce.finishMove, PinView.tick, hi, Debounce.rotateBuffer]
    all_goals rfl

theorem inv_timerTick (h : Inv s) (even : ChangesEven numShifts s .timerTick) :
    Inv { s with system := debounceTimerCb numShifts s.level s.system } := by
  have husers : users { s with system := debounceTimerCb numShifts s.level s.system } = s.users := by
    simp only [users, debounceTimerCb]
    split <;> rfl
  refine ⟨?_, by rw [husers]; exact h.in_port, by rw [husers]; exact h.put_accepted⟩
  intro pin hlt
  rw [view_timerTick hlt]
  exact (h.pins pin hlt).tick (fun hreq hone => even pin hlt hreq hone)

theorem inv_registered (h : Inv s) (hlt : pin < 32) (hready : pin ∈ buttonPins → s.users.queueReady pin = true ∧
      s.users.registrations pin = 0 ∧ s.users.changes pin % 2 = 0) :
    Inv (s.registered pin (debounceUserOf pin)) := by
  refine ⟨?_, ?_, h.put_accepted⟩
  · intro other hother
    rw [view_registered hother]
    by_cases heq : other = pin
    · subst heq
      rw [if_pos rfl]
      exact (h.pins other hlt).register hready
    · rw [if_neg heq]
      exact h.pins other hother
  · intro other hreg
    by_cases heq : other = pin
    · rw [heq]
      exact hlt
    · change 0 < Function.update s.users.registrations pin _ other at hreg
      rw [Function.update_of_ne heq] at hreg
      exact h.in_port other hreg

theorem inv_step {a : DebounceStep} (h : Inv s) (even : ChangesEven numShifts s a)
    (hstep : step numShifts s a = some t) : Inv t := by
  cases a with
  | pinLevel pin level =>
    simp only [step] at hstep
    split at hstep
    next => cases Option.some.inj hstep; exact h
    next hne =>
      cases Option.some.inj hstep
      refine ⟨?_, h.in_port, h.put_accepted⟩
      intro other hlt
      rw [view_pinLevel hlt]
      by_cases heq : other = pin
      · subst heq
        rw [if_pos rfl]
        exact (h.pins other hlt).moveTo hne
      · rw [if_neg heq]
        exact h.pins other hlt
  | buttonsInitQueue pin =>
    simp only [step] at hstep
    split at hstep
    next hc =>
      cases Option.some.inj hstep
      refine ⟨?_, h.in_port, h.put_accepted⟩
      intro other hlt
      rw [view_initQueue hc.1]
      by_cases heq : other = pin
      · subst heq
        rw [if_pos rfl]
        exact (h.pins other hlt).initQueue hc.1 hc.2
      · rw [if_neg heq]
        exact h.pins other hlt
    next => simp at hstep
  | debounceSetEdgeCb pin callback =>
    cases callback with
    | hidSrcButtonsInterruptCb =>
      simp only [step] at hstep
      split at hstep
      next hc =>
        cases Option.some.inj hstep
        have huser : debounceUserOf pin = .hidSrcButtonsInterruptCb := if_pos hc.1
        have hinv := inv_registered h (buttonPins_lt hc.1) (fun _ => ⟨hc.2.1, hc.2.2, even⟩)
        rw [huser] at hinv
        exact hinv
      next => simp at hstep
    | other =>
      simp only [step] at hstep
      split at hstep
      next hc =>
        cases Option.some.inj hstep
        have huser : debounceUserOf pin = .other := if_neg hc.2
        have hinv := inv_registered h hc.1 (fun hb => absurd hb hc.2)
        rw [huser] at hinv
        exact hinv
      next => simp at hstep
  | edgeIrq =>
    cases Option.some.inj hstep
    exact (inv_edgeIrq h).1
  | timerTick =>
    simp only [step] at hstep
    split at hstep
    next =>
      cases Option.some.inj hstep
      exact inv_timerTick h even
    next => simp at hstep

theorem noLevelLost_of_inv (h : Inv s) : NoLevelLost numShifts s := by
  refine ⟨?_, ?_, h.put_accepted, ?_⟩
  · intro pin hone harmed
    have hlt := h.in_port pin (by omega)
    exact (h.pins pin hlt).armed_from hone harmed
  · intro pin hone
    have hlt := h.in_port pin (by omega)
    exact (h.pins pin hlt).alternate hone
  · intro pin hone harmed
    have hlt := h.in_port pin (by omega)
    exact (inv_edgeIrq h).2 pin hlt hone harmed

/-- No level is lost in a run in which every level a pin is re-armed from is the one last
delivered, that is, in which the pin has changed an even number of times meanwhile. -/
theorem no_level_lost {level : BitVec 32} {trace : List (DebouncePort × DebounceStep)}
    (run : Run (step numShifts) (reset level) trace s)
    (even : AllSteps (ChangesEven numShifts) trace) :
    AllStates (NoLevelLost numShifts) trace s := by
  have invariant := run.invariant even (inv_reset level)
    (fun s a t hs hok hstep => inv_step hs hok hstep)
  exact invariant.imp (fun s hs => noLevelLost_of_inv hs)

/-- The left button is pressed, bounces twice in its blind window and is released later. -/
def evenBounce : List DebounceStep :=
  [.buttonsInitQueue 15, .debounceSetEdgeCb 15 .hidSrcButtonsInterruptCb, .pinLevel 15 false,
    .edgeIrq, .timerTick, .pinLevel 15 true, .timerTick, .pinLevel 15 false, .timerTick,
    .timerTick, .timerTick, .timerTick, .timerTick, .pinLevel 15 true, .edgeIrq]

theorem no_level_lost_evenBounce :
    ∃ (trace : List (DebouncePort × DebounceStep)) (s : DebouncePort),
      Run (step 7) (reset 0x8000#32) trace s ∧ trace.map Prod.snd = evenBounce.reverse ∧
      AllStates (NoLevelLost 7) trace s := by
  have replayed :
      (replay (guarded (ChangesEven 7) (step 7)) (reset 0x8000#32) evenBounce).isSome = true := by
    decide +kernel
  obtain ⟨trace, s, run, even, labels⟩ := exists_allowed_run replayed
  exact ⟨trace, s, run, labels, no_level_lost run even⟩

/-- The left button is pressed and released again within its blind window, and then pressed
once more. -/
def oddBounce : List DebounceStep :=
  [.buttonsInitQueue 15, .debounceSetEdgeCb 15 .hidSrcButtonsInterruptCb, .pinLevel 15 false,
    .edgeIrq, .pinLevel 15 true, .timerTick, .timerTick, .timerTick, .timerTick, .timerTick,
    .timerTick, .timerTick]

def nextPress : List DebounceStep := [.pinLevel 15 false, .edgeIrq]

/-- After the blind window the button is armed from a level that was never delivered; its
next press is delivered as a second press, which the toggle queue refuses. -/
theorem level_lost_oddBounce :
    (∃ (trace : List (DebouncePort × DebounceStep)) (s : DebouncePort),
      Run (step 7) (reset 0x8000#32) trace s ∧ trace.map Prod.snd = oddBounce.reverse ∧
      s.users.registrations 15 = 1 ∧ s.armed 15 = true ∧
      s.fromLevel 15 ≠ s.users.lastDelivered 15 ∧
      (s.edgeIrq 7).users.lastDelivered 15 ≠ s.level.getLsbD 15) ∧
    ∃ (trace : List (DebouncePort × DebounceStep)) (s : DebouncePort),
      Run (step 7) (reset 0x8000#32) trace s ∧
      trace.map Prod.snd = (oddBounce ++ nextPress).reverse ∧
      s.users.delivered 15 = [false, false] ∧ -EINVAL ∈ s.users.putResults := by
  constructor
  · obtain ⟨trace, s, run, labels, hs⟩ := exists_run_of_replay
      (p := fun (s : DebouncePort) => decide (s.users.registrations 15 = 1) && s.armed 15 &&
        (s.fromLevel 15 != s.users.lastDelivered 15) &&
        ((s.edgeIrq 7).users.lastDelivered 15 != s.level.getLsbD 15))
      (show (replay (step 7) (reset 0x8000#32) oddBounce).any _ = true by decide +kernel)
    simp only [Bool.and_eq_true, decide_eq_true_eq, bne_iff_ne] at hs
    obtain ⟨⟨⟨registered, armed⟩, stale⟩, unsettled⟩ := hs
    exact ⟨trace, s, run, labels, registered, armed, stale, unsettled⟩
  · obtain ⟨trace, s, run, labels, hs⟩ := exists_run_of_replay
      (p := fun (s : DebouncePort) => decide (s.users.delivered 15 = [false, false]) &&
        decide (-EINVAL ∈ s.users.putResults))
      (show (replay (step 7) (reset 0x8000#32)
        (oddBounce ++ nextPress)).any _ = true by decide +kernel)
    simp only [Bool.and_eq_true, decide_eq_true_eq] at hs
    exact ⟨trace, s, run, labels, hs.1, hs.2⟩

end DebouncePort

end MyMouse
