import MyMouse.DebounceRun

namespace MyMouse

@[ext] structure PinView where
  level : Bool
  armed : Bool
  fromLevel : Bool
  gpioCallback : Option DebounceGpio
  userCallback : Option DebounceUser
  requested : Nat → Bool
  delivered : List Bool
  readAt : Bool
  changes : Nat
  registrations : Nat
  queueReady : Bool
  queue : Option ToggleQueue

namespace PinView

def lastDelivered (v : PinView) : Bool := v.delivered.headD v.readAt

def moveTo (v : PinView) (level : Bool) : PinView :=
  { v with level := level, changes := v.changes + 1 }

def initQueue (v : PinView) : PinView :=
  { v with queueReady := true, queue := some (toggleQueueInit !v.level), readAt := v.level,
           changes := 0 }

def register (v : PinView) (callback : DebounceUser) : PinView :=
  { v with armed := true, fromLevel := v.level, gpioCallback := some .debounceGpioCb,
           userCallback := some callback, delivered := [], readAt := v.level, changes := 0,
           registrations := v.registrations + 1 }

def disable (v : PinView) : PinView := { v with armed := false }

def serve (v : PinView) (cell : Nat) : PinView :=
  { v with requested := Function.update v.requested cell true,
           delivered := v.level :: v.delivered, changes := 0,
           queue := v.queue.map (fun q => (toggleQueuePut q !v.level).2) }

def tick (v : PinView) (head : Nat) : PinView :=
  { v with armed := v.armed || v.requested head,
           fromLevel := if v.requested head then v.level else v.fromLevel,
           gpioCallback := if v.requested head then some .debounceGpioCb else v.gpioCallback,
           requested := Function.update v.requested head false }

end PinView

def debounceUserOf (pin : Nat) : DebounceUser :=
  if pin ∈ buttonPins then .hidSrcButtonsInterruptCb else .other

/-- The invariant, pin by pin: the physical level is the level last delivered, toggled once
for each change since, and the queue of a button remembers the last delivery. -/
structure PinOk (pin : Nat) (v : PinView) : Prop where
  fresh : v.registrations = 0 → v.armed = false ∧ v.delivered = [] ∧ ∀ i, v.requested i = false
  gpio_callback : v.armed = true → v.gpioCallback = some .debounceGpioCb
  user_callback : 0 < v.registrations → v.userCallback = some (debounceUserOf pin)
  button : pin ∈ buttonPins → v.registrations ≤ 1 ∧ (0 < v.registrations → v.queueReady = true)
  ready : v.queueReady = true → pin ∈ buttonPins
  parity : v.registrations = 1 ∨ v.queueReady = true →
    v.level = (v.lastDelivered ^^ decide (v.changes % 2 = 1))
  armed_from : v.registrations = 1 → v.armed = true → v.fromLevel = v.lastDelivered
  alternate : v.registrations = 1 → (v.delivered ++ [v.readAt]).IsChain (· ≠ ·)
  queue_state : v.queueReady = true →
    ∃ h : ToggleHistory, v.queue = some h.queue ∧ h.state h.puts = !v.lastDelivered

namespace PinOk

variable {pin : Nat} {v : PinView}

theorem level_eq_of_even (h : PinOk pin v) (hreg : v.registrations = 1 ∨ v.queueReady = true)
    (even : v.changes % 2 = 0) : v.level = v.lastDelivered := by
  have hp := h.parity hreg
  simpa [even] using hp

theorem moveTo (h : PinOk pin v) {level : Bool} (hne : v.level ≠ level) :
    PinOk pin (v.moveTo level) := by
  refine ⟨h.fresh, h.gpio_callback, h.user_callback, h.button, h.ready, ?_, h.armed_from,
    h.alternate, h.queue_state⟩
  intro hreg
  have hp := h.parity hreg
  have hflip : level = !v.level := by
    cases level <;> cases hl : v.level <;> simp_all
  change level = (v.lastDelivered ^^ decide ((v.changes + 1) % 2 = 1))
  rw [hflip, hp]
  rcases Nat.mod_two_eq_zero_or_one v.changes with hc | hc
  · simp [hc, show (v.changes + 1) % 2 = 1 by omega]
  · simp [hc, show (v.changes + 1) % 2 = 0 by omega]

theorem initQueue (h : PinOk pin v) (hpin : pin ∈ buttonPins) (hreg : v.registrations = 0) :
    PinOk pin v.initQueue := by
  have hempty := (h.fresh hreg).2.1
  have hlast : v.initQueue.lastDelivered = v.level := by
    simp [PinView.lastDelivered, PinView.initQueue, hempty]
  refine ⟨h.fresh, h.gpio_callback, h.user_callback, fun hb => ⟨(h.button hb).1, fun _ => rfl⟩,
    fun _ => hpin, ?_, ?_, ?_, ?_⟩
  · intro _
    rw [hlast]
    simp [PinView.initQueue]
  · intro hone
    change v.registrations = 1 at hone
    omega
  · intro hone
    change v.registrations = 1 at hone
    omega
  · intro _
    refine ⟨ToggleHistory.start (!v.level), by rw [ToggleHistory.queue_start]; rfl, ?_⟩
    rw [hlast]
    simp [ToggleHistory.start]

/-- A button registered with an even number of changes since its queue was initialised is
registered from the level its queue stands for. -/
theorem register (h : PinOk pin v) (hready : pin ∈ buttonPins →
      v.queueReady = true ∧ v.registrations = 0 ∧ v.changes % 2 = 0) :
    PinOk pin (v.register (debounceUserOf pin)) := by
  refine ⟨by intro hz; simp [PinView.register] at hz, fun _ => rfl, fun _ => rfl, ?_, h.ready, ?_,
    fun _ _ => rfl, ?_, ?_⟩
  · intro hb
    obtain ⟨hr, hz, _⟩ := hready hb
    exact ⟨by simp [PinView.register, hz], fun _ => hr⟩
  · intro _
    simp [PinView.register, PinView.lastDelivered]
  · intro _
    simp [PinView.register]
  · intro hr
    obtain ⟨_, _, even⟩ := hready (h.ready hr)
    obtain ⟨history, hqueue, hstate⟩ := h.queue_state hr
    have hlevel := h.level_eq_of_even (Or.inr hr) even
    refine ⟨history, hqueue, ?_⟩
    rw [hstate, ← hlevel]
    rfl

theorem disable (h : PinOk pin v) : PinOk pin v.disable := by
  refine ⟨fun hz => ⟨rfl, (h.fresh hz).2⟩, fun ha => by simp [PinView.disable] at ha,
    h.user_callback, h.button, h.ready, h.parity, fun _ ha => by simp [PinView.disable] at ha,
    h.alternate, h.queue_state⟩

theorem serve (h : PinOk pin v) {cell : Nat} (hreg : 0 < v.registrations)
    (hdisabled : v.armed = false) (hnews : v.registrations = 1 → v.level ≠ v.lastDelivered) :
    PinOk pin (v.serve cell) := by
  have hlast : (v.serve cell).lastDelivered = v.level := rfl
  refine ⟨?_, ?_, h.user_callback, h.button, h.ready, ?_, ?_, ?_, ?_⟩
  · intro hz
    change v.registrations = 0 at hz
    omega
  · intro ha
    change v.armed = true at ha
    simp [hdisabled] at ha
  · intro _
    rw [hlast]
    simp [PinView.serve]
  · intro _ ha
    change v.armed = true at ha
    simp [hdisabled] at ha
  · intro hone
    have hchain := h.alternate hone
    have hne := hnews hone
    change (v.level :: (v.delivered ++ [v.readAt])).IsChain (· ≠ ·)
    refine List.isChain_cons.mpr ⟨?_, hchain⟩
    intro y hy
    have hhead : y = v.lastDelivered := by
      unfold PinView.lastDelivered
      cases hd : v.delivered with
      | nil => simp_all
      | cons d ds => simp_all
    rw [hhead]
    exact hne
  · intro hr
    have hb := h.ready hr
    have hone : v.registrations = 1 := by
      have := (h.button hb).1
      omega
    obtain ⟨history, hqueue, hstate⟩ := h.queue_state hr
    have hne := hnews hone
    have hevent : (!v.level) ≠ history.state history.puts := by
      rw [hstate]
      simpa using hne
    refine ⟨history.put, ?_, ?_⟩
    · change v.queue.map (fun q => (toggleQueuePut q !v.level).2) = some history.put.queue
      rw [hqueue, Option.map_some, history.put_accepted hevent]
    · rw [hlast, ToggleHistory.state_put]
      change history.state (history.puts + 1) = !v.level
      rw [history.state_succ, hstate, Bool.not_not]
      cases hl : v.level <;> cases hd : v.lastDelivered <;> simp_all

theorem serve_put_accepted (h : PinOk pin v) (hreg : 0 < v.registrations)
    (hnews : v.registrations = 1 → v.level ≠ v.lastDelivered) (hb : pin ∈ buttonPins) {q : ToggleQueue}
    (hq : v.queue = some q) : (toggleQueuePut q !v.level).1 ≠ -EINVAL := by
  have hready := (h.button hb).2 hreg
  have hone : v.registrations = 1 := by
    have := (h.button hb).1
    omega
  obtain ⟨history, hqueue, hstate⟩ := h.queue_state hready
  cases Option.some.inj (hq.symm.trans hqueue)
  have hevent : (!v.level) ≠ history.state history.puts := by
    rw [hstate]
    simpa using hnews hone
  rw [history.put_accepted hevent]
  cases v.level <;> simp [EINVAL]

theorem tick (h : PinOk pin v) {head : Nat}
    (even : v.requested head = true → v.registrations = 1 → v.changes % 2 = 0) :
    PinOk pin (v.tick head) := by
  cases hreq : v.requested head with
  | false =>
    have hsame : v.tick head = v := by
      ext1 <;> simp [PinView.tick, hreq]
    rw [hsame]
    exact h
  | true =>
    refine ⟨?_, ?_, h.user_callback, h.button, h.ready, h.parity, ?_, h.alternate, h.queue_state⟩
    · intro hz
      have := (h.fresh hz).2.2 head
      simp [hreq] at this
    · intro _
      simp [PinView.tick, hreq]
    · intro hone _
      have hlevel := h.level_eq_of_even (Or.inl hone) (even hreq hone)
      simp only [PinView.tick, hreq, if_true]
      exact hlevel

end PinOk

end MyMouse
