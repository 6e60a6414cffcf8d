import Mathlib.Data.List.Nodup
import MyMouse.Gpio
import MyMouse.Run

namespace MyMouse

open BitMask Runs

/-- A call of the driver, from a thread or from a callback. -/
inductive GpioCall (κ : Type)
  | setEdgeCbMask (pinmask fromLevel : BitVec 32) (callback : κ)
  | unsetEdgeCbMask (pinmask : BitVec 32)
  deriving DecidableEq

variable {κ : Type}

namespace GpioCall

def run (g : Gpio κ) : GpioCall κ → Gpio κ
  | .setEdgeCbMask pinmask fromLevel callback => gpioSetEdgeCbMask pinmask fromLevel callback g
  | .unsetEdgeCbMask pinmask => gpioUnsetEdgeCbMask pinmask g

/-- Whether the call arms or disarms `pin`, if it concerns it. -/
def touch (pin : Nat) : GpioCall κ → Option Bool
  | .setEdgeCbMask pinmask _ _ => if pinmask.getLsbD pin then some true else none
  | .unsetEdgeCbMask pinmask => if pinmask.getLsbD pin then some false else none

/-- What the last of the calls that concern `pin` did to it. -/
def lastTouch (pin : Nat) (calls : List (GpioCall κ)) : Option Bool :=
  lastSome (touch pin) calls

end GpioCall

/-- A callback is entered in the log with its arguments and makes the calls `reenter` has
for its pin. -/
def reentrantCallback (reenter : Nat → List (GpioCall κ)) (callback : κ) (pin : Nat)
    (newLevel : Bool) (s : WithGpio κ (List (κ × Nat × Bool))) :
    WithGpio κ (List (κ × Nat × Bool)) :=
  { gpio := (reenter pin).foldl GpioCall.run s.gpio, app := s.app ++ [(callback, pin, newLevel)] }

/-- A pass of `gpiote_irq_handler`, with the callbacks it calls. -/
def handlerPass (levels : BitVec 32) (reenter : Nat → List (GpioCall κ)) (g : Gpio κ) :
    WithGpio κ (List (κ × Nat × Bool)) :=
  gpioteIrqHandler (reentrantCallback reenter) levels ⟨g, []⟩

inductive GpioEvent (κ : Type)
  | call (call : GpioCall κ)
  | irq (levels : BitVec 32) (reenter : Nat → List (GpioCall κ))

namespace Gpio

def step (g : Gpio κ) : GpioEvent κ → Option (Gpio κ)
  | .call call => some (call.run g)
  | .irq levels reenter => some (handlerPass levels reenter g).gpio

/-- What the driver and the hardware hold about one pin. -/
structure Book where
  enabled : Bool
  fromLevel : Bool
  sense : PinSense
  deriving DecidableEq

def book (g : Gpio κ) (pin : Nat) : Book :=
  ⟨g.gpioIntEnabled.getLsbD pin, g.gpioIntFromLevel.getLsbD pin, g.sense pin⟩

def Book.Matches (b : Book) : Prop :=
  b.sense = if b.enabled then senseFrom b.fromLevel else .noSense

instance (b : Book) : Decidable b.Matches :=
  inferInstanceAs (Decidable (_ = _))

def Book.call (pin : Nat) (b : Book) : GpioCall κ → Book
  | .setEdgeCbMask pinmask fromLevel _ =>
    if pinmask.getLsbD pin then
      ⟨true, fromLevel.getLsbD pin, senseFrom (fromLevel.getLsbD pin)⟩
    else b
  | .unsetEdgeCbMask pinmask =>
    if pinmask.getLsbD pin then { b with enabled := false, sense := .noSense } else b

/-- The SENSE field of every pin is what the two masks say. -/
def Consistent (g : Gpio κ) : Prop :=
  ∀ pin < 32, (g.book pin).Matches

instance (g : Gpio κ) : Decidable (Consistent g) :=
  inferInstanceAs (Decidable (∀ pin < 32, _))

/-- The handler serves no pin that callbacks it called before have armed, unless that pin's
callback or a later one concerns the pin once more. -/
def RearmsLate (reenter : Nat → List (GpioCall κ)) : List (GpioCall κ) → List Nat → Prop
  | _, [] => True
  | before, pin :: pins =>
    (GpioCall.lastTouch pin before = some true →
      GpioCall.lastTouch pin ((pin :: pins).flatMap reenter) ≠ none) ∧
    RearmsLate reenter (before ++ reenter pin) pins

instance decidableRearmsLate (reenter : Nat → List (GpioCall κ)) :
    ∀ (before : List (GpioCall κ)) (pins : List Nat), Decidable (RearmsLate reenter before pins)
  | _, [] => instDecidableTrue
  | before, pin :: pins =>
    have : Decidable (RearmsLate reenter (before ++ reenter pin) pins) :=
      decidableRearmsLate reenter (before ++ reenter pin) pins
    inferInstanceAs (Decidable ((_ → _) ∧ _))

end Gpio

section Book

variable {g : Gpio κ} {pin : Nat} {pinmask fromLevel : BitVec 32} {callback : κ}

theorem foldl_setEdgeCbPin_sense (pins : List Nat) :
    (pins.foldl (Gpio.setEdgeCbPin fromLevel callback) g).sense pin =
      if pin ∈ pins then senseFrom (fromLevel.getLsbD pin) else g.sense pin := by
  induction pins generalizing g with
  | nil => simp
  | cons first pins ih =>
    rw [List.foldl_cons, ih, setEdgeCbPin_sense]
    by_cases hmem : pin ∈ pins
    · simp [hmem]
    · by_cases hfirst : pin = first
      · simp [hfirst]
      · simp [hmem, hfirst]

theorem gpioSetEdgeCbMask_sense :
    (gpioSetEdgeCbMask pinmask fromLevel callback g).sense pin =
      if pinmask.getLsbD pin then senseFrom (fromLevel.getLsbD pin) else g.sense pin := by
  rw [gpioSetEdgeCbMask, whileBits_eq_foldl, foldl_setEdgeCbPin_sense]
  simp only [mem_setBits]
  rfl

theorem foldl_noSense (pins : List Nat) :
    pins.foldl (fun g pin => Gpio.cfgSenseSet g pin .noSense) g =
      { g with sense := fun pin => if pin ∈ pins then .noSense else g.sense pin } := by
  induction pins generalizing g with
  | nil => simp
  | cons first pins ih =>
    rw [List.foldl_cons, ih]
    unfold Gpio.cfgSenseSet
    congr 1
    funext pin
    by_cases hmem : pin ∈ pins
    · simp [hmem]
    · by_cases hfirst : pin = first
      · simp [hfirst]
      · simp [hmem, hfirst]

theorem gpioUnsetEdgeCbMask_eq :
    gpioUnsetEdgeCbMask pinmask g = { g.disable pinmask with
      sense := fun pin => if pinmask.getLsbD pin then .noSense else g.sense pin } := by
  rw [gpioUnsetEdgeCbMask, whileBits_eq_foldl, foldl_noSense]
  simp only [mem_setBits]
  rfl

theorem book_setEdgeCbMask (hpin : pin < 32) :
    (gpioSetEdgeCbMask pinmask fromLevel callback g).book pin =
      if pinmask.getLsbD pin then
        ⟨true, fromLevel.getLsbD pin, senseFrom (fromLevel.getLsbD pin)⟩
      else g.book pin := by
  unfold Gpio.book
  rw [gpioSetEdgeCbMask_enabled, gpioSetEdgeCbMask_fromLevel hpin, gpioSetEdgeCbMask_sense]
  by_cases hbit : pinmask.getLsbD pin = true
  · simp [hbit]
  · simp [hbit]

theorem book_unsetEdgeCbMask (hpin : pin < 32) :
    (gpioUnsetEdgeCbMask pinmask g).book pin =
      if pinmask.getLsbD pin then { g.book pin with enabled := false, sense := .noSense }
      else g.book pin := by
  have henabled : (g.disable pinmask).gpioIntEnabled.getLsbD pin = _ := disable_enabled hpin
  have hfrom : (g.disable pinmask).gpioIntFromLevel = g.gpioIntFromLevel := rfl
  unfold Gpio.book
  rw [gpioUnsetEdgeCbMask_eq]
  simp only [henabled, hfrom]
  by_cases hbit : pinmask.getLsbD pin = true
  · simp [hbit]
  · simp [hbit]

theorem book_run (hpin : pin < 32) (call : GpioCall κ) :
    (call.run g).book pin = (g.book pin).call pin call := by
  cases call with
  | setEdgeCbMask pinmask fromLevel callback => exact book_setEdgeCbMask hpin
  | unsetEdgeCbMask pinmask => exact book_unsetEdgeCbMask hpin

theorem book_calls (hpin : pin < 32) (calls : List (GpioCall κ)) :
    (calls.foldl GpioCall.run g).book pin = calls.foldl (Gpio.Book.call pin) (g.book pin) := by
  induction calls generalizing g with
  | nil => rfl
  | cons call calls ih => rw [List.foldl_cons, ih, book_run hpin, List.foldl_cons]

theorem call_untouched {b : Gpio.Book} {call : GpioCall κ} (h : call.touch pin = none) :
    b.call pin call = b := by
  cases call with
  | setEdgeCbMask pinmask fromLevel callback =>
    simp only [GpioCall.touch] at h
    split at h
    next => cases h
    next hbit => exact if_neg hbit
  | unsetEdgeCbMask pinmask =>
    simp only [GpioCall.touch] at h
    split at h
    next => cases h
    next hbit => exact if_neg hbit

theorem call_touched {b : Gpio.Book} {call : GpioCall κ} {armed : Bool}
    (h : call.touch pin = some armed) :
    (b.call pin call).Matches ∧ (b.call pin call).enabled = armed := by
  cases call with
  | setEdgeCbMask pinmask fromLevel callback =>
    simp only [GpioCall.touch] at h
    split at h
    next hbit =>
      cases Option.some.inj h
      simp [Gpio.Book.call, Gpio.Book.Matches, hbit]
    next => cases h
  | unsetEdgeCbMask pinmask =>
    simp only [GpioCall.touch] at h
    split at h
    next hbit =>
      cases Option.some.inj h
      simp [Gpio.Book.call, Gpio.Book.Matches, hbit]
    next => cases h

/-- Calls that do not concern a pin leave it as it was. -/
theorem foldl_call_untouched {calls : List (GpioCall κ)} (b : Gpio.Book)
    (h : GpioCall.lastTouch pin calls = none) : calls.foldl (Gpio.Book.call pin) b = b := by
  induction calls generalizing b with
  | nil => rfl
  | cons call calls ih =>
    obtain ⟨hrest, hfirst⟩ := Option.or_eq_none_iff.mp h
    rw [List.foldl_cons, call_untouched hfirst]
    exact ih b hrest

/-- The last call that concerns a pin decides about it, and leaves it in order. -/
theorem foldl_call_touched {calls : List (GpioCall κ)} {armed : Bool} (b : Gpio.Book)
    (h : GpioCall.lastTouch pin calls = some armed) :
    (calls.foldl (Gpio.Book.call pin) b).Matches ∧
      (calls.foldl (Gpio.Book.call pin) b).enabled = armed := by
  induction calls generalizing b with
  | nil => cases h
  | cons call calls ih =>
    have hcons : GpioCall.lastTouch pin (call :: calls) =
        (GpioCall.lastTouch pin calls).or (call.touch pin) := rfl
    rw [List.foldl_cons]
    cases hrest : GpioCall.lastTouch pin calls with
    | none =>
      have hfirst : call.touch pin = some armed := by rwa [hcons, hrest, Option.none_or] at h
      rw [foldl_call_untouched _ hrest]
      exact call_touched hfirst
    | some last =>
      have hlast : last = armed := by
        rw [hcons, hrest, Option.some_or] at h
        exact Option.some.inj h
      exact ih (b.call pin call) (by rw [hrest, hlast])

theorem foldl_call_matches {calls : List (GpioCall κ)} {b : Gpio.Book} (h : b.Matches) :
    (calls.foldl (Gpio.Book.call pin) b).Matches := by
  cases htouch : GpioCall.lastTouch pin calls with
  | none => rwa [foldl_call_untouched b htouch]
  | some armed => exact (foldl_call_touched b htouch).1

theorem foldl_call_enabled {calls : List (GpioCall κ)} {b : Gpio.Book}
    {before : List (GpioCall κ)} (h : b.enabled = (GpioCall.lastTouch pin before == some true)) :
    (calls.foldl (Gpio.Book.call pin) b).enabled =
      (GpioCall.lastTouch pin (before ++ calls) == some true) := by
  have happend : GpioCall.lastTouch pin (before ++ calls) =
      (GpioCall.lastTouch pin calls).or (GpioCall.lastTouch pin before) := lastSome_append
  rw [happend]
  cases htouch : GpioCall.lastTouch pin calls with
  | none => rw [foldl_call_untouched b htouch, h, Option.none_or]
  | some armed =>
    rw [(foldl_call_touched b htouch).2, Option.some_or]
    cases armed <;> rfl

end Book

section Pass

variable {g : Gpio κ} {pin : Nat} {levels : BitVec 32} {reenter : Nat → List (GpioCall κ)}
  {s : WithGpio κ (List (κ × Nat × Bool))}

theorem callbacks_run (call : GpioCall κ) (h : g.callbacks pin ≠ none) :
    (call.run g).callbacks pin ≠ none := by
  cases call with
  | setEdgeCbMask pinmask fromLevel callback =>
    unfold GpioCall.run
    rw [gpioSetEdgeCbMask_callbacks]
    split
    next => exact Option.some_ne_none callback
    next => exact h
  | unsetEdgeCbMask pinmask =>
    have hkept : (gpioUnsetEdgeCbMask pinmask g).callbacks = g.callbacks := by
      rw [gpioUnsetEdgeCbMask_eq]
      rfl
    unfold GpioCall.run
    simpa only [hkept] using h

theorem callbacks_calls (calls : List (GpioCall κ)) (h : g.callbacks pin ≠ none) :
    (calls.foldl GpioCall.run g).callbacks pin ≠ none := by
  induction calls generalizing g with
  | nil => exact h
  | cons call calls ih => exact ih (callbacks_run call h)

/-- Serving a pin takes it off the sensing, and then its callback's calls are made. -/
theorem servePin_eq {callback : κ} (h : s.gpio.callbacks pin = some callback) :
    gpioteServePin (reentrantCallback reenter) levels s pin =
      { gpio := (reenter pin).foldl GpioCall.run (s.gpio.cfgSenseSet pin .noSense)
        app := s.app ++ [(callback, pin, levels.getLsbD pin)] } := by
  unfold gpioteServePin WithGpio.mapGpio
  simp only [cfgSenseSet_callbacks, h]
  rfl

theorem servePin_callbacks {other : Nat} (h : s.gpio.callbacks pin ≠ none)
    (hother : s.gpio.callbacks other ≠ none) :
    (gpioteServePin (reentrantCallback reenter) levels s pin).gpio.callbacks other ≠ none := by
  obtain ⟨callback, hcallback⟩ := Option.ne_none_iff_exists'.mp h
  rw [servePin_eq hcallback]
  exact callbacks_calls _ hother

theorem servePin_book {other : Nat} (h : s.gpio.callbacks pin ≠ none) (hother : other < 32) :
    (gpioteServePin (reentrantCallback reenter) levels s pin).gpio.book other =
      (reenter pin).foldl (Gpio.Book.call other)
        (if other = pin then { s.gpio.book other with sense := .noSense } else s.gpio.book other) := by
  obtain ⟨callback, hcallback⟩ := Option.ne_none_iff_exists'.mp h
  rw [servePin_eq hcallback]
  simp only [book_calls hother]
  congr 1
  unfold Gpio.book
  simp only [cfgSenseSet_enabled, cfgSenseSet_fromLevel, cfgSenseSet_sense]
  split
  next => rfl
  next => rfl

theorem foldl_servePin_log (pins : List Nat) (registered : ∀ p ∈ pins, s.gpio.callbacks p ≠ none) :
    (pins.foldl (gpioteServePin (reentrantCallback reenter) levels) s).app.map Prod.snd =
      s.app.map Prod.snd ++ pins.map (fun p => (p, levels.getLsbD p)) := by
  induction pins generalizing s with
  | nil => simp
  | cons p pins ih =>
    have hp := registered p (by simp)
    obtain ⟨callback, hcallback⟩ := Option.ne_none_iff_exists'.mp hp
    have hrest : ∀ q ∈ pins,
        (gpioteServePin (reentrantCallback reenter) levels s p).gpio.callbacks q ≠ none :=
      fun q hq => servePin_callbacks hp (registered q (List.mem_cons_of_mem p hq))
    rw [List.foldl_cons, ih hrest, servePin_eq hcallback]
    simp

/-- A served pin that callbacks called before have armed is off the sensing, and stays so
unless a call concerns it again. -/
theorem matches_noSense (b : Gpio.Book) (calls before : List (GpioCall κ))
    (h : b.enabled = (GpioCall.lastTouch pin before == some true)) :
    (calls.foldl (Gpio.Book.call pin) { b with sense := .noSense }).Matches ↔
      (GpioCall.lastTouch pin before = some true → GpioCall.lastTouch pin calls ≠ none) := by
  cases htouch : GpioCall.lastTouch pin calls with
  | none =>
    rw [foldl_call_untouched _ htouch]
    unfold Gpio.Book.Matches
    simp only [h]
    by_cases harmed : GpioCall.lastTouch pin before = some true
    · have hsense : PinSense.noSense ≠ senseFrom b.fromLevel := by
        cases b.fromLevel <;> decide
      simp [harmed, hsense]
    · simp [harmed]
  | some armed =>
    exact iff_of_true (foldl_call_touched _ htouch).1 (fun _ => Option.some_ne_none armed)

theorem foldl_servePin_consistent {before : List (GpioCall κ)} (pins : List Nat) (nodup : pins.Nodup)
    (bounded : ∀ p ∈ pins, p < 32) (registered : ∀ p ∈ pins, s.gpio.callbacks p ≠ none)
    (armed : ∀ p ∈ pins, (s.gpio.book p).enabled = (GpioCall.lastTouch p before == some true)) :
    Gpio.Consistent (pins.foldl (gpioteServePin (reentrantCallback reenter) levels) s).gpio ↔
      (∀ p < 32, p ∉ pins →
        ((pins.flatMap reenter).foldl (Gpio.Book.call p) (s.gpio.book p)).Matches) ∧
      Gpio.RearmsLate reenter before pins := by
  induction pins generalizing s before with
  | nil => simp [Gpio.Consistent, Gpio.RearmsLate]
  | cons first pins ih =>
    have hfirst := registered first (by simp)
    have hnotin : first ∉ pins := (List.nodup_cons.mp nodup).1
    have hbound := bounded first (by simp)
    have hrest : Gpio.Consistent (pins.foldl (gpioteServePin (reentrantCallback reenter) levels)
        (gpioteServePin (reentrantCallback reenter) levels s first)).gpio ↔
        _ ∧ Gpio.RearmsLate reenter (before ++ reenter first) pins :=
      ih (List.nodup_cons.mp nodup).2
      (fun p hp => bounded p (List.mem_cons_of_mem first hp))
      (fun p hp => servePin_callbacks hfirst (registered p (List.mem_cons_of_mem first hp)))
      (by
        intro p hp
        have hne : p ≠ first := fun heq => hnotin (heq ▸ hp)
        rw [servePin_book hfirst (bounded p (List.mem_cons_of_mem first hp)), if_neg hne]
        exact foldl_call_enabled (armed p (List.mem_cons_of_mem first hp)))
    have hself := matches_noSense (s.gpio.book first) ((first :: pins).flatMap reenter) before
      (armed first (by simp))
    have hlate : Gpio.RearmsLate reenter before (first :: pins) ↔
        _ ∧ Gpio.RearmsLate reenter (before ++ reenter first) pins := Iff.rfl
    rw [List.foldl_cons, hrest, hlate, ← and_assoc, ← hself]
    refine and_congr_left' ?_
    constructor
    · intro h
      refine ⟨?_, ?_⟩
      · intro p hp hmem
        have hne : p ≠ first := fun heq => hmem (heq ▸ List.mem_cons_self)
        have hlater := h p hp (fun hin => hmem (List.mem_cons_of_mem first hin))
        rw [servePin_book hfirst hp, if_neg hne, ← List.foldl_append] at hlater
        exact hlater
      · have hlater := h first hbound hnotin
        rw [servePin_book hfirst hbound, if_pos rfl, ← List.foldl_append] at hlater
        exact hlater
    · rintro ⟨hothers, hthis⟩ p hp hmem
      rw [servePin_book hfirst hp, ← List.foldl_append]
      split
      next heq =>
        subst heq
        exact hthis
      next hne => exact hothers p hp (by simp [hne, hmem])

/-- The calls of a pass are those the pins at its start ask for, each once. -/
def ServesOnce (levels : BitVec 32) (g : Gpio κ) (served : List (Nat × Bool)) : Prop :=
  (served.map Prod.fst).Nodup ∧
    ∀ pin level, (pin, level) ∈ served ↔ g.gpioIntEnabled.getLsbD pin = true ∧
      levels.getLsbD pin ≠ g.gpioIntFromLevel.getLsbD pin ∧ level = levels.getLsbD pin

theorem servesOnce_setBits :
    ServesOnce levels g
      ((setBits (g.interruptsFrom levels)).map (fun pin => (pin, levels.getLsbD pin))) := by
  refine ⟨?_, ?_⟩
  · rw [List.map_map]
    simpa [Function.comp_def] using setBits_nodup (g.interruptsFrom levels)
  · intro pin level
    simp only [List.mem_map, mem_setBits, interruptsFrom_bit, Bool.and_eq_true, bne_iff_ne,
      Prod.mk.injEq]
    constructor
    · rintro ⟨p, ⟨hdiffers, henabled⟩, rfl, rfl⟩
      exact ⟨henabled, hdiffers, rfl⟩
    · rintro ⟨henabled, hdiffers, rfl⟩
      exact ⟨pin, ⟨hdiffers, henabled⟩, rfl, rfl⟩

/-- An armed pin has a callback. -/
def Gpio.Registered (g : Gpio κ) : Prop :=
  ∀ pin < 32, g.gpioIntEnabled.getLsbD pin = true → g.callbacks pin ≠ none

theorem registered_run (call : GpioCall κ) (h : g.Registered) : (call.run g).Registered := by
  intro pin hpin henabled
  cases call with
  | setEdgeCbMask pinmask fromLevel callback =>
    simp only [GpioCall.run] at henabled ⊢
    rw [gpioSetEdgeCbMask_enabled, Bool.or_eq_true] at henabled
    rw [gpioSetEdgeCbMask_callbacks]
    split
    next => exact Option.some_ne_none callback
    next hbit => exact h pin hpin (henabled.resolve_right hbit)
  | unsetEdgeCbMask pinmask =>
    have hbook : (gpioUnsetEdgeCbMask pinmask g).book pin = _ := book_unsetEdgeCbMask hpin
    have hafter : ((gpioUnsetEdgeCbMask pinmask g).book pin).enabled = true := henabled
    refine callbacks_run _ (h pin hpin ?_)
    rw [hbook] at hafter
    split at hafter
    next => cases hafter
    next => exact hafter

theorem registered_calls (calls : List (GpioCall κ)) (h : g.Registered) :
    (calls.foldl GpioCall.run g).Registered := by
  induction calls generalizing g with
  | nil => exact h
  | cons call calls ih => exact ih (registered_run call h)

theorem registered_servePin (h : s.gpio.callbacks pin ≠ none) (hs : s.gpio.Registered) :
    (gpioteServePin (reentrantCallback reenter) levels s pin).gpio.Registered := by
  obtain ⟨callback, hcallback⟩ := Option.ne_none_iff_exists'.mp h
  rw [servePin_eq hcallback]
  exact registered_calls _ hs

theorem registered_foldl_servePin (pins : List Nat)
    (registered : ∀ p ∈ pins, s.gpio.callbacks p ≠ none) (hs : s.gpio.Registered) :
    (pins.foldl (gpioteServePin (reentrantCallback reenter) levels) s).gpio.Registered := by
  induction pins generalizing s with
  | nil => exact hs
  | cons p pins ih =>
    have hp := registered p (by simp)
    exact ih (fun q hq => servePin_callbacks hp (registered q (List.mem_cons_of_mem p hq)))
      (registered_servePin hp hs)

end Pass

namespace Gpio

def ServesExactly (g : Gpio κ) : GpioEvent κ → Prop
  | .call _ => True
  | .irq levels reenter =>
    ServesOnce levels g ((handlerPass levels reenter g).app.map Prod.snd)

def RearmsSafely (g : Gpio κ) : GpioEvent κ → Prop
  | .call _ => True
  | .irq levels reenter => RearmsLate reenter [] (setBits (g.interruptsFrom levels))

instance (g : Gpio κ) : ∀ event, Decidable (RearmsSafely g event)
  | .call _ => instDecidableTrue
  | .irq levels reenter => decidableRearmsLate reenter [] (setBits (g.interruptsFrom levels))

variable {g t : Gpio κ} {event : GpioEvent κ}

theorem handlerPass_eq (levels : BitVec 32) (reenter : Nat → List (GpioCall κ)) (g : Gpio κ) :
    handlerPass levels reenter g = (setBits (g.interruptsFrom levels)).foldl
      (gpioteServePin (reentrantCallback reenter) levels)
      ⟨g.disable (g.interruptsFrom levels), []⟩ := by
  rw [handlerPass, gpioteIrqHandler, whileBits_eq_foldl]
  rfl

theorem served_registered {levels : BitVec 32} (h : g.Registered) :
    ∀ p ∈ setBits (g.interruptsFrom levels),
      (g.disable (g.interruptsFrom levels)).callbacks p ≠ none := by
  intro p hp
  have hbit := mem_setBits.mp hp
  rw [interruptsFrom_bit, Bool.and_eq_true] at hbit
  exact h p (BitVec.lt_of_getLsbD hbit.2) hbit.2

theorem registered_disable {pinmask : BitVec 32} (h : g.Registered) :
    (g.disable pinmask).Registered := by
  intro pin hpin henabled
  rw [disable_enabled hpin, Bool.and_eq_true] at henabled
  exact h pin hpin henabled.1

theorem step_registered (h : g.Registered) (hstep : g.step event = some t) : t.Registered := by
  cases event with
  | call call =>
    cases Option.some.inj hstep
    exact registered_run call h
  | irq levels reenter =>
    cases Option.some.inj hstep
    rw [handlerPass_eq]
    exact registered_foldl_servePin _ (served_registered h) (registered_disable h)

theorem step_servesExactly (h : g.Registered) (event : GpioEvent κ) : g.ServesExactly event := by
  cases event with
  | call call => trivial
  | irq levels reenter =>
    have hlog : (handlerPass levels reenter g).app.map Prod.snd =
        (setBits (g.interruptsFrom levels)).map (fun pin => (pin, levels.getLsbD pin)) := by
      rw [handlerPass_eq]
      exact foldl_servePin_log _ (served_registered h)
    change ServesOnce levels g ((handlerPass levels reenter g).app.map Prod.snd)
    rw [hlog]
    exact servesOnce_setBits

theorem irq_consistent {levels : BitVec 32} {reenter : Nat → List (GpioCall κ)} (h : g.Registered)
    (hs : g.Consistent) :
    (handlerPass levels reenter g).gpio.Consistent ↔
      RearmsLate reenter [] (setBits (g.interruptsFrom levels)) := by
  have hbounded : ∀ p ∈ setBits (g.interruptsFrom levels), p < 32 :=
    fun p hp => BitVec.lt_of_getLsbD (mem_setBits.mp hp)
  have hoff : ∀ p < 32, ((g.disable (g.interruptsFrom levels)).book p).enabled =
      (g.gpioIntEnabled.getLsbD p && !(g.interruptsFrom levels).getLsbD p) :=
    fun p hp => disable_enabled hp
  have harmed : ∀ p ∈ setBits (g.interruptsFrom levels),
      ((g.disable (g.interruptsFrom levels)).book p).enabled =
        (GpioCall.lastTouch p ([] : List (GpioCall κ)) == some true) := by
    intro p hp
    rw [hoff p (hbounded p hp), mem_setBits.mp hp, Bool.not_true, Bool.and_false]
    rfl
  have hserve := @foldl_servePin_consistent κ levels reenter
    ⟨g.disable (g.interruptsFrom levels), []⟩ [] (setBits (g.interruptsFrom levels))
    (setBits_nodup _) hbounded (served_registered h) harmed
  rw [handlerPass_eq]
  refine hserve.trans (and_iff_right ?_)
  intro p hp hmem
  have hbit : (g.interruptsFrom levels).getLsbD p = false := by
    rw [mem_setBits, Bool.not_eq_true] at hmem
    exact hmem
  have henabled := hoff p hp
  rw [hbit, Bool.not_false, Bool.and_true] at henabled
  have hsame : (g.disable (g.interruptsFrom levels)).book p = g.book p :=
    congrArg (fun enabled => Book.mk enabled (g.gpioIntFromLevel.getLsbD p) (g.sense p)) henabled
  exact foldl_call_matches (by simpa only [hsame] using hs p hp)

theorem step_consistent (h : g.Registered) (hs : g.Consistent) (hstep : g.step event = some t) :
    t.Consistent ↔ g.RearmsSafely event := by
  cases event with
  | call call =>
    cases Option.some.inj hstep
    refine iff_of_true ?_ trivial
    intro pin hpin
    rw [book_run hpin]
    have hmatches : ([call].foldl (Book.call pin) (g.book pin)).Matches :=
      foldl_call_matches (hs pin hpin)
    exact hmatches
  | irq levels reenter =>
    cases Option.some.inj hstep
    exact irq_consistent h hs

theorem reset_consistent : (Gpio.reset : Gpio κ).Consistent := by
  intro pin hpin
  have hoff : ((Gpio.reset : Gpio κ).book pin).enabled = false := BitVec.getLsbD_zero
  unfold Book.Matches
  rw [hoff]
  rfl

theorem reset_registered : (Gpio.reset : Gpio κ).Registered := by
  intro pin _ henabled
  have hoff : (Gpio.reset : Gpio κ).gpioIntEnabled.getLsbD pin = false := BitVec.getLsbD_zero
  rw [hoff] at henabled
  cases henabled

/-- The books agree with the hardware, and the handler serves the pins it should, exactly in the
runs where no callback arms a pin its pass has yet to serve and leaves it so. -/
theorem bookkeeping_iff {s : Gpio κ} {trace : List (Gpio κ × GpioEvent κ)}
    (run : Run step Gpio.reset trace s) :
    (AllStates Consistent trace s ∧ AllSteps ServesExactly trace) ↔ AllSteps RearmsSafely trace := by
  have allowed : AllSteps (fun (_ : Gpio κ) (_ : GpioEvent κ) => True) trace := fun _ _ => trivial
  have registered : AllStates Registered trace s :=
    run.invariant allowed reset_registered (fun _ _ _ h _ hstep => step_registered h hstep)
  have served : AllSteps ServesExactly trace :=
    fun p hp => step_servesExactly (registered.2 p hp) p.2
  rw [and_iff_left served]
  exact run.allStates_iff_of_invariant registered reset_consistent
    (fun _ _ _ h hs hstep => step_consistent h hs hstep)

/-- Pins 0 and 1 are armed and rise together; the callback of each arms its own pin again. -/
def rearmOwn : List (GpioEvent Unit) :=
  [.call (.setEdgeCbMask 3#32 0#32 ()),
    .irq 3#32 (fun pin => [.setEdgeCbMask (1#32 <<< pin) 3#32 ()])]

theorem bookkeeping_rearmOwn :
    ∃ trace s, Run step (Gpio.reset : Gpio Unit) trace s ∧
      trace.map Prod.snd = rearmOwn.reverse ∧ AllStates Consistent trace s := by
  have hreplay : (replay (guarded RearmsSafely step) (Gpio.reset : Gpio Unit) rearmOwn).isSome =
      true := by
    decide +kernel
  obtain ⟨trace, s, run, hok, hlabels⟩ := exists_allowed_run hreplay
  exact ⟨trace, s, run, hlabels, ((bookkeeping_iff run).mpr hok).1⟩

/-- The callback of pin 0 arms pin 1, which the pass serves next. -/
def armNext : List (GpioEvent Unit) :=
  [.call (.setEdgeCbMask 3#32 0#32 ()),
    .irq 3#32 (fun pin => if pin = 0 then [.setEdgeCbMask 2#32 2#32 ()] else [])]

theorem armed_unsensed_armNext :
    ∃ trace s, Run step (Gpio.reset : Gpio Unit) trace s ∧
      trace.map Prod.snd = armNext.reverse ∧ s.gpioIntEnabled.getLsbD 1 = true ∧
      s.sense 1 = .noSense := by
  have hreplay : (replay step (Gpio.reset : Gpio Unit) armNext).any
      (fun s => decide (s.gpioIntEnabled.getLsbD 1 = true ∧ s.sense 1 = .noSense)) = true := by
    decide +kernel
  obtain ⟨trace, s, run, hlabels, hunsensed⟩ := exists_run_of_replay hreplay
  exact ⟨trace, s, run, hlabels, of_decide_eq_true hunsensed⟩

end Gpio

end MyMouse
