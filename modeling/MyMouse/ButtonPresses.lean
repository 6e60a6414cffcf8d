import MyMouse.ButtonsCollector

namespace MyMouse

open Runs

theorem Button.pin_injective {button other : Button} (h : button.pin = other.pin) :
    button = other := by
  cases button <;> cases other <;> first | rfl | exact absurd h (by decide)

namespace ButtonsCollector

/-- The interrupt callback, called with any level; one the queue does not take is recorded all
the same. -/
def interrupt (id : Fin MAX_NUM_OF_HID_SOURCES) (pin : Nat) (newLevel : Bool)
    (s : ButtonsCollector) : ButtonsCollector :=
  match hidSrcButtonsInterruptCb pin newLevel s.buttons with
  | some (put, buttons) =>
    { s with
      collector := if put < 0 then s.collector else hidCollectorNotifyDataAvailable id s.collector
      buttons := buttons
      levels := fun button =>
        if button.pin = pin then newLevel :: s.levels button else s.levels button }
  | none => s

/-- The first statement of the loop of `hid_src_buttons_init` for a button; no filler has been
called yet. -/
def initQueue (button : Button) (level : Bool) (s : ButtonsCollector) : ButtonsCollector :=
  { s with
    buttons := s.buttons.initQueue button.pin level
    atCall := s.buttons.initQueue button.pin level }

/-- The source after calls with any levels: without those that repeat the level before them, it
is as `Inv` says. -/
def Ok (id : Fin MAX_NUM_OF_HID_SOURCES) (initial : Nat → Bool) (s : ButtonsCollector) : Prop :=
  ∃ taken : Button → List Bool, Inv id initial { s with levels := taken } ∧
    ∀ button, taken button ++ [initial button.pin] =
      withoutRepeats (s.levels button ++ [initial button.pin])

variable {id : Fin MAX_NUM_OF_HID_SOURCES} {initial : Nat → Bool} {s t : ButtonsCollector}
  {numSources : Nat}

theorem interrupt_button (button : Button) (newLevel : Bool) :
    s.interrupt id button.pin newLevel =
      { s with
        collector :=
          if (toggleQueuePut (s.queue button) (!newLevel)).1 < 0 then s.collector
          else hidCollectorNotifyDataAvailable id s.collector
        buttons := { s.buttons with
          queues := Function.update s.buttons.queues button.index
            (toggleQueuePut (s.queue button) (!newLevel)).2 }
        levels := Function.update s.levels button (newLevel :: s.levels button) } := by
  have hlevels : (fun other : Button =>
      if other.pin = button.pin then newLevel :: s.levels other else s.levels other) =
        Function.update s.levels button (newLevel :: s.levels button) := by
    funext other
    by_cases hother : other = button
    · subst hother
      rw [Function.update_self, if_pos rfl]
    · rw [Function.update_of_ne hother, if_neg (fun h => hother (Button.pin_injective h))]
  unfold interrupt
  rw [interrupt_eq]
  dsimp only
  rw [hlevels]
  rfl

theorem interrupt_step (button : Button) (newLevel : Bool) :
    step numSources id s (.interrupt button newLevel) =
      some (s.interrupt id button.pin newLevel) := by
  rw [interrupt_button]
  simp only [step, interrupt_eq]
  rfl

theorem withoutRepeats_append_head (levels : List Bool) (first level : Bool) :
    withoutRepeats (level :: (levels ++ [first])) =
      if level = levels.headD first then withoutRepeats (levels ++ [first])
      else level :: withoutRepeats (levels ++ [first]) := by
  cases levels with
  | nil =>
    split
    next h =>
      subst h
      exact withoutRepeats_cons_same _ _
    next h => exact withoutRepeats_cons_ne h _
  | cons last levels =>
    split
    next h =>
      subst h
      exact withoutRepeats_cons_same _ _
    next h => exact withoutRepeats_cons_ne h _

theorem mem_withoutRepeats {level : Bool} {signal : List Bool} (h : level ∈ signal) :
    level ∈ withoutRepeats signal := by
  induction signal with
  | nil => exact h
  | cons first rest ih =>
    cases rest with
    | nil => exact h
    | cons second rest =>
      by_cases hsame : first = second
      · subst hsame
        rw [withoutRepeats_cons_same]
        apply ih
        rcases List.mem_cons.mp h with rfl | hrest
        · exact List.mem_cons_self
        · exact hrest
      · rw [withoutRepeats_cons_ne hsame]
        rcases List.mem_cons.mp h with rfl | hrest
        · exact List.mem_cons_self
        · exact List.mem_cons_of_mem first (ih hrest)

theorem headD_of_withoutRepeats {taken levels : List Bool} {first : Bool}
    (h : taken ++ [first] = withoutRepeats (levels ++ [first])) :
    taken.headD first = levels.headD first := by
  have hhead := congrArg List.head? h
  rw [head_withoutRepeats] at hhead
  cases taken with
  | nil =>
    cases levels with
    | nil => rfl
    | cons level levels => exact Option.some.inj hhead
  | cons last taken =>
    cases levels with
    | nil => exact Option.some.inj hhead
    | cons level levels => exact Option.some.inj hhead

theorem ok_start (id : Fin MAX_NUM_OF_HID_SOURCES) (initial : Nat → Bool) :
    Ok id initial (start initial) := by
  refine ⟨fun _ => [], inv_start id initial, ?_⟩
  intro button
  rfl

/-- The queue of a button refuses the level it was last called with, and takes the other. -/
theorem Ok.interrupt (h : Ok id initial s) (button : Button) (newLevel : Bool)
    (room : (s.queue button).pending + 1 < 2 ^ 32) :
    Ok id initial (s.interrupt id button.pin newLevel) := by
  obtain ⟨taken, hinv, htaken⟩ := h
  have hlast := headD_of_withoutRepeats (htaken button)
  by_cases hsame : newLevel = (s.levels button).headD (initial button.pin)
  · refine ⟨taken, ?_, ?_⟩
    · obtain ⟨history, hinitial, tracks⟩ := hinv.tracks button
      have hstate : (!newLevel) = history.state history.puts := by
        rw [hsame, ← hlast, ← tracks.last_level, hinitial, Bool.not_not]
      have hrefused := history.put_refused hstate
      rw [← tracks.queue_eq] at hrefused
      change toggleQueuePut (s.queue button) (!newLevel) = (-EINVAL, s.queue button) at hrefused
      have hqueues : Function.update s.buttons.queues button.index (s.queue button) =
          s.buttons.queues := Function.update_eq_self _ _
      have hnegative : -EINVAL < 0 := by decide
      rw [interrupt_button, hrefused, hqueues, if_pos hnegative]
      exact hinv
    · intro other
      rw [interrupt_button]
      change _ = withoutRepeats (Function.update s.levels button _ other ++ _)
      by_cases hother : other = button
      · subst hother
        rw [Function.update_self, List.cons_append, withoutRepeats_append_head, if_pos hsame]
        exact htaken other
      · rw [Function.update_of_ne hother]
        exact htaken other
  · refine ⟨Function.update taken button (newLevel :: taken button), ?_, ?_⟩
    · have alternates : Alternates initial { s with levels := taken }
          (.interrupt button newLevel) := by
        refine ⟨?_, room⟩
        change newLevel ≠ (taken button).headD (initial button.pin)
        rw [hlast]
        exact hsame
      have hstep := @interrupt_step id { s with levels := taken } 0 button newLevel
      have hnext := hinv.interrupt alternates hstep
      rw [interrupt_button] at hnext ⊢
      exact hnext
    · intro other
      rw [interrupt_button]
      change _ = withoutRepeats (Function.update s.levels button _ other ++ _)
      by_cases hother : other = button
      · subst hother
        rw [Function.update_self, Function.update_self, List.cons_append, List.cons_append,
          withoutRepeats_append_head, if_neg hsame, htaken]
      · rw [Function.update_of_ne hother, Function.update_of_ne hother]
        exact htaken other

theorem fillerStep_levels (levels : Button → List Bool) :
    fillerStep id { s with levels := levels } =
      (fillerStep id s).map (fun t => { t with levels := levels }) := by
  unfold fillerStep
  dsimp only
  split
  next button _ =>
    split
    next => rfl
    next => rfl
  next =>
    split
    next =>
      split
      next => rfl
      next => rfl
    next => rfl

/-- The other steps do not look at the recorded levels. -/
theorem step_levels {a : ButtonsStep} (hother : ∀ button level, a ≠ .interrupt button level)
    (levels : Button → List Bool) :
    step numSources id { s with levels := levels } a =
      (step numSources id s a).map (fun t => { t with levels := levels }) := by
  cases a with
  | interrupt button level => exact absurd rfl (hother button level)
  | notify sourceId => rfl
  | writeSourceIdEnabled sourceId enabled => rfl
  | notifySourcesChanged => rfl
  | thread =>
    simp only [step]
    split
    next => rfl
    next => rfl
  | filler =>
    simp only [step]
    split
    next =>
      split
      next => exact fillerStep_levels levels
      next => rfl
    next => rfl
  | otherFiller wheelDelta xDelta yDelta =>
    simp only [step]
    split
    next =>
      split
      next => rfl
      next => rfl
    next => rfl

theorem step_keeps_levels {a : ButtonsStep} (hother : ∀ button level, a ≠ .interrupt button level)
    (hstep : step numSources id s a = some t) : t.levels = s.levels := by
  have hsame := @step_levels id s numSources a hother s.levels
  change step numSources id s a = _ at hsame
  rw [hstep] at hsame
  calc
    t.levels = { t with levels := s.levels }.levels :=
      congrArg ButtonsCollector.levels (Option.some.inj hsame)
    _ = s.levels := rfl

theorem Ok.step {a : ButtonsStep} (h : Ok id initial s)
    (hother : ∀ button level, a ≠ .interrupt button level)
    (hstep : step numSources id s a = some t) : Ok id initial t := by
  obtain ⟨taken, hinv, htaken⟩ := h
  refine ⟨taken, ?_, ?_⟩
  · have alternates : Alternates initial { s with levels := taken } a := by
      cases a with
      | interrupt button level => exact absurd rfl (hother button level)
      | notify | writeSourceIdEnabled | notifySourcesChanged | thread | filler | otherFiller =>
        trivial
    have hnext := @step_levels id s numSources a hother taken
    rw [hstep] at hnext
    exact hinv.next alternates hnext
  · rw [step_keeps_levels hother hstep]
    exact htaken

theorem initQueue_queue {button other : Button} {level : Bool} :
    (s.initQueue button level).queue other =
      if other = button then toggleQueueInit !level else s.queue other := by
  unfold initQueue queue ButtonsSource.initQueue
  rw [button.queueForPin_pin]
  dsimp only
  split
  next h =>
    subst h
    exact Function.update_self _ _ _
  next h => exact queue_update_ne h

/-- Until the first call of its filler, a button may be given a new initial level. -/
theorem Ok.initQueue (h : Ok id initial s) {button : Button} {level : Bool}
    (hlevels : s.levels button = []) (hreported : s.reported button = []) :
    Ok id (Function.update initial button.pin level) (s.initQueue button level) := by
  obtain ⟨taken, hinv, htaken⟩ := h
  have hpin : ∀ other : Button, other ≠ button →
      Function.update initial button.pin level other.pin = initial other.pin :=
    fun other hne => Function.update_of_ne (fun heq => hne (Button.pin_injective heq)) _ _
  have hempty : taken button = [] := by
    have hone := htaken button
    rw [hlevels] at hone
    exact List.append_left_eq_self.mp hone
  refine ⟨taken, ⟨?_, hinv.bit, fun _ => Or.inl rfl, fun _ _ => rfl, hinv.outside, ?_⟩, ?_⟩
  · intro other
    change ∃ h : ToggleHistory, h.initial = _ ∧ h.Tracks ((s.initQueue button level).queue other)
      (taken other) (s.reported other)
    rw [initQueue_queue]
    by_cases hother : other = button
    · subst hother
      rw [Function.update_self, if_pos rfl, hempty, hreported]
      exact ⟨.start !level, rfl, ToggleHistory.tracks_start _⟩
    · rw [hpin other hother, if_neg hother]
      exact hinv.tracks other
  · intro other hlen
    change toggleQueueLen ((s.initQueue button level).queue other) ≠ 0 at hlen
    rw [initQueue_queue] at hlen
    by_cases hother : other = button
    · rw [if_pos hother] at hlen
      simp [toggleQueueLen, toggleQueueInit] at hlen
    · rw [if_neg hother] at hlen
      exact hinv.noticed other hlen
  · intro other
    by_cases hother : other = button
    · subst hother
      rw [Function.update_self, hempty]
      change _ = withoutRepeats (s.levels other ++ _)
      rw [hlevels]
      rfl
    · rw [hpin other hother]
      exact htaken other

/-- What has been reported begins what the callback was called with, without its repeats. -/
theorem Ok.order (h : Ok id initial s) (button : Button) :
    withoutRepeats (s.reported button ++ [!initial button.pin]) <:+
      (withoutRepeats (s.levels button ++ [initial button.pin])).map (!·) := by
  obtain ⟨taken, hinv, htaken⟩ := h
  have horder := hinv.clicksKept.order button
  rw [← htaken, List.map_append]
  exact horder

/-- Once the collector rests, the report shows the level last called with, unless the callback
has never been called with a new one. -/
theorem Ok.settled (h : Ok id initial s) (hout : ¬ s.collector.InFiller id)
    (hnot : ¬ s.collector.Noticed id) {button : Button}
    (hnew : ∃ level ∈ s.levels button, level ≠ initial button.pin) :
    button.bit s.collector.report = !(s.levels button).headD (initial button.pin) := by
  obtain ⟨taken, hinv, htaken⟩ := h
  have hlast := headD_of_withoutRepeats (htaken button)
  rw [← hlast]
  cases hlevels : taken button with
  | nil =>
    have hone := htaken button
    rw [hlevels] at hone
    obtain ⟨level, hmem, hne⟩ := hnew
    have hkept := mem_withoutRepeats (List.mem_append_left [initial button.pin] hmem)
    rw [← hone] at hkept
    exact absurd (List.mem_singleton.mp hkept) hne
  | cons level rest =>
    have hhead : (taken button).head? = some level := by rw [hlevels]; rfl
    exact (hinv.clicksKept.settled hout hnot button level hhead).2

end ButtonsCollector

end MyMouse
