import MyMouse.Buttons
import MyMouse.Clicks
import MyMouse.Collector
import MyMouse.Run

namespace MyMouse

open Runs

/-- The next statement of `hid_src_buttons_report_filler`: the report of a button, or a turn of
the loop over the queues. -/
inductive ButtonsFillerPc
  | get (button : Button)
  | checkLen (i : Nat)
  deriving DecidableEq

/-- The collector and the buttons source. For each button, the levels its interrupt callback
was called with and the values written to its report bit, the latest first; `atCall` is the
source as the filler found it when it was last called. -/
structure ButtonsCollector where
  collector : Collector
  buttons : ButtonsSource
  fillerPc : ButtonsFillerPc
  levels : Button → List Bool
  reported : Button → List Bool
  atCall : ButtonsSource

/-- The interrupt callback, calls to the collector from elsewhere, and the thread: outside the
fillers, in the filler of the buttons, and a whole run of another source's filler. -/
inductive ButtonsStep
  | interrupt (button : Button) (newLevel : Bool)
  | notify (sourceId : Int)
  | writeSourceIdEnabled (sourceId : Int) (enabled : Bool)
  | notifySourcesChanged
  | thread
  | filler
  | otherFiller (wheelDelta : BitVec 8) (xDelta yDelta : BitVec 12)
  deriving DecidableEq

namespace ButtonsFillerPc

def afterGet : Button → ButtonsFillerPc
  | .left => .get .right
  | .right => .get .middle
  | .middle => .checkLen 0

/-- The filler has still to look at the length of queue `i`. -/
def ToCheck (pc : ButtonsFillerPc) (i : Nat) : Prop :=
  ∀ k, pc = .checkLen k → k ≤ i

/-- The filler has begun and has still to take from the button's queue. -/
def ToGet (pc : ButtonsFillerPc) (button : Button) : Prop :=
  pc = .get .right ∧ button ≠ .left ∨ pc = .get .middle ∧ button = .middle

end ButtonsFillerPc

namespace ButtonsCollector

/-- The state after `hid_src_buttons_init` has read these levels. -/
def start (levels : Nat → Bool) : ButtonsCollector :=
  let buttons := buttonPins.foldl (fun b pin => b.initQueue pin (levels pin)) ⟨fun _ => ⟨0#32, 0#32⟩⟩
  { collector := .reset
    buttons := buttons
    fillerPc := .get .left
    levels := fun _ => []
    reported := fun _ => []
    atCall := buttons }

def queue (s : ButtonsCollector) (button : Button) : ToggleQueue :=
  s.buttons.queues button.index

def fillerStep (id : Nat) (s : ButtonsCollector) : Option ButtonsCollector :=
  match s.fillerPc with
  | .get button =>
    match queueForPin buttonPins button.pin with
    | some i =>
      let (value, queue) := toggleQueueGetOrLast (s.buttons.queues i)
      some { s with
        collector := { s.collector with report := button.writeBit value s.collector.report }
        buttons := { s.buttons with queues := Function.update s.buttons.queues i queue }
        fillerPc := .afterGet button
        reported := Function.update s.reported button (value :: s.reported button)
        atCall := if button = .left then s.buttons else s.atCall }
    | none => none
  | .checkLen i =>
    if i < buttonPins.length then
      if toggleQueueLen (s.buttons.queues i) ≠ 0 then
        some { s with
          collector := (hidCollectorNotifyDataAvailable id s.collector).filled
          fillerPc := .get .left }
      else some { s with fillerPc := .checkLen (i + 1) }
    else some { s with collector := s.collector.filled, fillerPc := .get .left }

section Steps

variable (numSources : Nat) (id : Fin MAX_NUM_OF_HID_SOURCES)

def step (s : ButtonsCollector) : ButtonsStep → Option ButtonsCollector
  | .interrupt button newLevel =>
    match hidSrcButtonsInterruptCb button.pin newLevel s.buttons with
    | some (put, buttons) =>
      some { s with
        collector := if put < 0 then s.collector else hidCollectorNotifyDataAvailable id s.collector
        buttons := buttons
        levels := Function.update s.levels button (newLevel :: s.levels button) }
    | none => none
  | .notify sourceId =>
    some { s with collector := hidCollectorNotifyDataAvailable sourceId s.collector }
  | .writeSourceIdEnabled sourceId enabled =>
    some { s with collector := MyMouse.writeSourceIdEnabled sourceId enabled s.collector }
  | .notifySourcesChanged =>
    some { s with collector := MyMouse.notifySourcesChanged s.collector }
  | .thread =>
    match hidCollectorThreadStep numSources s.collector with
    | some collector => some { s with collector := collector }
    | none => none
  | .filler =>
    match s.collector.pc with
    | .filling sourceId _ => if sourceId = id then fillerStep id s else none
    | _ => none
  | .otherFiller wheelDelta xDelta yDelta =>
    match s.collector.pc with
    | .filling sourceId _ =>
      if sourceId = id then none
      else
        let report := { s.collector.report with
          wheelDelta := wheelDelta, xDelta := xDelta, yDelta := yDelta }
        some { s with collector := { s.collector with report := report }.filled }
    | _ => none

/-- The level differs from the one before, at first from the one read at init, and leaves
fewer than 2^32 toggles pending. -/
def Alternates (levels : Nat → Bool) (s : ButtonsCollector) : ButtonsStep → Prop
  | .interrupt button newLevel =>
    newLevel ≠ (s.levels button).headD (levels button.pin) ∧ (s.queue button).pending + 1 < 2 ^ 32
  | _ => True

instance (levels : Nat → Bool) (s : ButtonsCollector) (a : ButtonsStep) :
    Decidable (Alternates levels s a) :=
  match a with
  | .interrupt _ _ => inferInstanceAs (Decidable (_ ∧ _))
  | .notify _ => inferInstanceAs (Decidable True)
  | .writeSourceIdEnabled _ _ => inferInstanceAs (Decidable True)
  | .notifySourcesChanged => inferInstanceAs (Decidable True)
  | .thread => inferInstanceAs (Decidable True)
  | .filler => inferInstanceAs (Decidable True)
  | .otherFiller _ _ _ => inferInstanceAs (Decidable True)

/-- No click is lost, merged or invented. The lists have the latest value first, so that a
beginning of the clicks is a suffix. -/
structure ClicksKept (levels : Nat → Bool) (s : ButtonsCollector) : Prop where
  order : ∀ button, withoutRepeats (s.reported button ++ [!levels button.pin]) <:+
    (s.levels button).map (!·) ++ [!levels button.pin]
  advance : ∀ button, (s.queue button).tail = (s.atCall.queues button.index).tail ∨
    (s.queue button).tail = (s.atCall.queues button.index).tail + 1#32
  noticed : ¬ s.collector.InFiller id → ∀ button, toggleQueueLen (s.queue button) ≠ 0 →
    s.collector.Noticed id
  settled : ¬ s.collector.InFiller id → ¬ s.collector.Noticed id →
    ∀ button level, (s.levels button).head? = some level →
      (s.reported button).head? = some (!level) ∧ button.bit s.collector.report = !level

structure Inv (levels : Nat → Bool) (s : ButtonsCollector) : Prop where
  tracks : ∀ button, ∃ h : ToggleHistory, h.initial = (!levels button.pin) ∧
    h.Tracks (s.queue button) (s.levels button) (s.reported button)
  bit : ∀ button value, (s.reported button).head? = some value →
    button.bit s.collector.report = value
  advance : ∀ button, (s.queue button).tail = (s.atCall.queues button.index).tail ∨
    (s.queue button).tail = (s.atCall.queues button.index).tail + 1#32
  toGet : ∀ button, s.fillerPc.ToGet button →
    (s.queue button).tail = (s.atCall.queues button.index).tail
  outside : ¬ s.collector.InFiller id → s.fillerPc = .get .left
  noticed : ∀ button, toggleQueueLen (s.queue button) ≠ 0 →
    s.collector.Noticed id ∨ s.collector.InFiller id ∧ s.fillerPc.ToCheck button.index

end Steps

variable {numSources : Nat} {id : Fin MAX_NUM_OF_HID_SOURCES} {levels : Nat → Bool}
  {s t : ButtonsCollector}

theorem Inv.clicksKept (h : Inv id levels s) : ClicksKept id levels s := by
  have noticed : ¬ s.collector.InFiller id → ∀ button, toggleQueueLen (s.queue button) ≠ 0 →
      s.collector.Noticed id := by
    intro hout button hlen
    exact (h.noticed button hlen).resolve_right (fun hin => hout hin.1)
  refine ⟨?_, h.advance, noticed, ?_⟩
  · intro button
    obtain ⟨history, hinitial, tracks⟩ := h.tracks button
    rw [← hinitial]
    exact tracks.suffix
  · intro hout hnot button level hlevel
    obtain ⟨history, _, tracks⟩ := h.tracks button
    have hempty : toggleQueueLen (s.queue button) = 0 := by
      by_contra hlen
      exact hnot (noticed hout button hlen)
    have hreported := tracks.settled hempty hlevel
    exact ⟨hreported, h.bit button _ hreported⟩

theorem Inv.collector_step (h : Inv id levels s) {collector : Collector}
    (hbits : ∀ button : Button, button.bit collector.report = button.bit s.collector.report)
    (houtside : ¬ collector.InFiller id → ¬ s.collector.InFiller id)
    (hnoticed : s.collector.Noticed id →
      collector.Noticed id ∨ collector.InFiller id ∧ s.fillerPc = .get .left)
    (hinside : s.collector.InFiller id → collector.InFiller id) :
    Inv id levels { s with collector := collector } := by
  refine ⟨h.tracks, ?_, h.advance, h.toGet, fun hout => h.outside (houtside hout), ?_⟩
  · intro button value hvalue
    exact (hbits button).trans (h.bit button value hvalue)
  · intro button hlen
    rcases h.noticed button hlen with hpending | ⟨hin, hcheck⟩
    · rcases hnoticed hpending with hstill | ⟨hin, hpc⟩
      · exact Or.inl hstill
      · refine Or.inr ⟨hin, ?_⟩
        intro k hk
        exact absurd (hpc.symm.trans hk) (by simp)
    · exact Or.inr ⟨hinside hin, hcheck⟩

theorem Inv.posts (h : Inv id levels s) {collector : Collector}
    (hposts : Collector.Posts s.collector collector) :
    Inv id levels { s with collector := collector } :=
  h.collector_step (fun button => by rw [hposts.report])
    (fun hout hin => hout (hposts.inFiller.mpr hin))
    (fun hpending => Or.inl (hposts.noticed hpending)) hposts.inFiller.mpr

theorem Inv.thread (h : Inv id levels s) {collector : Collector}
    (hstep : Collector.ThreadStep numSources s.collector collector) :
    Inv id levels { s with collector := collector } := by
  have houtside : ¬ s.collector.InFiller id := hstep.not_inFiller
  obtain ⟨hleft, hright, hmiddle⟩ := hstep.buttons
  refine h.collector_step ?_ (fun _ => houtside) ?_ (fun hin => absurd hin houtside)
  · intro button
    cases button with
    | left => exact hleft
    | right => exact hright
    | middle => exact hmiddle
  · intro hpending
    rcases hstep.noticed id.isLt hpending with hstill | hin
    · exact Or.inl hstill
    · exact Or.inr ⟨hin, h.outside houtside⟩

theorem queue_update_same {source : ButtonsSource} {button : Button} {queue : ToggleQueue} :
    Function.update source.queues button.index queue button.index = queue :=
  Function.update_self _ _ _

theorem queue_update_ne {source : ButtonsSource} {button other : Button} {queue : ToggleQueue}
    (h : other ≠ button) :
    Function.update source.queues button.index queue other.index = source.queues other.index :=
  Function.update_of_ne (fun hindex => h (Button.index_injective hindex)) _ _

theorem interrupt_eq (button : Button) (newLevel : Bool) (source : ButtonsSource) :
    hidSrcButtonsInterruptCb button.pin newLevel source =
      some ((toggleQueuePut (source.queues button.index) (!newLevel)).1,
        { source with
          queues := Function.update source.queues button.index
            (toggleQueuePut (source.queues button.index) (!newLevel)).2 }) := by
  unfold hidSrcButtonsInterruptCb
  rw [button.queueForPin_pin]

theorem toggleQueuePut_tail (queue : ToggleQueue) (event : Bool) :
    (toggleQueuePut queue event).2.tail = queue.tail := by
  unfold toggleQueuePut
  split
  next => rfl
  next => rfl

theorem Inv.interrupt (h : Inv id levels s) {button : Button} {newLevel : Bool}
    (alternates : Alternates levels s (.interrupt button newLevel))
    (hstep : step numSources id s (.interrupt button newLevel) = some t) : Inv id levels t := by
  obtain ⟨history, hinitial, tracks⟩ := h.tracks button
  obtain ⟨halt, hroom⟩ := alternates
  have hput := tracks.put (by rw [hinitial, Bool.not_not]; exact halt) hroom
  have hnonneg : ¬ (toggleQueuePut (s.queue button) (!newLevel)).1 < 0 := by
    rw [hput.1]
    omega
  simp only [step, interrupt_eq] at hstep
  change ¬ (toggleQueuePut (s.buttons.queues button.index) (!newLevel)).1 < 0 at hnonneg
  rw [if_neg hnonneg] at hstep
  cases Option.some.inj hstep
  have hposts := Collector.notify_posts id s.collector
  have htail : ∀ other : Button, (Function.update s.buttons.queues button.index
      (toggleQueuePut (s.buttons.queues button.index) (!newLevel)).2 other.index).tail =
      (s.queue other).tail := by
    intro other
    by_cases hother : other = button
    · rw [hother, queue_update_same, toggleQueuePut_tail]
      rfl
    · rw [queue_update_ne hother]
      rfl
  refine ⟨?_, ?_, ?_, ?_, fun hout => h.outside (fun hin => hout (hposts.inFiller.mpr hin)), ?_⟩
  · intro other
    by_cases hother : other = button
    · subst hother
      refine ⟨history.put, hinitial, ?_⟩
      simp only [queue, Function.update_self]
      exact hput.2
    · obtain ⟨otherHistory, hotherInitial, otherTracks⟩ := h.tracks other
      refine ⟨otherHistory, hotherInitial, ?_⟩
      simp only [queue, queue_update_ne hother, Function.update_of_ne hother]
      exact otherTracks
  · intro other value hvalue
    rw [hposts.report]
    exact h.bit other value hvalue
  · intro other
    have hadvance := h.advance other
    rw [← htail other] at hadvance
    exact hadvance
  · intro other hget
    exact (htail other).trans (h.toGet other hget)
  · intro _ _
    exact Or.inl (Or.inl (Collector.notify_posted id.isLt s.collector))

theorem fillerStep_get {button : Button} (hpc : s.fillerPc = .get button) :
    fillerStep id s = some { s with
      collector := { s.collector with
        report := button.writeBit (toggleQueueGetOrLast (s.queue button)).1 s.collector.report }
      buttons := { s.buttons with
        queues := Function.update s.buttons.queues button.index
          (toggleQueueGetOrLast (s.queue button)).2 }
      fillerPc := .afterGet button
      reported := Function.update s.reported button
        ((toggleQueueGetOrLast (s.queue button)).1 :: s.reported button)
      atCall := if button = .left then s.buttons else s.atCall } := by
  unfold fillerStep
  rw [hpc]
  simp only [button.queueForPin_pin]
  rfl

/-- The queue a button's report is taken from is as the filler has found it. -/
theorem Inv.tail_atCall (h : Inv id levels s) {button : Button} (hpc : s.fillerPc = .get button)
    {other : Button} (hother : other = button ∨ (ButtonsFillerPc.afterGet button).ToGet other) :
    (s.queue other).tail =
      ((if button = .left then s.buttons else s.atCall).queues other.index).tail := by
  cases button with
  | left => rfl
  | right =>
    refine h.toGet other (Or.inl ⟨hpc, ?_⟩)
    rcases hother with rfl | hget
    · simp
    · have hmiddle : other = .middle := by
        simpa [ButtonsFillerPc.ToGet, ButtonsFillerPc.afterGet] using hget
      simp [hmiddle]
  | middle =>
    refine h.toGet other (Or.inr ⟨hpc, ?_⟩)
    rcases hother with rfl | hget
    · rfl
    · simp [ButtonsFillerPc.ToGet, ButtonsFillerPc.afterGet] at hget

theorem Inv.advance_atCall (h : Inv id levels s) (button other : Button) :
    (s.queue other).tail =
      ((if button = .left then s.buttons else s.atCall).queues other.index).tail ∨
    (s.queue other).tail =
      ((if button = .left then s.buttons else s.atCall).queues other.index).tail + 1#32 := by
  split
  next => exact Or.inl rfl
  next => exact h.advance other

theorem Inv.get (h : Inv id levels s) (hin : s.collector.InFiller id) {button : Button}
    (hpc : s.fillerPc = .get button) (hstep : fillerStep id s = some t) : Inv id levels t := by
  rw [fillerStep_get hpc] at hstep
  cases Option.some.inj hstep
  refine ⟨?_, ?_, ?_, ?_, fun hout => absurd hin hout, ?_⟩
  · intro other
    obtain ⟨history, hinitial, tracks⟩ := h.tracks other
    by_cases hother : other = button
    · subst hother
      obtain ⟨taken, htaken, htracks⟩ := tracks.get
      refine ⟨taken, htaken.trans hinitial, ?_⟩
      simp only [queue, Function.update_self]
      exact htracks
    · refine ⟨history, hinitial, ?_⟩
      simp only [queue, queue_update_ne hother, Function.update_of_ne hother]
      exact tracks
  · intro other value hvalue
    simp only [Button.bit_writeBit]
    by_cases hother : other = button
    · subst hother
      simp only [Function.update_self] at hvalue
      rw [if_pos rfl]
      exact Option.some.inj hvalue
    · simp only [Function.update_of_ne hother] at hvalue
      rw [if_neg hother]
      exact h.bit other value hvalue
  · intro other
    by_cases hother : other = button
    · subst hother
      have hsame := h.tail_atCall hpc (Or.inl rfl)
      simp only [queue, Function.update_self]
      rw [← hsame]
      exact toggleQueueGetOrLast_tail (s.queue other)
    · simp only [queue, queue_update_ne hother]
      exact h.advance_atCall button other
  · intro other hget
    have hne : other ≠ button := by
      rintro rfl
      cases other <;> simp [ButtonsFillerPc.ToGet, ButtonsFillerPc.afterGet] at hget
    simp only [queue, queue_update_ne hne]
    exact h.tail_atCall hpc (Or.inr hget)
  · intro other _
    refine Or.inr ⟨hin, ?_⟩
    intro k hk
    cases button with
    | middle =>
      cases hk
      exact Nat.zero_le _
    | left | right => simp [ButtonsFillerPc.afterGet] at hk

theorem Inv.checkLen (h : Inv id levels s) (hin : s.collector.InFiller id) {i : Nat}
    (hpc : s.fillerPc = .checkLen i) (hstep : fillerStep id s = some t) : Inv id levels t := by
  have hnone : ∀ button, ¬ s.fillerPc.ToGet button := by
    intro button
    simp [ButtonsFillerPc.ToGet, hpc]
  have hnext : ∀ pc button, pc = .get .left ∨ pc = .checkLen (i + 1) →
      ¬ ButtonsFillerPc.ToGet pc button := by
    rintro pc button (rfl | rfl)
    · simp [ButtonsFillerPc.ToGet]
    · simp [ButtonsFillerPc.ToGet]
  unfold fillerStep at hstep
  rw [hpc] at hstep
  simp only at hstep
  split at hstep
  next hi =>
    split at hstep
    next hlen =>
      cases Option.some.inj hstep
      have hposts := Collector.notify_posts id s.collector
      have hin' : (hidCollectorNotifyDataAvailable id s.collector).InFiller id :=
        hposts.inFiller.mpr hin
      refine ⟨h.tracks, ?_, h.advance, fun button hget => absurd hget (hnext _ _ (Or.inl rfl)),
        fun _ => rfl, ?_⟩
      · intro button value hvalue
        rw [Collector.filled_report, hposts.report]
        exact h.bit button value hvalue
      · intro button _
        refine Or.inl (Collector.filled_noticed hin' (Or.inl ?_))
        exact Collector.notify_posted id.isLt s.collector
    next hlen =>
      cases Option.some.inj hstep
      refine ⟨h.tracks, h.bit, h.advance, fun button hget => absurd hget (hnext _ _ (Or.inr rfl)),
        fun hout => absurd hin hout, ?_⟩
      intro button hpending
      rcases h.noticed button hpending with hposted | ⟨_, hcheck⟩
      · exact Or.inl hposted
      · refine Or.inr ⟨hin, ?_⟩
        intro k hk
        cases hk
        have hle := hcheck i hpc
        have hne : i ≠ button.index := by
          rintro rfl
          exact hlen hpending
        omega
  next hi =>
    cases Option.some.inj hstep
    refine ⟨h.tracks, ?_, h.advance, fun button hget => absurd hget (hnext _ _ (Or.inl rfl)),
      fun _ => rfl, ?_⟩
    · intro button value hvalue
      rw [Collector.filled_report]
      exact h.bit button value hvalue
    · intro button hpending
      rcases h.noticed button hpending with hposted | ⟨_, hcheck⟩
      · exact Or.inl (Collector.filled_noticed hin hposted)
      · have hle := hcheck i hpc
        have hlt := button.index_lt
        omega

theorem Inv.otherFiller (h : Inv id levels s) {wheelDelta : BitVec 8} {xDelta yDelta : BitVec 12}
    (hstep : step numSources id s (.otherFiller wheelDelta xDelta yDelta) = some t) :
    Inv id levels t := by
  simp only [step] at hstep
  split at hstep
  next sourceId events hpc =>
    split at hstep
    next => simp at hstep
    next hother =>
      cases Option.some.inj hstep
      have hout : ¬ s.collector.InFiller id := by
        rintro ⟨_, hfiller⟩
        rw [hpc] at hfiller
        exact hother (CollectorPc.filling.inj hfiller).1
      refine h.collector_step ?_ (fun _ => hout) ?_ (fun hin => absurd hin hout)
      · intro button
        rw [Collector.filled_report]
        cases button <;> rfl
      · intro hpending
        refine Or.inl (Collector.filled_noticed ⟨events, hpc⟩ ?_)
        exact hpending
  next => simp at hstep

theorem Inv.next (h : Inv id levels s) {a : ButtonsStep} (alternates : Alternates levels s a)
    (hstep : step numSources id s a = some t) : Inv id levels t := by
  cases a with
  | interrupt button newLevel => exact h.interrupt alternates hstep
  | notify sourceId =>
    cases Option.some.inj hstep
    exact h.posts (Collector.notify_posts sourceId s.collector)
  | writeSourceIdEnabled sourceId enabled =>
    cases Option.some.inj hstep
    exact h.posts (Collector.writeSourceIdEnabled_posts sourceId enabled s.collector)
  | notifySourcesChanged =>
    cases Option.some.inj hstep
    exact h.posts (Collector.notifySourcesChanged_posts s.collector)
  | thread =>
    simp only [step] at hstep
    split at hstep
    next collector hthread =>
      cases Option.some.inj hstep
      exact h.thread (Collector.threadStep_of_step hthread)
    next => simp at hstep
  | filler =>
    simp only [step] at hstep
    split at hstep
    next sourceId events hpc =>
      split at hstep
      next hid =>
        have hin : s.collector.InFiller id := ⟨events, by rw [hpc, hid]⟩
        cases hfiller : s.fillerPc with
        | get button => exact h.get hin hfiller hstep
        | checkLen i => exact h.checkLen hin hfiller hstep
      next => simp at hstep
    next => simp at hstep
  | otherFiller wheelDelta xDelta yDelta => exact h.otherFiller hstep

theorem start_queue (levels : Nat → Bool) (button : Button) :
    (start levels).queue button = toggleQueueInit (!levels button.pin) := by
  cases button <;> rfl

theorem inv_start (id : Fin MAX_NUM_OF_HID_SOURCES) (levels : Nat → Bool) :
    Inv id levels (start levels) := by
  refine ⟨?_, fun _ _ hvalue => by simp [start] at hvalue, fun _ => Or.inl rfl, fun _ _ => rfl,
    fun _ => rfl, ?_⟩
  · intro button
    refine ⟨.start (!levels button.pin), rfl, ?_⟩
    rw [start_queue]
    exact ToggleHistory.tracks_start _
  · intro button hlen
    rw [start_queue] at hlen
    simp [toggleQueueLen, toggleQueueInit] at hlen

/-- No click is lost, merged or invented, in every run whose levels alternate. -/
theorem clicks_kept {trace : List (ButtonsCollector × ButtonsStep)}
    (run : Run (step numSources id) (start levels) trace s)
    (alternates : AllSteps (Alternates levels) trace) : AllStates (ClicksKept id levels) trace s := by
  have invariant := run.invariant alternates (inv_start id levels)
    (fun s a t hs hok hstep => hs.next hok hstep)
  exact invariant.imp (fun s hs => hs.clicksKept)

def secondSource : Fin MAX_NUM_OF_HID_SOURCES := ⟨1, by decide⟩

/-- The left button is pressed and released before its first report and pressed again while the
filler runs; the optical sensor has data as well. -/
def doubleClick : List ButtonsStep :=
  [.thread, .thread, .interrupt .left false, .notify 0, .interrupt .left true, .thread,
    .interrupt .middle false, .thread, .thread, .otherFiller 0#8 5#12 7#12, .thread, .filler,
    .interrupt .left false] ++ List.replicate 3 .filler ++ List.replicate 6 .thread ++
    List.replicate 4 .filler ++ List.replicate 6 .thread ++ List.replicate 7 .filler

theorem clicks_kept_doubleClick :
    ∃ (trace : List (ButtonsCollector × ButtonsStep)) (s : ButtonsCollector),
      Run (step 4 secondSource) (start fun _ => true) trace s ∧ trace.map Prod.snd = doubleClick.reverse ∧
      AllStates (ClicksKept secondSource fun _ => true) trace s := by
  have replayed : (replay (guarded (Alternates fun _ => true) (step 4 secondSource))
      (start fun _ => true) doubleClick).isSome = true := by
    decide +kernel
  obtain ⟨trace, s, run, alternates, labels⟩ := exists_allowed_run replayed
  exact ⟨trace, s, run, labels, clicks_kept run alternates⟩

end ButtonsCollector

end MyMouse
