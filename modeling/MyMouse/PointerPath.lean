import MyMouse.Encoder
import MyMouse.FillerOrder
import MyMouse.Account
import MyMouse.OptSensor
import Mathlib.Data.BitVec

namespace MyMouse

open BitMask Accounts Runs

inductive MouseSource
  | optSensor
  | buttons
  | encoder
  | shell
  deriving DecidableEq

namespace MouseSource

def name : MouseSource → String
  | .optSensor => "hid_src_opt_sensor"
  | .buttons => "hid_src_buttons"
  | .encoder => "hid_src_encoder"
  | .shell => "hid_src_shell"

/-- `hid_source_id`: the index in the list the linker makes. -/
def id (source : MouseSource) : Nat :=
  mouseSources.linked.findIdx (·.name = source.name)

theorem ids : optSensor.id = 0 ∧ buttons.id = 1 ∧ encoder.id = 2 ∧ shell.id = 3 := by
  decide +kernel

end MouseSource

/-- The x and y fields of `pending_report`, the only ones shell/hid.c uses. -/
structure PendingReport where
  xDelta : BitVec 12
  yDelta : BitVec 12
  deriving DecidableEq

namespace PendingReport

/-- Bytes 2 and 3 of the packed report: x_delta, with the low bits of y_delta above it. -/
def xBytes (pending : PendingReport) : BitVec 16 :=
  pending.yDelta.extractLsb' 0 4 ++ pending.xDelta

/-- Bytes 3 and 4: y_delta, with the high bits of x_delta below it. -/
def yBytes (pending : PendingReport) : BitVec 16 :=
  pending.yDelta ++ pending.xDelta.extractLsb' 8 4

/-- The store of `x_delta += x`, which puts y_delta's bits in these bytes back as loaded. -/
def storeX (pending : PendingReport) (loaded : BitVec 16) (x : Int) : PendingReport where
  xDelta := loaded.extractLsb' 0 12 + BitVec.ofInt 12 x
  yDelta := pending.yDelta.extractLsb' 4 8 ++ loaded.extractLsb' 12 4

/-- The store of `y_delta += y`, which puts x_delta's bits in these bytes back as loaded. -/
def storeY (pending : PendingReport) (loaded : BitVec 16) (y : Int) : PendingReport where
  xDelta := loaded.extractLsb' 0 4 ++ pending.xDelta.extractLsb' 0 8
  yDelta := loaded.extractLsb' 4 12 + BitVec.ofInt 12 y

variable {pending : PendingReport} {loaded : BitVec 16}

theorem eq_xBytes_iff (x : Int) :
    loaded = pending.xBytes ↔
      loaded.extractLsb' 0 12 = pending.xDelta ∧
        (pending.storeX loaded x).yDelta = pending.yDelta := by
  have hy : (pending.storeX loaded x).yDelta = pending.yDelta ↔
      pending.yDelta.extractLsb' 4 8 = pending.yDelta.extractLsb' 4 8 ∧
        pending.yDelta.extractLsb' 0 4 = loaded.extractLsb' 12 4 :=
    eq_comm.trans (eq_append_iff (m := 8) (n := 4))
  refine (eq_append_iff (m := 4) (n := 12)).trans ?_
  rw [hy, and_iff_right rfl, and_comm, eq_comm (a := pending.yDelta.extractLsb' 0 4)]

theorem eq_yBytes_iff (y : Int) :
    loaded = pending.yBytes ↔
      loaded.extractLsb' 4 12 = pending.yDelta ∧
        (pending.storeY loaded y).xDelta = pending.xDelta := by
  have hx : (pending.storeY loaded y).xDelta = pending.xDelta ↔
      pending.xDelta.extractLsb' 8 4 = loaded.extractLsb' 0 4 ∧
        pending.xDelta.extractLsb' 0 8 = pending.xDelta.extractLsb' 0 8 :=
    eq_comm.trans (eq_append_iff (m := 4) (n := 8))
  refine (eq_append_iff (m := 12) (n := 4)).trans ?_
  rw [hx, and_iff_left rfl, eq_comm (a := pending.xDelta.extractLsb' 8 4)]

end PendingReport

def shellReportFiller (report : HidReport) (pending : PendingReport) : HidReport × PendingReport :=
  ({ report with
      xDelta := report.xDelta + pending.xDelta
      yDelta := report.yDelta + pending.yDelta },
    ⟨0#12, 0#12⟩)

/-- How far `cmd_report_move` has got: each `+=` loads the two bytes its field lies in with one
access, and stores both, with the sum in them, with another. -/
inductive ReportMove
  | idle
  | loadedX (loaded : BitVec 16) (x y : Int)
  | storedX (y : Int)
  | loadedY (loaded : BitVec 16) (y : Int)
  | storedY
  deriving DecidableEq

structure Deltas where
  x : BitVec 12
  y : BitVec 12
  wheel : BitVec 8
  deriving DecidableEq

def Deltas.zero : Deltas := ⟨0#12, 0#12, 0#8⟩

/-- The collector with the sources that move the pointer or the wheel. `entered` sums up what
the fillers of the sensor and of the encoder have put into the report and what the shell's command
has added, `given` what has been passed to the transport and `dropped` what was in a report when
the transport was not available. -/
structure PointerPath where
  collector : Collector
  sensor : Adns7530Data
  encoder : Encoder
  pending : PendingReport
  move : ReportMove
  entered : Deltas
  given : Deltas
  dropped : Deltas

/-- A step of the thread outside the fillers, which in `hid_sink_impl` finds the transport
available or not, a whole run of a filler, calls from elsewhere, and a statement of the
command. -/
inductive PointerStep
  | thread (available : Bool)
  | optSensorFiller (read : BurstRead) (motPin : Bool)
  | buttonsFiller (left right middle again : Bool)
  | encoderFiller
  | shellFiller
  | notify (sourceId : Int)
  | writeSourceIdEnabled (sourceId : Int) (enabled : Bool)
  | notifySourcesChanged
  | qdecData (value : Int)
  | reportMove (x y : Int)
  | storeX
  | loadY
  | storeY
  | moved
  deriving DecidableEq

namespace PointerPath

def start : PointerPath :=
  { collector := .reset
    sensor := ⟨0#16, 0#16⟩
    encoder := ⟨0, 0⟩
    pending := ⟨0#12, 0#12⟩
    move := .idle
    entered := .zero
    given := .zero
    dropped := .zero }

def filling (s : PointerPath) (source : MouseSource) : Bool :=
  match s.collector.pc with
  | .filling sourceId _ => sourceId = source.id
  | _ => false

/-- `hid_sink_impl`: what becomes of the report. -/
def sink (available : Bool) (s : PointerPath) : PointerPath :=
  let report := s.collector.report
  if available then
    { s with given := ⟨s.given.x + report.xDelta, s.given.y + report.yDelta,
        s.given.wheel + report.wheelDelta⟩ }
  else
    { s with dropped := ⟨s.dropped.x + report.xDelta, s.dropped.y + report.yDelta,
        s.dropped.wheel + report.wheelDelta⟩ }

section Steps

variable (surfQualThreshold : Nat)

def step (s : PointerPath) : PointerStep → Option PointerPath
  | .thread available =>
    (hidCollectorThreadStep mouseSources.sources.length s.collector).map fun collector =>
      if s.collector.pc = .sinking then { s.sink available with collector := collector }
      else { s with collector := collector }
  | .optSensorFiller read motPin =>
    if s.filling .optSensor then
      let (report, sensor, notifies) :=
        hidSrcOptSensorReportFiller surfQualThreshold ⟨read, motPin, s.collector.report⟩ s.sensor
      let collector := { s.collector with report := report }
      let collector :=
        if notifies then hidCollectorNotifyDataAvailable MouseSource.optSensor.id collector
        else collector
      some { s with
        collector := collector.filled
        sensor := sensor
        entered := { s.entered with
          x := s.entered.x + report.xDelta
          y := s.entered.y + report.yDelta } }
    else none
  | .buttonsFiller left right middle again =>
    if s.filling .buttons then
      let report := { s.collector.report with left := left, right := right, middle := middle }
      let collector := { s.collector with report := report }
      let collector :=
        if again then hidCollectorNotifyDataAvailable MouseSource.buttons.id collector else collector
      some { s with collector := collector.filled }
    else none
  | .encoderFiller =>
    if s.filling .encoder then
      let (report, encoder) := hidSrcEncoderReportFiller s.collector.report s.encoder
      some { s with
        collector := { s.collector with report := report }.filled
        encoder := encoder
        entered := { s.entered with wheel := s.entered.wheel + report.wheelDelta } }
    else none
  | .shellFiller =>
    if s.filling .shell then
      let (report, pending) := shellReportFiller s.collector.report s.pending
      some { s with collector := { s.collector with report := report }.filled, pending := pending }
    else none
  | .notify sourceId =>
    some { s with collector := hidCollectorNotifyDataAvailable sourceId s.collector }
  | .writeSourceIdEnabled sourceId enabled =>
    some { s with collector := MyMouse.writeSourceIdEnabled sourceId enabled s.collector }
  | .notifySourcesChanged => some { s with collector := MyMouse.notifySourcesChanged s.collector }
  | .qdecData value =>
    let (encoder, notifies) := hidSrcEncoderQdecDataCallback value s.encoder
    some { s with
      encoder := encoder
      collector :=
        if notifies then hidCollectorNotifyDataAvailable MouseSource.encoder.id s.collector
        else s.collector }
  | .reportMove x y =>
    match s.move with
    | .idle => some { s with move := .loadedX s.pending.xBytes x y }
    | _ => none
  | .storeX =>
    match s.move with
    | .loadedX loaded x y =>
      some { s with
        pending := s.pending.storeX loaded x
        move := .storedX y
        entered := { s.entered with x := s.entered.x + BitVec.ofInt 12 x } }
    | _ => none
  | .loadY =>
    match s.move with
    | .storedX y => some { s with move := .loadedY s.pending.yBytes y }
    | _ => none
  | .storeY =>
    match s.move with
    | .loadedY loaded y =>
      some { s with
        pending := s.pending.storeY loaded y
        move := .storedY
        entered := { s.entered with y := s.entered.y + BitVec.ofInt 12 y } }
    | _ => none
  | .moved =>
    match s.move with
    | .storedY =>
      some { s with
        collector := hidCollectorNotifyDataAvailable MouseSource.shell.id s.collector
        move := .idle }
    | _ => none

end Steps

/-- The command stores before the filler takes what it has loaded: the bytes it stores to are as
they were loaded. -/
def storesFresh (s : PointerPath) : PointerStep → Bool
  | .storeX =>
    match s.move with
    | .loadedX loaded _ _ => loaded = s.pending.xBytes
    | _ => true
  | .storeY =>
    match s.move with
    | .loadedY loaded _ => loaded = s.pending.yBytes
    | _ => true
  | _ => true

def StoresFresh (s : PointerPath) (a : PointerStep) : Prop := s.storesFresh a = true

instance (s : PointerPath) (a : PointerStep) : Decidable (StoresFresh s a) :=
  inferInstanceAs (Decidable (_ = true))

def xs (s : PointerPath) : Account (BitVec 12) :=
  ⟨s.pending.xDelta, s.collector.report.xDelta, s.given.x, s.dropped.x, s.entered.x⟩

def ys (s : PointerPath) : Account (BitVec 12) :=
  ⟨s.pending.yDelta, s.collector.report.yDelta, s.given.y, s.dropped.y, s.entered.y⟩

/-- Nothing of the wheel is pending outside the encoder. -/
def wheels (s : PointerPath) : Account (BitVec 8) :=
  ⟨0, s.collector.report.wheelDelta, s.given.wheel, s.dropped.wheel, s.entered.wheel⟩

/-- No motion is lost, counted twice or made up on the way to the transport. -/
def Conserved (s : PointerPath) : Prop := s.xs.Balanced ∧ s.ys.Balanced ∧ s.wheels.Balanced

end PointerPath

namespace Collector

/-- The source's filler is still to run before the report is passed on. -/
def Due (sourceId : Nat) (c : Collector) : Prop :=
  match c.pc with
  | .serving events => events.getLsbD sourceId = true
  | .filling i events => i = sourceId ∨ events.getLsbD sourceId = true
  | .sinking => False
  | _ => True

variable {c d : Collector} {sourceId : Nat}

theorem Posts.due (h : Posts c d) : d.Due sourceId ↔ c.Due sourceId := by
  unfold Due
  rw [h.pc]

theorem ThreadStep.due {numSources : Nat} (hstep : ThreadStep numSources c d)
    (h : d.Due sourceId) : c.pc = .sinking ∨ c.Due sourceId ∧ d.report = c.report := by
  cases hstep with
  | start hpc | sample hpc | receive _ hpc | restart _ hpc | take _ hpc =>
    refine Or.inr ⟨?_, rfl⟩
    unfold Due
    rw [hpc]
    trivial
  | fill events hpc hne =>
    refine Or.inr ⟨?_, rfl⟩
    unfold Due
    rw [hpc]
    rcases h with hfirst | hrest
    · rw [← hfirst]
      exact getNextBitPos_set hne
    · have hlt := BitVec.lt_of_getLsbD hrest
      rw [getNextBitPos_rest events hlt] at hrest
      split at hrest
      next => cases hrest
      next => exact hrest
  | sink hpc => exact h.elim
  | clear hpc => exact Or.inl hpc

/-- The events still to be served come after the one being served. -/
def Ascending (c : Collector) : Prop :=
  ∀ i events, c.pc = .filling i events → ∀ j, events.getLsbD j = true → i < j

theorem ThreadStep.ascending {numSources : Nat} (hstep : ThreadStep numSources c d) :
    d.Ascending := by
  intro i events hpc j hj
  cases hstep with
  | start | sample | receive | restart | take | sink | clear => cases hpc
  | fill taken _ hne =>
    cases hpc
    have hsorted := setBits_ascending taken
    rw [setBits_cons hne] at hsorted
    exact (List.pairwise_cons.mp hsorted).1 j (mem_setBits.mpr hj)

theorem ThreadStep.report {numSources : Nat} (hstep : ThreadStep numSources c d)
    (hpc : c.pc ≠ .sinking) : d.report = c.report := by
  cases hstep with
  | clear hsinking => exact absurd hsinking hpc
  | start | sample | receive | restart | take | fill | sink => rfl

theorem ThreadStep.cleared {numSources : Nat} (hstep : ThreadStep numSources c d)
    (hpc : c.pc = .sinking) : d.report = clearNonPersistentDataInReport c.report := by
  cases hstep with
  | clear => rfl
  | start h | sample h | receive _ h | restart _ h | take _ h | fill _ h | sink h =>
    rw [hpc] at h
    cases h

/-- After a filler only later sources are due. -/
theorem Ascending.filled {i : Nat} {events : BitVec 32} (h : c.Ascending)
    (hpc : c.pc = .filling i events) (hdue : c.filled.Due sourceId) :
    i < sourceId ∧ c.Due sourceId := by
  rw [filled_of_pc hpc] at hdue
  change events.getLsbD sourceId = true at hdue
  refine ⟨h i events hpc sourceId hdue, ?_⟩
  unfold Due
  rw [hpc]
  exact Or.inr hdue

end Collector

namespace PointerPath

open Collector

variable {surfQualThreshold : Nat} {s t : PointerPath}

structure Inv (s : PointerPath) : Prop where
  motion : s.collector.Due MouseSource.optSensor.id →
    s.collector.report.xDelta = 0#12 ∧ s.collector.report.yDelta = 0#12
  wheel : s.collector.Due MouseSource.encoder.id → s.collector.report.wheelDelta = 0#8
  ascending : s.collector.Ascending
  noticed : s.move = .idle → s.pending ≠ ⟨0#12, 0#12⟩ →
    s.collector.Noticed MouseSource.shell.id ∨ s.collector.InFiller MouseSource.shell.id

theorem inv_start : Inv start where
  motion := fun _ => ⟨rfl, rfl⟩
  wheel := fun _ => rfl
  ascending := fun _ _ hpc => CollectorPc.noConfusion hpc
  noticed := fun _ hpending => absurd rfl hpending

/-- Calls from elsewhere to the collector, with the other sources as they are or the encoder
turned. -/
theorem Inv.posts (h : Inv s) (hposts : Posts s.collector t.collector)
    (hnoticed : t.move = .idle → t.pending ≠ ⟨0#12, 0#12⟩ →
      t.collector.Noticed MouseSource.shell.id ∨ s.collector.Noticed MouseSource.shell.id ∨
        s.collector.InFiller MouseSource.shell.id) :
    Inv t where
  motion := by
    rw [hposts.due, hposts.report]
    exact h.motion
  wheel := by
    rw [hposts.due, hposts.report]
    exact h.wheel
  ascending := by
    intro i events hpc
    rw [hposts.pc] at hpc
    exact h.ascending i events hpc
  noticed := by
    intro hidle hpending
    rcases hnoticed hidle hpending with hnow | hbefore | hin
    · exact Or.inl hnow
    · exact Or.inl (hposts.noticed hbefore)
    · exact Or.inr (hposts.inFiller.mpr hin)

theorem filling_iff {source : MouseSource} :
    s.filling source = true ↔ ∃ events, s.collector.pc = .filling source.id events := by
  unfold filling
  split
  next sourceId events hpc =>
    rw [decide_eq_true_iff]
    constructor
    · rintro rfl
      exact ⟨events, hpc⟩
    · rintro ⟨_, hfilling⟩
      rw [hpc] at hfilling
      cases hfilling
      rfl
  next hpc =>
    constructor
    · intro hfalse
      cases hfalse
    · rintro ⟨events, hfilling⟩
      exact absurd hfilling (hpc source.id events)

/-- A filler that has written `report` and perhaps notified the collector. -/
theorem Inv.filler (h : Inv s) {source : MouseSource} (hin : s.filling source = true)
    {report : HidReport} {c : Collector} (hposts : Posts { s.collector with report := report } c)
    (hcollector : t.collector = c.filled)
    (hwheel : source.id < MouseSource.encoder.id → report.wheelDelta = s.collector.report.wheelDelta)
    (hpending : t.pending = ⟨0#12, 0#12⟩ ∨
      source ≠ .shell ∧ t.pending = s.pending ∧ t.move = s.move) : Inv t := by
  obtain ⟨events, hpc⟩ := filling_iff.mp hin
  have hcpc : c.pc = .filling source.id events := hposts.pc.trans hpc
  have hascending : c.Ascending := by
    intro i events hfilling
    rw [hposts.pc] at hfilling
    exact h.ascending i events hfilling
  have hreport : t.collector.report = report := by
    rw [hcollector, filled_report]
    exact hposts.report
  refine ⟨?_, ?_, ?_, ?_⟩
  · intro hdue
    rw [hcollector] at hdue
    have hlater := (hascending.filled hcpc hdue).1
    rw [MouseSource.ids.1] at hlater
    exact absurd hlater (Nat.not_lt_zero _)
  · intro hdue
    rw [hcollector] at hdue
    obtain ⟨hlater, hbefore⟩ := hascending.filled hcpc hdue
    rw [hreport, hwheel hlater]
    exact h.wheel (hposts.due.mp hbefore)
  · intro i rest hfilling
    rw [hcollector, filled_of_pc hcpc] at hfilling
    cases hfilling
  · intro hidle hsome
    rcases hpending with hnone | ⟨hother, hsame, hmove⟩
    · exact absurd hnone hsome
    · rw [hsame] at hsome
      rw [hmove] at hidle
      rw [hcollector]
      rcases h.noticed hidle hsome with hnoticed | ⟨rest, hshell⟩
      · exact Or.inl (filled_noticed ⟨events, hcpc⟩ (hposts.noticed hnoticed))
      · rw [hpc] at hshell
        have hid : source.id = MouseSource.shell.id := (CollectorPc.filling.inj hshell).1
        refine absurd ?_ hother
        obtain ⟨hopt, hbuttons, hencoder, hshellId⟩ := MouseSource.ids
        cases source with
        | shell => rfl
        | optSensor => omega
        | buttons => omega
        | encoder => omega

theorem shell_lt : MouseSource.shell.id < MAX_NUM_OF_HID_SOURCES := by
  rw [MouseSource.ids.2.2.2]
  decide

theorem inv_thread {available : Bool} (h : Inv s)
    (hstep : step surfQualThreshold s (.thread available) = some t) : Inv t := by
  obtain ⟨c, hc, ht⟩ := Option.map_eq_some_iff.mp hstep
  have hthread := threadStep_of_step hc
  have hkept : t.collector = c ∧ t.pending = s.pending ∧ t.move = s.move := by
    rw [← ht]
    split
    next =>
      unfold sink
      split <;> exact ⟨rfl, rfl, rfl⟩
    next => exact ⟨rfl, rfl, rfl⟩
  obtain ⟨hcollector, hpending, hmove⟩ := hkept
  have hcleared : s.collector.pc = .sinking →
      c.report.xDelta = 0#12 ∧ c.report.yDelta = 0#12 ∧ c.report.wheelDelta = 0#8 := by
    intro hpc
    rw [hthread.cleared hpc, clearNonPersistent_eq]
    exact ⟨rfl, rfl, rfl⟩
  refine ⟨?_, ?_, ?_, ?_⟩
  · intro hdue
    rw [hcollector] at hdue ⊢
    rcases hthread.due hdue with hpc | ⟨hbefore, hreport⟩
    · exact ⟨(hcleared hpc).1, (hcleared hpc).2.1⟩
    · rw [hreport]
      exact h.motion hbefore
  · intro hdue
    rw [hcollector] at hdue ⊢
    rcases hthread.due hdue with hpc | ⟨hbefore, hreport⟩
    · exact (hcleared hpc).2.2
    · rw [hreport]
      exact h.wheel hbefore
  · rw [hcollector]
    exact hthread.ascending
  · intro hidle hsome
    rw [hmove] at hidle
    rw [hpending] at hsome
    rw [hcollector]
    have hnoticed := (h.noticed hidle hsome).resolve_right hthread.not_inFiller
    exact hthread.noticed shell_lt hnoticed

theorem posts_if (notifies : Bool) (i : Int) (c : Collector) :
    Posts c (if notifies then hidCollectorNotifyDataAvailable i c else c) := by
  cases notifies with
  | true => exact notify_posts i c
  | false => exact ⟨rfl, rfl, fun _ hevent => hevent⟩

theorem posts_refl (c : Collector) : Posts c c := ⟨rfl, rfl, fun _ hevent => hevent⟩

theorem inv_step {a : PointerStep} (h : Inv s) (hstep : step surfQualThreshold s a = some t) :
    Inv t := by
  cases a with
  | thread available => exact inv_thread h hstep
  | optSensorFiller read motPin =>
    simp only [step] at hstep
    split at hstep
    next hin =>
      cases Option.some.inj hstep
      exact h.filler hin (posts_if _ _ _) rfl (fun _ => rfl)
        (Or.inr ⟨MouseSource.noConfusion, rfl, rfl⟩)
    next => cases hstep
  | buttonsFiller left right middle again =>
    simp only [step] at hstep
    split at hstep
    next hin =>
      cases Option.some.inj hstep
      exact h.filler hin (posts_if _ _ _) rfl (fun _ => rfl)
        (Or.inr ⟨MouseSource.noConfusion, rfl, rfl⟩)
    next => cases hstep
  | encoderFiller =>
    simp only [step] at hstep
    split at hstep
    next hin =>
      cases Option.some.inj hstep
      exact h.filler hin (posts_refl _) rfl (fun hlt => absurd hlt (Nat.lt_irrefl _))
        (Or.inr ⟨MouseSource.noConfusion, rfl, rfl⟩)
    next => cases hstep
  | shellFiller =>
    simp only [step] at hstep
    split at hstep
    next hin =>
      cases Option.some.inj hstep
      exact h.filler hin (posts_refl _) rfl (fun _ => rfl) (Or.inl rfl)
    next => cases hstep
  | notify sourceId =>
    cases Option.some.inj hstep
    exact h.posts (notify_posts _ _) (fun hidle hsome => Or.inr (h.noticed hidle hsome))
  | writeSourceIdEnabled sourceId enabled =>
    cases Option.some.inj hstep
    exact h.posts (writeSourceIdEnabled_posts _ _ _)
      (fun hidle hsome => Or.inr (h.noticed hidle hsome))
  | notifySourcesChanged =>
    cases Option.some.inj hstep
    exact h.posts (notifySourcesChanged_posts _)
      (fun hidle hsome => Or.inr (h.noticed hidle hsome))
  | qdecData value =>
    cases Option.some.inj hstep
    exact h.posts (posts_if _ _ _) (fun hidle hsome => Or.inr (h.noticed hidle hsome))
  | reportMove x y =>
    simp only [step] at hstep
    split at hstep
    next =>
      cases Option.some.inj hstep
      exact h.posts (posts_refl _) (fun hidle => ReportMove.noConfusion hidle)
    next => cases hstep
  | storeX =>
    simp only [step] at hstep
    split at hstep
    next =>
      cases Option.some.inj hstep
      exact h.posts (posts_refl _) (fun hidle => ReportMove.noConfusion hidle)
    next => cases hstep
  | loadY =>
    simp only [step] at hstep
    split at hstep
    next =>
      cases Option.some.inj hstep
      exact h.posts (posts_refl _) (fun hidle => ReportMove.noConfusion hidle)
    next => cases hstep
  | storeY =>
    simp only [step] at hstep
    split at hstep
    next =>
      cases Option.some.inj hstep
      exact h.posts (posts_refl _) (fun hidle => ReportMove.noConfusion hidle)
    next => cases hstep
  | moved =>
    simp only [step] at hstep
    split at hstep
    next =>
      cases Option.some.inj hstep
      exact h.posts (notify_posts MouseSource.shell.id s.collector) (fun _ _ =>
        Or.inl (Or.inl (notify_posted shell_lt s.collector)))
    next => cases hstep

/-- A step that moves nothing. -/
theorem Conserved.keep (h : s.Conserved) (hreport : t.collector.report = s.collector.report)
    (hpending : t.pending = s.pending) (hentered : t.entered = s.entered)
    (hgiven : t.given = s.given) (hdropped : t.dropped = s.dropped) : t.Conserved := by
  unfold Conserved xs ys wheels
  rw [hreport, hpending, hentered, hgiven, hdropped]
  exact h

theorem conserved_thread {available : Bool} (h : s.Conserved)
    (hstep : step surfQualThreshold s (.thread available) = some t) : t.Conserved := by
  obtain ⟨hx, hy, hwheel⟩ := h
  obtain ⟨c, hc, ht⟩ := Option.map_eq_some_iff.mp hstep
  have hthread := threadStep_of_step hc
  by_cases hpc : s.collector.pc = .sinking
  · rw [if_pos hpc] at ht
    have hcleared : c.report.xDelta = 0 ∧ c.report.yDelta = 0 ∧ c.report.wheelDelta = 0 := by
      rw [hthread.cleared hpc, clearNonPersistent_eq]
      exact ⟨rfl, rfl, rfl⟩
    cases available with
    | true =>
      have hxs : t.xs = s.xs.give := by
        rw [← ht]
        simp [xs, sink, Account.give, hcleared.1]
      have hys : t.ys = s.ys.give := by
        rw [← ht]
        simp [ys, sink, Account.give, hcleared.2.1]
      have hwheels : t.wheels = s.wheels.give := by
        rw [← ht]
        simp [wheels, sink, Account.give, hcleared.2.2]
      unfold Conserved
      rw [hxs, hys, hwheels]
      exact ⟨hx.give, hy.give, hwheel.give⟩
    | false =>
      have hxs : t.xs = s.xs.drop := by
        rw [← ht]
        simp [xs, sink, Account.drop, hcleared.1]
      have hys : t.ys = s.ys.drop := by
        rw [← ht]
        simp [ys, sink, Account.drop, hcleared.2.1]
      have hwheels : t.wheels = s.wheels.drop := by
        rw [← ht]
        simp [wheels, sink, Account.drop, hcleared.2.2]
      unfold Conserved
      rw [hxs, hys, hwheels]
      exact ⟨hx.drop, hy.drop, hwheel.drop⟩
  · rw [if_neg hpc] at ht
    cases ht
    exact Conserved.keep ⟨hx, hy, hwheel⟩ (hthread.report hpc) rfl rfl rfl rfl

theorem due_of_filling {source : MouseSource} (hin : s.filling source = true) :
    s.collector.Due source.id := by
  obtain ⟨events, hpc⟩ := filling_iff.mp hin
  unfold Due
  rw [hpc]
  exact Or.inl rfl

theorem conserved_optSensorFiller {read : BurstRead} {motPin : Bool} (h : s.Conserved) (inv : Inv s)
    (hstep : step surfQualThreshold s (.optSensorFiller read motPin) = some t) : t.Conserved := by
  obtain ⟨hx, hy, hwheel⟩ := h
  simp only [step] at hstep
  split at hstep
  next hin =>
    obtain ⟨hclearX, hclearY⟩ := inv.motion (due_of_filling hin)
    have hreport : t.collector.report = (hidSrcOptSensorReportFiller surfQualThreshold
        ⟨read, motPin, s.collector.report⟩ s.sensor).1 := by
      cases Option.some.inj hstep
      rw [filled_report]
      exact (posts_if _ _ _).report
    have hxs : t.xs = s.xs.bring t.collector.report.xDelta := by
      rw [hreport]
      unfold xs
      rw [hreport]
      cases Option.some.inj hstep
      rfl
    have hys : t.ys = s.ys.bring t.collector.report.yDelta := by
      rw [hreport]
      unfold ys
      rw [hreport]
      cases Option.some.inj hstep
      rfl
    have hwheels : t.wheels = s.wheels := by
      unfold wheels
      rw [hreport]
      cases Option.some.inj hstep
      rfl
    unfold Conserved
    rw [hxs, hys, hwheels]
    exact ⟨hx.bring_iff.mpr hclearX, hy.bring_iff.mpr hclearY, hwheel⟩
  next => cases hstep

theorem conserved_encoderFiller (h : s.Conserved) (inv : Inv s)
    (hstep : step surfQualThreshold s .encoderFiller = some t) : t.Conserved := by
  obtain ⟨hx, hy, hwheel⟩ := h
  simp only [step] at hstep
  split at hstep
  next hin =>
    have hclear := inv.wheel (due_of_filling hin)
    have hreport : t.collector.report =
        (hidSrcEncoderReportFiller s.collector.report s.encoder).1 := by
      cases Option.some.inj hstep
      exact filled_report _
    have hwheels : t.wheels = s.wheels.bring t.collector.report.wheelDelta := by
      rw [hreport]
      unfold wheels
      rw [hreport]
      cases Option.some.inj hstep
      rfl
    have hxs : t.xs = s.xs := by
      unfold xs
      rw [hreport]
      cases Option.some.inj hstep
      rfl
    have hys : t.ys = s.ys := by
      unfold ys
      rw [hreport]
      cases Option.some.inj hstep
      rfl
    unfold Conserved
    rw [hxs, hys, hwheels]
    exact ⟨hx, hy, hwheel.bring_iff.mpr hclear⟩
  next => cases hstep

theorem conserved_shellFiller (h : s.Conserved)
    (hstep : step surfQualThreshold s .shellFiller = some t) : t.Conserved := by
  obtain ⟨hx, hy, hwheel⟩ := h
  simp only [step] at hstep
  split at hstep
  next hin =>
    have hreport : t.collector.report = (shellReportFiller s.collector.report s.pending).1 := by
      cases Option.some.inj hstep
      exact filled_report _
    have hxs : t.xs = s.xs.fill := by
      unfold xs
      rw [hreport]
      cases Option.some.inj hstep
      rfl
    have hys : t.ys = s.ys.fill := by
      unfold ys
      rw [hreport]
      cases Option.some.inj hstep
      rfl
    have hwheels : t.wheels = s.wheels := by
      unfold wheels
      rw [hreport]
      cases Option.some.inj hstep
      rfl
    unfold Conserved
    rw [hxs, hys, hwheels]
    exact ⟨hx.fill, hy.fill, hwheel⟩
  next => cases hstep

/-- Only the stores of the shell's command can go wrong. -/
theorem conserved_step_iff {a : PointerStep} (inv : Inv s) (h : s.Conserved)
    (hstep : step surfQualThreshold s a = some t) : t.Conserved ↔ StoresFresh s a := by
  cases a with
  | thread => exact iff_of_true (conserved_thread h hstep) rfl
  | optSensorFiller => exact iff_of_true (conserved_optSensorFiller h inv hstep) rfl
  | buttonsFiller left right middle again =>
    refine iff_of_true ?_ rfl
    simp only [step] at hstep
    split at hstep
    next hin =>
      have hreport : t.collector.report =
          { s.collector.report with left := left, right := right, middle := middle } := by
        cases Option.some.inj hstep
        rw [filled_report]
        exact (posts_if _ _ _).report
      unfold Conserved xs ys wheels
      rw [hreport]
      cases Option.some.inj hstep
      exact h
    next => cases hstep
  | encoderFiller => exact iff_of_true (conserved_encoderFiller h inv hstep) rfl
  | shellFiller => exact iff_of_true (conserved_shellFiller h hstep) rfl
  | notify sourceId =>
    cases Option.some.inj hstep
    exact iff_of_true (h.keep (notify_posts _ _).report rfl rfl rfl rfl) rfl
  | writeSourceIdEnabled sourceId enabled =>
    cases Option.some.inj hstep
    exact iff_of_true (h.keep (writeSourceIdEnabled_posts _ _ _).report rfl rfl rfl rfl) rfl
  | notifySourcesChanged =>
    cases Option.some.inj hstep
    exact iff_of_true h rfl
  | qdecData value =>
    cases Option.some.inj hstep
    exact iff_of_true (h.keep (posts_if _ _ _).report rfl rfl rfl rfl) rfl
  | reportMove x y =>
    simp only [step] at hstep
    split at hstep
    next =>
      cases Option.some.inj hstep
      exact iff_of_true h rfl
    next => cases hstep
  | storeX =>
    simp only [step] at hstep
    split at hstep
    next loaded x y hmove =>
      simp only [StoresFresh, storesFresh, hmove, decide_eq_true_eq]
      rw [PendingReport.eq_xBytes_iff x]
      obtain ⟨hx, hy, hwheel⟩ := h
      have hxs : t.xs = s.xs.store (loaded.extractLsb' 0 12) (BitVec.ofInt 12 x) := by
        cases Option.some.inj hstep
        rfl
      have hys : t.ys = s.ys.replace (s.pending.storeX loaded x).yDelta := by
        cases Option.some.inj hstep
        rfl
      have hwheels : t.wheels = s.wheels := by
        cases Option.some.inj hstep
        rfl
      unfold Conserved
      rw [hxs, hys, hwheels, hx.store_iff, hy.replace_iff, and_iff_left hwheel]
      rfl
    next => cases hstep
  | loadY =>
    simp only [step] at hstep
    split at hstep
    next =>
      cases Option.some.inj hstep
      exact iff_of_true h rfl
    next => cases hstep
  | storeY =>
    simp only [step] at hstep
    split at hstep
    next loaded y hmove =>
      simp only [StoresFresh, storesFresh, hmove, decide_eq_true_eq]
      rw [PendingReport.eq_yBytes_iff y, and_comm]
      obtain ⟨hx, hy, hwheel⟩ := h
      have hxs : t.xs = s.xs.replace (s.pending.storeY loaded y).xDelta := by
        cases Option.some.inj hstep
        rfl
      have hys : t.ys = s.ys.store (loaded.extractLsb' 4 12) (BitVec.ofInt 12 y) := by
        cases Option.some.inj hstep
        rfl
      have hwheels : t.wheels = s.wheels := by
        cases Option.some.inj hstep
        rfl
      unfold Conserved
      rw [hxs, hys, hwheels, hx.replace_iff, hy.store_iff, and_iff_left hwheel]
      rfl
    next => cases hstep
  | moved =>
    simp only [step] at hstep
    split at hstep
    next =>
      cases Option.some.inj hstep
      exact iff_of_true (h.keep (notify_posts _ _).report rfl rfl rfl rfl) rfl
    next => cases hstep

theorem inv_run {trace : List (PointerPath × PointerStep)}
    (run : Run (step surfQualThreshold) start trace s) : AllStates Inv trace s := by
  have allowed : AllSteps (fun _ _ => True) trace := fun _ _ => trivial
  exact run.invariant allowed inv_start (fun _ _ _ hs _ hstep => inv_step hs hstep)

/-- Throughout a run nothing is lost on the way to the transport, exactly if no filler takes
anything from the bytes of a field between the load and the store of the shell's command. -/
theorem moves_conserved_iff {trace : List (PointerPath × PointerStep)}
    (run : Run (step surfQualThreshold) start trace s) :
    AllStates Conserved trace s ↔ AllSteps StoresFresh trace :=
  run.allStates_iff_of_invariant (inv_run run) ⟨rfl, rfl, rfl⟩
    (fun _ _ _ inv h hstep => conserved_step_iff inv h hstep)

/-- The sensor and the wheel move while the shell's command runs, whose move is served in a
second round, with the transport gone. -/
def movedTogether : List PointerStep :=
  [.thread true, .thread true, .notify 0, .qdecData 2, .reportMove 3 (-1), .storeX, .thread true,
    .loadY, .storeY, .moved, .thread true, .thread true,
    .optSensorFiller (.received ⟨0x88#8, 0x05#8, 0x02#8, 0x00#8, 0xC8#8⟩) true, .thread true,
    .encoderFiller] ++ List.replicate 6 (.thread true) ++ [.shellFiller] ++
    List.replicate 3 (.thread false)

theorem movedTogether_run :
    ∃ (trace : List (PointerPath × PointerStep)) (s : PointerPath),
      Run (step 120) start trace s ∧ AllSteps StoresFresh trace ∧
      trace.map Prod.snd = movedTogether.reverse := by
  have replayed : (replay (guarded StoresFresh (step 120)) start movedTogether).isSome = true := by
    decide +kernel
  exact exists_allowed_run replayed

/-- A second move of the pointer has loaded what the filler then takes. -/
def movedTwice : List PointerStep :=
  [.thread true, .thread true, .reportMove 3 (-1), .storeX, .loadY, .storeY, .moved, .thread true,
    .thread true, .thread true, .reportMove 1 0, .shellFiller, .storeX]

theorem moves_conserved_iff_movedTwice :
    (∃ (trace : List (PointerPath × PointerStep)) (s : PointerPath),
      Run (step 120) start trace s ∧ trace.map Prod.snd = movedTogether.reverse ∧
      AllStates Conserved trace s) ∧
    ∃ (trace : List (PointerPath × PointerStep)) (s : PointerPath),
      Run (step 120) start trace s ∧ trace.map Prod.snd = movedTwice.reverse ∧
      s.entered.x = 4#12 ∧ s.collector.report.xDelta = 3#12 ∧ s.pending = ⟨4#12, 15#12⟩ ∧
      ¬ AllSteps StoresFresh trace := by
  refine ⟨?_, ?_⟩
  · obtain ⟨trace, s, run, fresh, labels⟩ := movedTogether_run
    exact ⟨trace, s, run, labels, (moves_conserved_iff run).mpr fresh⟩
  obtain ⟨trace, s, run, labels, hs⟩ := exists_run_of_replay
    (p := fun s : PointerPath => decide (s.entered.x = 4#12 ∧ s.collector.report.xDelta = 3#12 ∧
      s.pending = ⟨4#12, 15#12⟩ ∧ s.given.x = 0#12 ∧ s.dropped.x = 0#12))
    (show (replay (step 120) start movedTwice).any _ = true by decide +kernel)
  obtain ⟨hentered, hreport, hpending, hgiven, hdropped⟩ := of_decide_eq_true hs
  refine ⟨trace, s, run, labels, hentered, hreport, hpending, ?_⟩
  intro fresh
  have hbalanced : s.given.x + s.dropped.x + s.collector.report.xDelta + s.pending.xDelta =
      s.entered.x := ((moves_conserved_iff run).mpr fresh).1.1
  rw [hgiven, hdropped, hreport, hpending, hentered] at hbalanced
  exact absurd hbalanced (by decide)

/-- The collector waits, with no event of the shell, whose command is not running. -/
def AtRest (s : PointerPath) : Prop :=
  (∃ mask, s.collector.pc = .waiting mask) ∧ s.move = .idle ∧
    s.collector.event.getLsbD MouseSource.shell.id = false

/-- At rest all that the fillers and the command have brought in has been given to the transport, or
dropped while it was not available. -/
def Delivered (s : PointerPath) : Prop :=
  s.AtRest → s.given.x + s.dropped.x = s.entered.x ∧ s.given.y + s.dropped.y = s.entered.y ∧
    s.given.wheel + s.dropped.wheel = s.entered.wheel

theorem Inv.delivered (inv : Inv s) (h : s.Conserved) : s.Delivered := by
  rintro ⟨⟨mask, hpc⟩, hidle, hevent⟩
  obtain ⟨hx, hy, hwheel⟩ := h
  have hdue : ∀ sourceId, s.collector.Due sourceId := by
    intro sourceId
    unfold Due
    rw [hpc]
    trivial
  have hpending : s.pending = ⟨0#12, 0#12⟩ := by
    by_contra hsome
    rcases inv.noticed hidle hsome with (hposted | htaken) | ⟨events, hin⟩
    · rw [hevent] at hposted
      cases hposted
    · rw [taken, hpc] at htaken
      change (0#32).getLsbD MouseSource.shell.id = true at htaken
      rw [BitVec.getLsbD_zero] at htaken
      cases htaken
    · rw [hpc] at hin
      cases hin
  obtain ⟨hclearX, hclearY⟩ := inv.motion (hdue _)
  have hpendingX : s.xs.pending = 0 := congrArg PendingReport.xDelta hpending
  have hpendingY : s.ys.pending = 0 := congrArg PendingReport.yDelta hpending
  exact ⟨hx.settled hclearX hpendingX, hy.settled hclearY hpendingY,
    hwheel.settled (inv.wheel (hdue _)) rfl⟩

theorem delivered_run {trace : List (PointerPath × PointerStep)}
    (run : Run (step surfQualThreshold) start trace s) (fresh : AllSteps StoresFresh trace) :
    AllStates Delivered trace s := by
  have inv := inv_run run
  have conserved := (moves_conserved_iff run).mpr fresh
  exact ⟨inv.1.delivered conserved.1, fun p hp => (inv.2 p hp).delivered (conserved.2 p hp)⟩

theorem delivered_run_movedTogether :
    ∃ (trace : List (PointerPath × PointerStep)) (s : PointerPath),
      Run (step 120) start trace s ∧ trace.map Prod.snd = movedTogether.reverse ∧
      AllStates Delivered trace s := by
  obtain ⟨trace, s, run, fresh, labels⟩ := movedTogether_run
  exact ⟨trace, s, run, labels, delivered_run run fresh⟩

end PointerPath

end MyMouse
