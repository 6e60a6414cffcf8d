import MyMouse.BitMask
import MyMouse.HidReport

namespace MyMouse

open BitMask

def MAX_NUM_OF_HID_SOURCES : Nat := 31
def ENABLED_HID_SOURCES_CHANGED_EVENT_MASK : BitVec 32 := BitVec.twoPow 32 MAX_NUM_OF_HID_SOURCES

def bitMask (n : Nat) : BitVec 32 := BitVec.twoPow 32 n - 1#32

theorem bitMask_getLsbD : ∀ n < 32, ∀ i < 32, (bitMask n).getLsbD i = decide (i < n) := by
  decide +kernel

def kEventPost (events posted : BitVec 32) : BitVec 32 := posted ||| events

def kEventSetMasked (events mask posted : BitVec 32) : BitVec 32 :=
  (posted &&& ~~~mask) ||| (events &&& mask)

/-- Where `hid_collector_thread_entry` stands; `waiting` is in `k_event_wait`, `received` after
it, and `filling` is in the filler of a source, with the events still to be served. -/
inductive CollectorPc
  | start
  | sampling
  | waiting (mask : BitVec 32)
  | received (events : BitVec 32)
  | serving (events : BitVec 32)
  | filling (sourceId : Nat) (events : BitVec 32)
  | sinking
  deriving DecidableEq

structure Collector where
  event : BitVec 32
  enabledSources : BitVec 32
  report : HidReport
  pc : CollectorPc

namespace Collector

def reset : Collector :=
  { event := 0#32, enabledSources := bitMask MAX_NUM_OF_HID_SOURCES, report := .zero, pc := .start }

end Collector

def hidCollectorNotifyDataAvailable (sourceId : Int) (c : Collector) : Collector :=
  if sourceId < 0 ∨ sourceId ≥ MAX_NUM_OF_HID_SOURCES then c
  else { c with event := kEventPost (BitVec.twoPow 32 sourceId.toNat) c.event }

/-- The first statement of `hid_collector_set_source_id_enabled`; the second one is
`notifySourcesChanged`. -/
def writeSourceIdEnabled (sourceId : Int) (enabled : Bool) (c : Collector) : Collector :=
  if sourceId < 0 ∨ sourceId ≥ MAX_NUM_OF_HID_SOURCES then c
  else { c with enabledSources := writeBit c.enabledSources sourceId.toNat enabled }

def notifySourcesChanged (c : Collector) : Collector :=
  { c with event := kEventPost ENABLED_HID_SOURCES_CHANGED_EVENT_MASK c.event }

def getExistingSourcesBitmask (numSources : Nat) : BitVec 32 :=
  bitMask (if numSources > MAX_NUM_OF_HID_SOURCES then MAX_NUM_OF_HID_SOURCES else numSources)

/-- A step of the collector thread outside the fillers; there is none while it is blocked. -/
def hidCollectorThreadStep (numSources : Nat) (c : Collector) : Option Collector :=
  match c.pc with
  | .start =>
    some { c with
      enabledSources := c.enabledSources &&& getExistingSourcesBitmask numSources
      pc := .sampling }
  | .sampling =>
    some { c with pc := .waiting (c.enabledSources ||| ENABLED_HID_SOURCES_CHANGED_EVENT_MASK) }
  | .waiting mask =>
    if c.event &&& mask = 0#32 then none else some { c with pc := .received (c.event &&& mask) }
  | .received events =>
    if events &&& ENABLED_HID_SOURCES_CHANGED_EVENT_MASK ≠ 0#32 then
      some { c with
        event := kEventSetMasked 0#32 ENABLED_HID_SOURCES_CHANGED_EVENT_MASK c.event
        pc := .sampling }
    else some { c with event := kEventSetMasked 0#32 events c.event, pc := .serving events }
  | .serving events =>
    if events ≠ 0#32 then
      let (sourceId, events) := getNextBitPos events
      some { c with pc := .filling sourceId events }
    else some { c with pc := .sinking }
  | .filling _ _ => none
  | .sinking => some { c with report := clearNonPersistentDataInReport c.report, pc := .sampling }

namespace Collector

/-- The events taken from the event object whose fillers have not started. -/
def taken (c : Collector) : BitVec 32 :=
  match c.pc with
  | .serving events | .filling _ events => events
  | _ => 0#32

/-- The source's event bit is posted, or taken and not yet served. -/
def Noticed (sourceId : Nat) (c : Collector) : Prop :=
  c.event.getLsbD sourceId = true ∨ c.taken.getLsbD sourceId = true

def InFiller (sourceId : Nat) (c : Collector) : Prop :=
  ∃ events, c.pc = .filling sourceId events

def filled (c : Collector) : Collector :=
  match c.pc with
  | .filling _ events => { c with pc := .serving events }
  | _ => c

variable {c d : Collector} {sourceId : Nat}

theorem notify_event {i : Nat} (h : i < MAX_NUM_OF_HID_SOURCES) :
    hidCollectorNotifyDataAvailable i c =
      { c with event := kEventPost (BitVec.twoPow 32 i) c.event } := by
  unfold hidCollectorNotifyDataAvailable
  rw [if_neg (by omega)]
  rfl

/-- A call from elsewhere: the thread stays where it is, and no event is cleared. -/
structure Posts (c d : Collector) : Prop where
  pc : d.pc = c.pc
  report : d.report = c.report
  event : ∀ i, c.event.getLsbD i = true → d.event.getLsbD i = true

theorem kEventPost_keeps {events posted : BitVec 32} {i : Nat} (h : posted.getLsbD i = true) :
    (kEventPost events posted).getLsbD i = true := by
  simp [kEventPost, h]

theorem kEventSetMasked_keeps {mask posted : BitVec 32} {i : Nat} (h : posted.getLsbD i = true)
    (hmask : mask.getLsbD i = false) : (kEventSetMasked 0#32 mask posted).getLsbD i = true := by
  have hlt := BitVec.lt_of_getLsbD h
  simp only [kEventSetMasked, BitVec.getLsbD_or, BitVec.getLsbD_and, BitVec.getLsbD_not, h, hmask]
  simp [hlt]

theorem notify_posts (i : Int) (c : Collector) : Posts c (hidCollectorNotifyDataAvailable i c) := by
  unfold hidCollectorNotifyDataAvailable
  split
  next => exact ⟨rfl, rfl, fun _ h => h⟩
  next => exact ⟨rfl, rfl, fun _ h => kEventPost_keeps h⟩

theorem writeSourceIdEnabled_posts (i : Int) (enabled : Bool) (c : Collector) :
    Posts c (writeSourceIdEnabled i enabled c) := by
  unfold writeSourceIdEnabled
  split
  next => exact ⟨rfl, rfl, fun _ h => h⟩
  next => exact ⟨rfl, rfl, fun _ h => h⟩

theorem notifySourcesChanged_posts (c : Collector) : Posts c (notifySourcesChanged c) :=
  ⟨rfl, rfl, fun _ h => kEventPost_keeps h⟩

theorem notify_posted {i : Nat} (h : i < MAX_NUM_OF_HID_SOURCES) (c : Collector) :
    (hidCollectorNotifyDataAvailable i c).event.getLsbD i = true := by
  have hlt : i < 32 := by simp [MAX_NUM_OF_HID_SOURCES] at h; omega
  rw [notify_event h]
  simp [kEventPost, hlt]

theorem Posts.taken (h : Posts c d) : d.taken = c.taken := by
  unfold Collector.taken
  rw [h.pc]

theorem Posts.noticed (h : Posts c d) (hc : c.Noticed sourceId) : d.Noticed sourceId := by
  rcases hc with hevent | htaken
  · exact Or.inl (h.event _ hevent)
  · exact Or.inr (by rw [h.taken]; exact htaken)

theorem Posts.inFiller (h : Posts c d) : d.InFiller sourceId ↔ c.InFiller sourceId := by
  simp only [InFiller, h.pc]

theorem Noticed.event_of_taken (hc : c.Noticed sourceId) (h : c.taken = 0#32) :
    c.event.getLsbD sourceId = true := by
  rcases hc with hevent | htaken
  · exact hevent
  · simp [h] at htaken

inductive ThreadStep (numSources : Nat) (c : Collector) : Collector → Prop
  | start : c.pc = .start →
      ThreadStep numSources c { c with
        enabledSources := c.enabledSources &&& getExistingSourcesBitmask numSources
        pc := .sampling }
  | sample : c.pc = .sampling →
      ThreadStep numSources c { c with
        pc := .waiting (c.enabledSources ||| ENABLED_HID_SOURCES_CHANGED_EVENT_MASK) }
  | receive (mask : BitVec 32) : c.pc = .waiting mask → c.event &&& mask ≠ 0#32 →
      ThreadStep numSources c { c with pc := .received (c.event &&& mask) }
  | restart (events : BitVec 32) : c.pc = .received events →
      events &&& ENABLED_HID_SOURCES_CHANGED_EVENT_MASK ≠ 0#32 →
      ThreadStep numSources c { c with
        event := kEventSetMasked 0#32 ENABLED_HID_SOURCES_CHANGED_EVENT_MASK c.event
        pc := .sampling }
  | take (events : BitVec 32) : c.pc = .received events →
      events &&& ENABLED_HID_SOURCES_CHANGED_EVENT_MASK = 0#32 →
      ThreadStep numSources c { c with
        event := kEventSetMasked 0#32 events c.event
        pc := .serving events }
  | fill (events : BitVec 32) : c.pc = .serving events → events ≠ 0#32 →
      ThreadStep numSources c { c with
        pc := .filling (getNextBitPos events).1 (getNextBitPos events).2 }
  | sink : c.pc = .serving 0#32 → ThreadStep numSources c { c with pc := .sinking }
  | clear : c.pc = .sinking →
      ThreadStep numSources c { c with
        report := clearNonPersistentDataInReport c.report
        pc := .sampling }

theorem threadStep_of_step {numSources : Nat} (h : hidCollectorThreadStep numSources c = some d) :
    ThreadStep numSources c d := by
  unfold hidCollectorThreadStep at h
  split at h
  next hpc =>
    cases Option.some.inj h
    exact .start hpc
  next hpc =>
    cases Option.some.inj h
    exact .sample hpc
  next mask hpc =>
    split at h
    next => simp at h
    next hne =>
      cases Option.some.inj h
      exact .receive mask hpc hne
  next events hpc =>
    split at h
    next hchanged =>
      cases Option.some.inj h
      exact .restart events hpc hchanged
    next hsame =>
      cases Option.some.inj h
      exact .take events hpc (not_not.mp hsame)
  next events hpc =>
    split at h
    next hne =>
      cases Option.some.inj h
      exact .fill events hpc hne
    next hzero =>
      cases Option.some.inj h
      exact .sink (by rw [hpc, not_not.mp hzero])
  next => simp at h
  next hpc =>
    cases Option.some.inj h
    exact .clear hpc

theorem ThreadStep.not_inFiller {numSources : Nat} (hstep : ThreadStep numSources c d) :
    ¬ c.InFiller sourceId := by
  rintro ⟨events, hfiller⟩
  cases hstep with
  | start hpc | sample hpc | receive _ hpc | restart _ hpc | take _ hpc | fill _ hpc | sink hpc
  | clear hpc => exact CollectorPc.noConfusion (hpc.symm.trans hfiller)

theorem changed_getLsbD (hid : sourceId < MAX_NUM_OF_HID_SOURCES) :
    ENABLED_HID_SOURCES_CHANGED_EVENT_MASK.getLsbD sourceId = false := by
  simp only [ENABLED_HID_SOURCES_CHANGED_EVENT_MASK, BitVec.getLsbD_twoPow]
  simp [Nat.ne_of_gt hid]

/-- A step of the thread does not forget a source: it may only start its filler. -/
theorem ThreadStep.noticed {numSources : Nat} (hstep : ThreadStep numSources c d)
    (hid : sourceId < MAX_NUM_OF_HID_SOURCES) (hc : c.Noticed sourceId) :
    d.Noticed sourceId ∨ d.InFiller sourceId := by
  cases hstep with
  | start hpc | sample hpc | receive _ hpc | sink hpc | clear hpc =>
    exact Or.inl (Or.inl (hc.event_of_taken (by rw [taken, hpc])))
  | restart events hpc _ =>
    have hevent := hc.event_of_taken (by rw [taken, hpc])
    exact Or.inl (Or.inl (kEventSetMasked_keeps hevent (changed_getLsbD hid)))
  | take events hpc _ =>
    have hevent := hc.event_of_taken (by rw [taken, hpc])
    cases hbit : events.getLsbD sourceId with
    | true => exact Or.inl (Or.inr hbit)
    | false => exact Or.inl (Or.inl (kEventSetMasked_keeps hevent hbit))
  | fill events hpc _ =>
    rcases hc with hevent | htaken
    · exact Or.inl (Or.inl hevent)
    · have hbit : events.getLsbD sourceId = true := by simpa [taken, hpc] using htaken
      by_cases hnext : sourceId = (getNextBitPos events).1
      · exact Or.inr ⟨(getNextBitPos events).2, by rw [hnext]⟩
      · refine Or.inl (Or.inr ?_)
        change (getNextBitPos events).2.getLsbD sourceId = true
        rw [getNextBitPos_rest events (BitVec.lt_of_getLsbD hbit), if_neg hnext]
        exact hbit

theorem ThreadStep.buttons {numSources : Nat} (hstep : ThreadStep numSources c d) :
    d.report.left = c.report.left ∧ d.report.right = c.report.right ∧
    d.report.middle = c.report.middle := by
  cases hstep with
  | clear hpc => simp [clearNonPersistent_eq]
  | start | sample | receive | restart | take | fill | sink => exact ⟨rfl, rfl, rfl⟩

theorem filled_of_pc {events : BitVec 32} (hpc : c.pc = .filling sourceId events) :
    c.filled = { c with pc := .serving events } := by
  unfold filled
  rw [hpc]

theorem filled_noticed {i : Nat} (hin : c.InFiller sourceId) (hc : c.Noticed i) :
    c.filled.Noticed i := by
  obtain ⟨events, hpc⟩ := hin
  rw [filled_of_pc hpc]
  exact hc.imp_right (fun h => by simpa [taken, hpc] using h)

theorem filled_report (c : Collector) : c.filled.report = c.report := by
  unfold filled
  split
  next => rfl
  next => rfl

end Collector

end MyMouse
